import MetricGateway.Exposition.SampleLine

/- Reading a document: a line that cannot be understood is passed over, never the rest. -/
namespace MetricGateway

structure Reading where
  helps : Std.ExtTreeMap String String := ∅
  types : Std.ExtTreeMap String MetricType := ∅
  families : FamilyMap := ∅

namespace Reading

/-- The type under the sample's own name, else under its base name if that is compound. -/
def typeOf (r : Reading) (name : String) : MetricType :=
  match r.types[name]? with
  | some type => type
  | none =>
    match r.types[baseName name]? with
    | some type => if type.isCompound then type else .unknown
    | none => .unknown

def keyOf (r : Reading) (name : String) : String :=
  if (r.typeOf name).isCompound then baseName name else name

/-- Puts a sample behind those of its family. The first sample of a family fixes its type. -/
def addSample (r : Reading) (s : Sample) : Reading :=
  let key := r.keyOf s.name
  let type := r.typeOf s.name
  { r with
    families := r.families.alter key fun
      | some family => some { family with samples := family.samples ++ [s] }
      | none => some ⟨key, type, "", [s]⟩ }

/-- Takes in one line. An unknown type word declares the unknown type. -/
def addLine (r : Reading) (line : List Char) : Reading :=
  match LineKind.of line with
  | .blank | .comment => r
  | .help text =>
    match Directive.help? text with
    | some (name, help) => { r with helps := r.helps.insert name help }
    | none => r
  | .type text =>
    match Directive.type? text with
    | some (name, word) =>
      { r with types := r.types.insert name ((MetricType.ofWord? word).getD .unknown) }
    | none => r
  | .sample =>
    match SampleLine.read line with
    | .ok s => r.addSample s
    | .error _ => r

/-- Help texts are given to the families that exist at the end of the document. -/
def finish (r : Reading) : FamilyMap :=
  r.families.map fun key family => { family with help := r.helps[key]?.getD family.help }

end Reading

def FamilyMap.ofText (text : String) : FamilyMap :=
  ((Text.lines text.toList).foldl Reading.addLine {}).finish

end MetricGateway
