import MetricGateway.Proofs.Exposition.Grouping
import Mathlib.Data.List.Basic

/- The account of a document, given from its lines alone: which samples are accepted, what the TYPE
   lines before a line say of its name, and what HELP lines say wherever they stand. Reading gives
   exactly this account, so that a line which says none of it makes no difference where it is. -/
namespace MetricGateway

namespace Reading

def declares? (line : List Char) : Option (String × MetricType) :=
  match LineKind.of line with
  | .type text =>
    (Directive.type? text).map fun (name, word) => (name, (MetricType.ofWord? word).getD .unknown)
  | _ => none

def explains? (line : List Char) : Option (String × String) :=
  match LineKind.of line with
  | .help text => Directive.help? text
  | _ => none

def last? {β : Type} (name : String) (said : List (String × β)) : Option β :=
  (said.filter fun x => x.1 = name).getLast?.map Prod.snd

/-- The type that lines make out for a sample's name: the one declared for it, else that of its
    base name if that is compound. -/
def typeAfter (lines : List (List Char)) (name : String) : MetricType :=
  let declared := lines.filterMap declares?
  (last? name declared).getD
    (((last? (baseName name) declared).filter MetricType.isCompound).getD .unknown)

/-- The samples of the lines that are accepted, each with the type that the lines before it make
    out. -/
def accepted (lines : List (List Char)) : List (MetricType × Sample) :=
  lines.zipIdx.filterMap fun place =>
    (sampleOf? place.1).map fun s => (typeAfter (lines.take place.2) s.name, s)

/-- Blank lines, comments, malformed HELP and TYPE lines, and sample lines that are rejected. -/
def passedOver (line : List Char) : Bool :=
  match LineKind.of line with
  | .blank | .comment => true
  | .help text => (Directive.help? text).isNone
  | .type text => (Directive.type? text).isNone
  | .sample => (SampleLine.read line).toOption.isNone

section Tables

theorem last?_cons {β : Type} (name : String) (x : String × β) (said : List (String × β)) :
    last? name (x :: said) = (last? name said).or (if x.1 = name then some x.2 else none) := by
  unfold last?
  by_cases own : x.1 = name
  · rw [List.filter_cons_of_pos (by simpa using own), List.getLast?_cons, if_pos own]
    cases (said.filter fun x => x.1 = name).getLast? <;> rfl
  · rw [List.filter_cons_of_neg (by simpa using own), if_neg own, Option.or_none]

theorem types_addLine (r : Reading) (line : List Char) :
    (r.addLine line).types =
      (declares? line).elim r.types fun said => r.types.insert said.1 said.2 := by
  unfold addLine declares?
  cases LineKind.of line with
  | blank | comment => rfl
  | help text =>
    dsimp only
    cases Directive.help? text <;> rfl
  | type text =>
    dsimp only
    cases Directive.type? text <;> rfl
  | sample =>
    dsimp only
    cases SampleLine.read line <;> rfl

theorem helps_addLine (r : Reading) (line : List Char) :
    (r.addLine line).helps =
      (explains? line).elim r.helps fun said => r.helps.insert said.1 said.2 := by
  unfold addLine explains?
  cases LineKind.of line with
  | blank | comment => rfl
  | help text =>
    dsimp only
    cases Directive.help? text <;> rfl
  | type text =>
    dsimp only
    cases Directive.type? text <;> rfl
  | sample =>
    dsimp only
    cases SampleLine.read line <;> rfl

theorem lookup_foldl {β : Type} {table : Reading → Std.ExtTreeMap String β}
    {look : List Char → Option (String × β)}
    (step : ∀ r line, table (r.addLine line) =
      (look line).elim (table r) fun said => (table r).insert said.1 said.2)
    (lines : List (List Char)) (r : Reading) (name : String) :
    (table (lines.foldl addLine r))[name]? =
      (last? name (lines.filterMap look)).or (table r)[name]? := by
  induction lines generalizing r with
  | nil => rfl
  | cons line rest ih =>
    rw [List.foldl_cons, ih, step]
    cases said : look line with
    | none => rw [List.filterMap_cons_none said, Option.elim_none]
    | some x =>
      rw [List.filterMap_cons_some said, last?_cons, Option.or_assoc, Option.elim_some,
        Std.ExtTreeMap.getElem?_insert]
      by_cases own : x.1 = name <;> simp [own]

theorem typeOf_foldl (lines : List (List Char)) (name : String) :
    (lines.foldl addLine {}).typeOf name = typeAfter lines name := by
  have types : ∀ name, (lines.foldl addLine {}).types[name]? =
      last? name (lines.filterMap declares?) := by
    intro name
    have none_before : ({} : Reading).types[name]? = none := Std.ExtTreeMap.getElem?_empty
    rw [lookup_foldl types_addLine, none_before, Option.or_none]
  rw [typeOf, typeAfter, types, types]
  cases last? name (lines.filterMap declares?) with
  | some type => rfl
  | none =>
    cases last? (baseName name) (lines.filterMap declares?) with
    | none => rfl
    | some type => cases kind : type.isCompound <;> simp [Option.filter_some, kind]

end Tables

theorem arrivals_foldl (before rest : List (List Char)) :
    (arrivals (before.foldl addLine {}) rest).map (fun a => (a.1.typeOf a.2.name, a.2)) =
      (rest.zipIdx before.length).filterMap fun place =>
        (sampleOf? place.1).map fun s =>
          (typeAfter ((before ++ rest).take place.2) s.name, s) := by
  -- The lines before grow as the rest is read, so that both are generalised.
  induction rest generalizing before with
  | nil => rfl
  | cons line rest ih =>
    have later := ih (before ++ [line])
    rw [List.foldl_concat, List.length_append, List.length_singleton, List.append_assoc,
      List.singleton_append] at later
    rw [arrivals, List.map_append, later, List.zipIdx_cons]
    cases read : sampleOf? line with
    | none => simp [read]
    | some s => simp [read, typeOf_foldl]

theorem accepted_eq_map (lines : List (List Char)) :
    accepted lines = (arrivals {} lines).map fun a => (a.1.typeOf a.2.name, a.2) :=
  (arrivals_foldl [] lines).symm

theorem filter_accepted (lines : List (List Char)) (key : String) :
    ((accepted lines).filter fun a => a.1.familyOf a.2.name = key) =
      (underKey key (arrivals {} lines)).map fun a => (a.1.typeOf a.2.name, a.2) := by
  rw [accepted_eq_map, List.filter_map]
  rfl

theorem addLine_of_passedOver (r : Reading) {line : List Char} (passed : passedOver line = true) :
    r.addLine line = r := by
  unfold passedOver at passed
  unfold addLine
  cases kind : LineKind.of line with
  | blank | comment => rfl
  | help text =>
    rw [kind] at passed
    dsimp only
    rw [Option.isNone_iff_eq_none.1 passed]
  | type text =>
    rw [kind] at passed
    dsimp only
    rw [Option.isNone_iff_eq_none.1 passed]
  | sample =>
    rw [kind] at passed
    dsimp only
    cases read : SampleLine.read line with
    | error => rfl
    | ok s => simp [read, Except.toOption] at passed

theorem foldl_filter (lines : List (List Char)) (r : Reading) :
    (lines.filter fun line => !passedOver line).foldl addLine r = lines.foldl addLine r := by
  induction lines generalizing r with
  | nil => rfl
  | cons line rest ih =>
    cases skipped : passedOver line with
    | true =>
      rw [List.filter_cons_of_neg (by simp [skipped]), ih, List.foldl_cons,
        addLine_of_passedOver r skipped]
    | false =>
      rw [List.filter_cons_of_pos (by simp [skipped]), List.foldl_cons, List.foldl_cons, ih]

end Reading

/-- A document has a family under a key exactly if samples with this key are accepted. These are
    its samples, in their order; its type is the one made out for the first of them, and its help is
    what is said last about the key anywhere. Documents that differ in lines that are passed over
    are read alike. -/
theorem family_accounts (text key : String) :
    let lines := Text.lines text.toList
    let own := (Reading.accepted lines).filter fun a => a.1.familyOf a.2.name = key
    (FamilyMap.ofText text)[key]? = own.head?.map (fun first =>
        ⟨key, first.1, (Reading.last? key (lines.filterMap Reading.explains?)).getD "",
          own.map Prod.snd⟩) ∧
      ∀ other : String,
        (Text.lines other.toList).filter (fun line => !Reading.passedOver line) =
          lines.filter (fun line => !Reading.passedOver line) →
        FamilyMap.ofText other = FamilyMap.ofText text := by
  intro lines own
  constructor
  · have arrived : own = _ := Reading.filter_accepted lines key
    have empty : ({} : Reading).families[key]? = none := Std.ExtTreeMap.getElem?_empty
    have help := Reading.lookup_foldl Reading.helps_addLine lines {} key
    rw [FamilyMap.ofText, Reading.finish, Std.ExtTreeMap.getElem?_map, Reading.families_foldl,
      empty, help, arrived]
    cases Reading.underKey key (Reading.arrivals {} lines) with
    | nil => rfl
    | cons a rest => simp [Reading.grown]
  · intro other same
    rw [FamilyMap.ofText, FamilyMap.ofText, ← Reading.foldl_filter, same, Reading.foldl_filter]

def remarkedText : String :=
  "\t\n# TYPE load\n# TYPE load gauge\r\nload one\n# a remark\nload 1\n\n"

theorem remarks_change_nothing :
    (Text.lines remarkedText.toList).filter (fun line => !Reading.passedOver line) =
        (Text.lines "# TYPE load gauge\nload 1".toList).filter (fun line =>
          !Reading.passedOver line) ∧
      FamilyMap.ofText remarkedText = FamilyMap.ofText "# TYPE load gauge\nload 1" := by
  have same : (Text.lines remarkedText.toList).filter (fun line => !Reading.passedOver line) =
      (Text.lines "# TYPE load gauge\nload 1".toList).filter (fun line =>
        !Reading.passedOver line) := by decide
  exact ⟨same, (family_accounts "# TYPE load gauge\nload 1" "load").2 remarkedText same⟩

end MetricGateway
