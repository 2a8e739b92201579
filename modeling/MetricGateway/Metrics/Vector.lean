import MetricGateway.Labelling
import MetricGateway.Exposition.Document
import MetricGateway.Exposition.Written

/- Metric vectors: one child per list of label values, and how a set of them is written. -/
namespace MetricGateway

def isLabelName (name : String) : Bool :=
  match name.toList with
  | [] => false
  | c :: rest => (c.isAlpha || c == '_') && rest.all fun d => Text.isAlphanumeric d || d == '_'

inductive MetricsError where
  | invalidLabelName (name : String)
  deriving DecidableEq, Repr

def MetricsError.message : MetricsError → String
  | .invalidLabelName name => "Error: '" ++ name ++ "' is not a valid label name"

def sortedLabels (labels : List (String × String)) : List (String × String) :=
  labels.mergeSort fun a b => decide (a.1 ≤ b.1)

def childKey (labels : List (String × String)) : List String := (sortedLabels labels).map Prod.snd

structure MetricVector (α : Type) where
  name : String
  type : MetricType
  help : String
  labelNames : List String
  children : Std.ExtTreeMap (List String) α := ∅

/-- One line of a child: name suffix, labels behind the child's own, value. -/
structure Point where
  suffix : String := ""
  labels : List (String × String) := []
  value : Double

namespace MetricVector

variable {α : Type}

/-- A vector without children; the first bad label name stops it. -/
def create? (name : String) (type : MetricType) (help : String) (labelNames : List String) :
    Except MetricsError (MetricVector α) :=
  match labelNames.find? (fun n => !isLabelName n) with
  | some bad => .error (.invalidLabelName bad)
  | none => .ok { name, type, help, labelNames }

def keyOf (v : MetricVector α) (values : List String) : List String :=
  childKey (v.labelNames.zip values)

/-- Changes the child of the given label values, which begins as `fresh`. -/
def update (v : MetricVector α) (values : List String) (fresh : α) (change : α → α) :
    MetricVector α :=
  { v with children := v.children.alter (v.keyOf values) fun child => some (change (child.getD fresh)) }

def remove (v : MetricVector α) (values : List String) : MetricVector α :=
  { v with children := v.children.erase (v.keyOf values) }

def child? (v : MetricVector α) (values : List String) : Option α := v.children[v.keyOf values]?

def family (v : MetricVector α) (points : α → List Point) : Family :=
  let names := v.labelNames.mergeSort fun a b => decide (a ≤ b)
  { name := v.name
    type := v.type
    help := v.help
    samples := v.children.toList.flatMap fun (values, child) =>
      (points child).map fun p => ⟨v.name ++ p.suffix, names.zip values ++ p.labels, p.value⟩ }

end MetricVector

def Sample.writePlain (s : Sample) : List Char :=
  s.name.toList ++ writeLabels s.labels ++ ' ' :: (Decimal.plainText s.value ++ ['\n'])

/-- A family as the metric vectors write it: values are plain, an empty help has no line. -/
def Family.writePlain (f : Family) : List Char :=
  (if f.help = "" then []
    else "# HELP ".toList ++ f.name.toList ++ ' ' :: (Escape.encode .help f.help.toList ++ ['\n'])) ++
  "# TYPE ".toList ++ f.name.toList ++ ' ' :: (f.type.word.toList ++ ['\n']) ++
  f.samples.flatMap Sample.writePlain

/-- The plain document of some vectors, by name; vectors without children are left out. -/
def plainDocument (families : List Family) : String :=
  let filled := families.filter (fun f => !f.samples.isEmpty)
  String.ofList ((filled.mergeSort fun a b => decide (a.name ≤ b.name)).flatMap Family.writePlain)

/-- The served form: the plain document read back, marked as the gateway's own and written. -/
def markedDocument (families : List Family) : String :=
  (Labelling.gateway.apply (FamilyMap.ofText (plainDocument families))).toText

end MetricGateway
