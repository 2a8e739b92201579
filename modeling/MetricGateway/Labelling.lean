import MetricGateway.Exposition.Family

/- Labels that tell where samples come from. A labelling appends its labels behind those a
   sample has; everything else of a family map stays as it is. -/
namespace MetricGateway

structure Origin where
  org : String
  space : String
  app : String
  instanceId : String
  deriving DecidableEq, Repr

def instanceNumber? (instanceId : String) : Option String :=
  (Text.afterLast? ':' instanceId.toList).map String.ofList

def originLabelNames : List String :=
  ["org_name", "space_name", "app_name", "cf_instance_id", "cf_instance_number"]

/-- Values of the origin labels. An id without colon has the empty number, so that every sample
    gets the same label set. -/
def Origin.values (o : Origin) : List String :=
  [o.org, o.space, o.app, o.instanceId, (instanceNumber? o.instanceId).getD ""]

def ownLabelNames (labelPrefix : Option String) : List String :=
  match labelPrefix with
  | some text => originLabelNames.map fun name => text ++ "_" ++ name
  | none => originLabelNames

inductive Labelling where
  | origin (o : Origin)
  | instanceOnly (id : String)
  | own (labelPrefix : Option String) (o : Origin)
  | gateway
  | none
  deriving DecidableEq

namespace Labelling

/-- An empty prefix is none. -/
def ownMetrics (labelPrefix : Option String) (o : Origin) : Labelling :=
  .own (labelPrefix.filter (· != "")) o

def names : Labelling → List String
  | .origin _ => originLabelNames
  | .instanceOnly _ => ["instance"]
  | .own labelPrefix _ => ownLabelNames labelPrefix
  | .gateway => ["herakles_gateway"]
  | .none => []

def values : Labelling → List String
  | .origin o | .own _ o => o.values
  | .instanceOnly id => [id]
  | .gateway => ["true"]
  | .none => []

def labels (l : Labelling) : List (String × String) := l.names.zip l.values

theorem names_length_eq_values_length (l : Labelling) : l.names.length = l.values.length := by
  cases l with
  | own labelPrefix o => cases labelPrefix <;> rfl
  | _ => rfl

def labelSample (l : Labelling) (s : Sample) : Sample := { s with labels := s.labels ++ l.labels }

def labelFamily (l : Labelling) (f : Family) : Family :=
  { f with samples := f.samples.map l.labelSample }

def apply (l : Labelling) (families : FamilyMap) : FamilyMap :=
  families.map fun _ family => l.labelFamily family

end Labelling
end MetricGateway
