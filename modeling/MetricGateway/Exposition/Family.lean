import MetricGateway.Number.Double
import MetricGateway.Text.Line
import Std.Data.ExtTreeMap

/- Metric families: a name, a type, a help text and samples in source order. -/
namespace MetricGateway

inductive MetricType where
  | counter | gauge | histogram | summary | info | stateSet | unknown
  deriving DecidableEq, Repr

namespace MetricType

/-- Reads the word of a TYPE line in any case. The word for unknown is `untyped`; the name
    `unknown` itself is no word of the format. -/
def ofWord? (word : List Char) : Option MetricType :=
  match String.ofList (word.map Char.toLower) with
  | "counter" => some .counter
  | "gauge" => some .gauge
  | "histogram" => some .histogram
  | "summary" => some .summary
  | "info" => some .info
  | "stateset" => some .stateSet
  | "untyped" => some .unknown
  | _ => none

def word : MetricType → String
  | .counter => "counter"
  | .gauge => "gauge"
  | .histogram => "histogram"
  | .summary => "summary"
  | .info | .stateSet | .unknown => "untyped"

def name : MetricType → String
  | .counter => "counter"
  | .gauge => "gauge"
  | .histogram => "histogram"
  | .summary => "summary"
  | .info => "info"
  | .stateSet => "stateset"
  | .unknown => "unknown"

/-- Histograms and summaries spread one family over several suffixed names. -/
def isCompound : MetricType → Bool
  | .histogram | .summary => true
  | _ => false

end MetricType

structure Sample where
  name : String
  labels : List (String × String)
  value : Double
  deriving DecidableEq

namespace Sample

/-- Joins label names and values; a sample exists only if there are as many of both. -/
def ofColumns? (name : String) (labelNames labelValues : List String) (value : Double) :
    Option Sample :=
  if labelNames.length = labelValues.length then
    some ⟨name, labelNames.zip labelValues, value⟩
  else none

def unlabelled (name : String) (value : Double) : Sample := ⟨name, [], value⟩

def labelNames (s : Sample) : List String := s.labels.map Prod.fst

def labelValues (s : Sample) : List String := s.labels.map Prod.snd

def label? (s : Sample) (name : String) : Option String := s.labels.lookup name

end Sample

structure Family where
  name : String
  type : MetricType
  help : String
  samples : List Sample
  deriving DecidableEq

abbrev FamilyMap := Std.ExtTreeMap String Family

/-- Suffixes of the samples of one compound family; `_max` is what some client libraries add. -/
def compoundSuffixes : List String := ["_bucket", "_sum", "_count", "_max"]

def baseName (name : String) : String :=
  (compoundSuffixes.findSome? fun suffix =>
    (Text.beforeEnd? suffix.toList name.toList).map String.ofList).getD name

end MetricGateway
