import MetricGateway.Exposition.Family
import MetricGateway.Exposition.Escape
import MetricGateway.Number.Decimal

/- The written form of families: text format 0.0.4, sorted by family name. -/
namespace MetricGateway

def writeLabel (label : String × String) : List Char :=
  label.1.toList ++ '=' :: '"' :: (Escape.encode .label label.2.toList ++ ['"'])

def writeLabels (labels : List (String × String)) : List Char :=
  if labels.isEmpty then []
  else '{' :: (List.intercalate [','] (labels.map writeLabel) ++ ['}'])

def Sample.write (s : Sample) : List Char :=
  s.name.toList ++ writeLabels s.labels ++ ' ' :: (Decimal.sampleText s.value ++ ['\n'])

def Family.write (f : Family) : List Char :=
  "# HELP ".toList ++ f.name.toList ++ ' ' :: (Escape.encode .help f.help.toList ++ ['\n']) ++
  "# TYPE ".toList ++ f.name.toList ++ ' ' :: (f.type.word.toList ++ ['\n']) ++
  f.samples.flatMap Sample.write

def FamilyMap.toText (families : FamilyMap) : String :=
  let sorted := families.values.mergeSort fun a b => decide (a.name ≤ b.name)
  String.ofList (sorted.flatMap Family.write)

end MetricGateway
