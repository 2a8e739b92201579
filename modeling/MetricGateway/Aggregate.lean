import MetricGateway.Exposition.Notice

/- Merging the families of many documents by name. The first document fixes a family's type. -/
namespace MetricGateway

/-- Puts a family behind what is known under its name. A family of another type is dropped
    whole; a missing help text is taken from it otherwise. -/
def Family.absorb (known reported : Family) : Family :=
  if known.type = reported.type then
    { known with
      help := if known.help = "" then reported.help else known.help
      samples := known.samples ++ reported.samples }
  else known

def absorbInto (reported : Family) : Option Family → Option Family
  | none => some reported
  | some known => some (known.absorb reported)

def FamilyMap.fold (aggregate batch : FamilyMap) : FamilyMap :=
  batch.foldl (fun sum key family => sum.alter key (absorbInto family)) aggregate

def FamilyMap.conflicts (aggregate batch : FamilyMap) : List Notice :=
  batch.toList.filterMap fun (key, reported) =>
    match aggregate[key]? with
    | some known =>
      if known.type = reported.type then none
      else some (.conflictingType known.name known.type reported.type reported.samples.length)
    | none => none

end MetricGateway
