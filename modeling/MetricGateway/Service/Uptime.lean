import MetricGateway.Number.Decimal

/- Uptime in the unit that fits: minutes below an hour, hours below a day, days from then on. -/
namespace MetricGateway

/-- Hours are rounded to a double first; minutes and days are derived from those. -/
def uptimeText (seconds : Nat) : String :=
  let hours := (Double.ofNat seconds).scale 1 3600
  let text (x : Double) (unit : String) := String.ofList (Decimal.tenths x) ++ unit
  if hours.lt (.ofNat 1) then text (hours.scale 60 1) " minutes"
  else if hours.lt (.ofNat 24) then text hours " hours"
  else text (hours.scale 1 24) " days"

end MetricGateway
