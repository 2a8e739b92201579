import MetricGateway.Metrics.Gateway

/- Metrics about one scrape request: which instances were up and how long it took. -/
namespace MetricGateway

structure RequestMetrics where
  /-- With origin labels there is one indicator per label vector, else a single one. -/
  originLabels : Bool
  up : MetricVector Double
  duration : Double := .zero

namespace RequestMetrics

def create (originLabels : Bool) : RequestMetrics where
  originLabels
  up :=
    { name := metricName "up"
      type := .gauge
      help := "Whether the last scrape of the instance succeeded"
      labelNames := if originLabels then originLabelNames else [] }

def setUp (m : RequestMetrics) (i : Instance) (up : Bool) : RequestMetrics :=
  let values := if m.originLabels then i.origin.values else []
  { m with up := m.up.update values .zero fun _ => .ofNat (if up then 1 else 0) }

/-- Takes in the indicators in the order of the report, then the duration in seconds. -/
def record (m : RequestMetrics) (up : List (Instance × Bool)) (duration : Double) :
    RequestMetrics :=
  { up.foldl (fun m (i, up) => m.setUp i up) m with duration }

def durationFamily (m : RequestMetrics) : Family where
  name := metricName "scrape_duration_seconds"
  type := .gauge
  help := "Duration of the scrape request in seconds"
  samples := [.unlabelled (metricName "scrape_duration_seconds") m.duration]

def families (m : RequestMetrics) : List Family :=
  [m.durationFamily, m.up.family fun value => [{ value }]]

def render (m : RequestMetrics) : String := markedDocument m.families

def additional (m : RequestMetrics) (own : Option GatewayMetrics) : String :=
  m.render ++ (own.map GatewayMetrics.render).getD ""

end RequestMetrics
end MetricGateway
