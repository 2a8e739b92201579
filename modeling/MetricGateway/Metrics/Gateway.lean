import MetricGateway.Metrics.Vector
import MetricGateway.Target.Basic

/- Metrics the gateway keeps about itself for as long as it runs. -/
namespace MetricGateway

def metricName (rest : String) : String := "herakles_gateway_" ++ rest

/-- The observed latencies of one instance, oldest first. -/
abbrev Latencies := List Double

namespace Latencies

/-- Upper bounds of the buckets, in seconds. -/
def bounds : List String :=
  ["0.005", "0.01", "0.025", "0.05", "0.1", "0.25", "0.5", "1", "2.5", "5"]

def sum (observed : Latencies) : Double := observed.foldl Double.add .zero

def countUpTo (observed : Latencies) (bound : String) : Nat :=
  match Decimal.number? bound.toList with
  | some b => observed.countP (·.le b)
  | none => 0

/-- Cumulative buckets, the last of which counts everything, then sum and count. -/
def points (observed : Latencies) : List Point :=
  bounds.map (fun b => ⟨"_bucket", [("le", b)], .ofNat (observed.countUpTo b)⟩) ++
  [⟨"_bucket", [("le", "+Inf")], .ofNat observed.length⟩,
   ⟨"_sum", [], observed.sum⟩,
   ⟨"_count", [], .ofNat observed.length⟩]

end Latencies

structure GatewayMetrics where
  labelPrefix : Option String
  failures : MetricVector Nat
  latency : Option (MetricVector Latencies)
  cacheSize : MetricVector Int
  cacheExpiry : MetricVector Nat
  refreshSuccess : MetricVector Nat
  refreshFailure : MetricVector Nat
  /-- The first instance recorded under each instance id. -/
  known : Std.ExtTreeMap String Instance := ∅

namespace GatewayMetrics

/-- An empty label prefix is none. -/
def create? (labelPrefix : Option String) (latency : Bool) : Except MetricsError GatewayMetrics := do
  let labelPrefix := labelPrefix.filter (· != "")
  let own := ownLabelNames labelPrefix
  let failures ← MetricVector.create? (metricName "fetcher_failed_requests_total") .counter
    "Number of scrape requests to targets that failed" own
  let latencies ← MetricVector.create? (metricName "fetcher_latency_seconds") .histogram
    "Latency of scrape requests to targets" own
  let perCache {α : Type} (name : String) (type : MetricType) (help : String) :
      Except MetricsError (MetricVector α) :=
    MetricVector.create? (metricName name) type help ["cache_name"]
  return {
    labelPrefix
    failures
    latency := if latency then some latencies else none
    cacheSize := ← perCache "cache_size" .gauge "Number of entries held by a cache"
    cacheExpiry := ← perCache "cache_expiry_total" .counter
      "Number of cache entries purged after not being used"
    refreshSuccess := ← perCache "cache_refresh_success_total" .counter
      "Number of successful background refreshes of cache entries"
    refreshFailure := ← perCache "cache_refresh_failure_total" .counter
      "Number of failed background refreshes of cache entries" }

def valuesOf (i : Instance) : List String := i.origin.values

def remember (m : GatewayMetrics) (i : Instance) : GatewayMetrics :=
  { m with known := m.known.insertIfNew i.id i }

def recordFailure (m : GatewayMetrics) (i : Instance) : GatewayMetrics :=
  let m := m.remember i
  { m with failures := m.failures.update (valuesOf i) 0 (· + 1) }

/-- Without latency metrics nothing is recorded, not even the instance. -/
def observeLatency (m : GatewayMetrics) (i : Instance) (seconds : Double) : GatewayMetrics :=
  match m.latency with
  | none => m
  | some vector =>
    { m.remember i with latency := some (vector.update (valuesOf i) [] (· ++ [seconds])) }

def deregister (m : GatewayMetrics) (i : Instance) : GatewayMetrics :=
  { m with
    failures := m.failures.remove (valuesOf i)
    latency := m.latency.map (·.remove (valuesOf i))
    known := m.known.erase i.id }

def vanished (m : GatewayMetrics) (current : List Instance) : List Instance :=
  m.known.values.filter fun k => !current.any (·.id == k.id)

def retain (m : GatewayMetrics) (current : List Instance) : GatewayMetrics :=
  (m.vanished current).foldl deregister m

/-- Sizes beyond the signed 64-bit range are shown as its end. -/
def recordSize (m : GatewayMetrics) (cache : String) (size : Nat) : GatewayMetrics :=
  { m with cacheSize := m.cacheSize.update [cache] 0 fun _ => min size 0x7fffffffffffffff }

def recordExpiry (m : GatewayMetrics) (cache : String) : GatewayMetrics :=
  { m with cacheExpiry := m.cacheExpiry.update [cache] 0 (· + 1) }

def recordRefresh (m : GatewayMetrics) (cache : String) (success : Bool) : GatewayMetrics :=
  if success then { m with refreshSuccess := m.refreshSuccess.update [cache] 0 (· + 1) }
  else { m with refreshFailure := m.refreshFailure.update [cache] 0 (· + 1) }

def countPoint (n : Nat) : List Point := [{ value := .ofNat n }]

def families (m : GatewayMetrics) : List Family :=
  [m.cacheExpiry.family countPoint, m.refreshFailure.family countPoint,
   m.refreshSuccess.family countPoint, m.cacheSize.family fun n => [{ value := .ofInt n }],
   m.failures.family countPoint] ++
  m.latency.toList.map (·.family Latencies.points)

def render (m : GatewayMetrics) : String := markedDocument m.families

end GatewayMetrics
end MetricGateway
