import MetricGateway.Target.Basic
import MetricGateway.Markup.Dialect

/- The gateway's settings, their stand-ins, and how they are read from any markup. -/
namespace MetricGateway

structure ScrapingSettings where
  threads : Nat := 5
  /-- Budget of one complete scrape, in milliseconds. -/
  maxProcessingTime : Nat := 4000
  /-- Limit of a single fetch, in milliseconds. -/
  fetchTimeout : Nat := 3000
  labelEnrichment : Bool := true
  deriving DecidableEq, Repr

structure DiscoverySettings where
  /-- Seconds after which a lookup is repeated. -/
  refreshInterval : Nat := 300
  /-- Seconds of disuse after which a lookup is dropped. -/
  expiry : Nat := 600
  /-- Milliseconds between two sweeps. -/
  sweepInterval : Nat := 1000
  deriving DecidableEq, Repr

structure OwnMetricsSettings where
  enabled : Bool := true
  labelPrefix : Option String := none
  requestLatency : Bool := false
  deriving DecidableEq, Repr

structure GatewaySettings where
  port : Option Nat := none
  bind : Option String := none
  logLevel : Option String := none
  scraping : ScrapingSettings := {}
  discovery : DiscoverySettings := {}
  ownMetrics : OwnMetricsSettings := {}
  targets : List Target := []
  deriving DecidableEq, Repr

/-- The settings without a file. A file that is there replaces them all, so that what it leaves
    out has no value. -/
def GatewaySettings.standard : GatewaySettings :=
  { port := some 9216, bind := some "0.0.0.0", logLevel := some "info" }

namespace Markup.Dialect

variable {ν : Type} (d : Dialect ν)

def scraping? (v : ν) : Option ScrapingSettings := do
  let r ← d.record? v
  let threads ← r.withDefault? 0 ["threads"] (d.naturalBelow? UInt64.size) 5
  let maxProcessingTime ← r.withDefault? 1 ["max_processing_time_ms", "max-processing-time-ms"]
    (d.naturalBelow? UInt64.size) 4000
  let fetchTimeout ← r.withDefault? 2 ["fetch_timeout_ms", "fetch-timeout-ms"]
    (d.naturalBelow? UInt64.size) 3000
  let labelEnrichment ← r.withDefault? 3 ["label_enrichment", "label-enrichment"] d.flag? true
  guard (r.endsAt 4)
  return { threads, maxProcessingTime, fetchTimeout, labelEnrichment }

def discovery? (v : ν) : Option DiscoverySettings := do
  let r ← d.record? v
  let refreshInterval ← r.withDefault? 0 ["refresh_interval_secs", "refresh-interval-secs"]
    (d.naturalBelow? UInt64.size) 300
  let expiry ← r.withDefault? 1 ["expiry_secs", "expiry-secs"] (d.naturalBelow? UInt64.size) 600
  let sweepInterval ← r.withDefault? 2 ["sweep_interval_ms", "sweep-interval-ms"]
    (d.naturalBelow? UInt64.size) 1000
  guard (r.endsAt 3)
  return { refreshInterval, expiry, sweepInterval }

def ownMetrics? (v : ν) : Option OwnMetricsSettings := do
  let r ← d.record? v
  let enabled ← r.withDefault? 0 ["enabled"] d.flag? true
  let labelPrefix ← r.withDefault? 1 ["label_prefix", "label-prefix"] (optional? d.text? d) none
  let requestLatency ← r.withDefault? 2 ["request_latency", "request-latency"] d.flag? false
  guard (r.endsAt 3)
  return { enabled, labelPrefix, requestLatency }

def basicAuth? (v : ν) : Option BasicAuth := do
  let r ← d.record? v
  let username ← r.required? 0 ["username"] d.text?
  let password ← r.required? 1 ["password"] d.text?
  guard (r.endsAt 2)
  return { username, password }

def target? (v : ν) : Option Target := do
  let r ← d.record? v
  let org ← r.required? 0 ["org_name", "org-name"] d.text?
  let space ← r.required? 1 ["space_name", "space-name"] d.text?
  let app ← r.required? 2 ["app_name", "app-name"] d.text?
  let appId ← r.withDefault? 3 ["app_id", "app-id"] (optional? d.text? d) none
  let route ← r.required? 4 ["route"] d.text?
  let path ← r.withDefault? 5 ["path"] d.text? "/metrics"
  let protocol ← r.withDefault? 6 ["protocol"] d.text? "https"
  let instances ← r.withDefault? 7 ["instances"] (d.naturalBelow? UInt32.size) 1
  let basicAuth ← r.withDefault? 8 ["basic_auth", "basic-auth"] (optional? d.basicAuth? d) none
  guard (r.endsAt 9)
  return { org, space, app, appId, route, path, protocol, instances, basicAuth }

def settings? (v : ν) : Option GatewaySettings := do
  let r ← d.record? v
  let port ← r.nullable? 0 ["port"] (optional? (d.naturalBelow? UInt16.size) d)
  let bind ← r.nullable? 1 ["bind"] (optional? d.text? d)
  let logLevel ← r.nullable? 2 ["log_level", "log-level"] (optional? d.text? d)
  let scraping ← r.withDefault? 3 ["scraping"] d.scraping? {}
  let discovery ← r.withDefault? 4 ["cache"] d.discovery? {}
  let ownMetrics ← r.withDefault? 5 ["internal_metrics", "internal-metrics"] d.ownMetrics? {}
  let targets ← r.withDefault? 6 ["targets"] (list? d.target? d) []
  guard (r.endsAt 7)
  return { port, bind, logLevel, scraping, discovery, ownMetrics, targets }

end Markup.Dialect
end MetricGateway
