import MetricGateway.Settings.Check
import MetricGateway.Target.Directory
import MetricGateway.Round.Report
import MetricGateway.Service.Outbound

/- A gateway at work: what it knows, and the two things it does to answer anyone, which are to find
   instances and to scrape them. -/
namespace MetricGateway

structure Gateway where
  settings : GatewaySettings
  /-- Sent along with every request, to know requests of its own. -/
  id : String
  directory : Directory
  metrics : Option GatewayMetrics
  started : Nat
  sent : List FetchRequest := []

namespace Gateway

def lookupName : String := "discovery"

def create? (settings : GatewaySettings) (id : String) : Except MetricsError Gateway := do
  let own ← GatewayMetrics.create? settings.ownMetrics.labelPrefix settings.ownMetrics.requestLatency
  return {
    settings, id
    directory := .ofTargets settings.targets settings.cacheSettings
    metrics := if settings.ownMetrics.enabled then some own else none
    started := 0 }

def now (g : Gateway) : Nat := g.directory.cache.cache.now

def recordSign (m : GatewayMetrics) :
    SingleFlight.Sighting TargetKey (List Instance) LookupError → GatewayMetrics
  | .signal (.sized size) => m.recordSize lookupName size
  | .signal (.expired _) => m.recordExpiry lookupName
  | .signal (.refreshed _ success) => m.recordRefresh lookupName success
  | _ => m

def withDirectory (g : Gateway) (d : Directory) : Gateway :=
  { g with
    directory := { d with cache := d.cache.forget }
    metrics := g.metrics.map fun m => d.cache.seen.foldl recordSign m }

def discover (g : Gateway) (appId number : Option String) : Gateway × List Instance :=
  let (d, found) := g.directory.discover appId number
  (g.withDirectory d, found)

def invalidate (g : Gateway) : Gateway := g.withDirectory g.directory.invalidate

def wait (g : Gateway) (ms : Nat) : Gateway :=
  g.withDirectory { g.directory with cache := g.directory.cache.advance ms }

/-- Sets the clock forward at once; what was due meanwhile is done once. -/
def jump (g : Gateway) (ms : Nat) : Gateway :=
  g.withDirectory { g.directory with cache := g.directory.cache.moveTo (g.now + ms) }

def retain (g : Gateway) (current : List Instance) : Gateway :=
  { g with metrics := g.metrics.map (·.retain current) }

def begun (settings : RoundSettings) (plans : List (Instance × FetchPlan)) : Nat :=
  (slots settings plans).countP fun s => s.begins < settings.maxProcessingTime

/-- Scrapes instances. Fetches begin in the order of the instances, so that those sent are the
    first. -/
def scrape (g : Gateway) (t : Transport) (instances : List Instance) (retainRaw : Bool) :
    Gateway × RoundReport :=
  let settings := g.settings.roundSettings
  let plans := t.plans g.id g.sent instances
  let report := Round.run settings retainRaw plans
  let tried := (instances.take (begun settings plans)).map (Instance.fetchRequest g.id)
  let g := { g with
    sent := g.sent ++ tried.filter FetchRequest.isSendable
    metrics := g.metrics.map (Round.recordIn settings plans) }
  (g.wait report.duration, report)

end Gateway
end MetricGateway
