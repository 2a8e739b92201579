import MetricGateway.Settings.Schema
import MetricGateway.Metrics.Vector
import MetricGateway.Round.Schedule
import MetricGateway.SingleFlight.State

/- Consistency of settings. The first fault found is told; one inconsistency is mended. -/
namespace MetricGateway

inductive TargetFault where
  | emptyName
  | emptyRoute
  | badProtocol
  | badPath
  | noInstances
  | duplicate
  deriving DecidableEq, Repr

inductive SettingsError where
  | noThreads
  | noProcessingTime
  | noFetchTimeout
  | noSweepInterval
  | badLabelPrefix (labelPrefix : String)
  | badTarget (index : Nat) (target : Target) (fault : TargetFault)
  deriving DecidableEq, Repr

def TargetFault.message (index : Nat) (t : Target) (fault : TargetFault) : String :=
  let place := "targets[" ++ toString index ++ "]"
  let named := place ++ " (" ++ t.app ++ "): "
  match fault with
  | .emptyName => place ++ ": org_name, space_name and app_name must not be empty"
  | .emptyRoute => named ++ "route must not be empty"
  | .badProtocol => named ++ "invalid protocol '" ++ t.protocol ++ "', expected 'http' or 'https'"
  | .badPath => named ++ "path '" ++ t.path ++ "' must start with '/'"
  | .noInstances => named ++ "instances must be at least 1"
  | .duplicate => place ++ ": duplicate target " ++ t.key.text

def SettingsError.message : SettingsError → String
  | .noThreads => "scraping.threads must be greater than 0"
  | .noProcessingTime => "scraping.max_processing_time_ms must be greater than 0"
  | .noFetchTimeout => "scraping.fetch_timeout_ms must be greater than 0"
  | .noSweepInterval => "cache.sweep_interval_ms must be greater than 0"
  | .badLabelPrefix labelPrefix =>
    "internal_metrics.label_prefix '" ++ labelPrefix ++ "' is not a valid label name"
  | .badTarget index t fault => fault.message index t

def Target.fault? (t : Target) (earlier : List TargetKey) : Option TargetFault :=
  if t.org = "" ∨ t.space = "" ∨ t.app = "" then some .emptyName
  else if t.route = "" then some .emptyRoute
  else if t.protocol ≠ "http" ∧ t.protocol ≠ "https" then some .badProtocol
  else if t.path.toList.head? ≠ some '/' then some .badPath
  else if t.instances = 0 then some .noInstances
  else if t.key ∈ earlier then some .duplicate
  else none

def firstBadTarget? (index : Nat) (earlier : List TargetKey) : List Target → Option SettingsError
  | [] => none
  | t :: rest =>
    match t.fault? earlier with
    | some fault => some (.badTarget index t fault)
    | none => firstBadTarget? (index + 1) (t.key :: earlier) rest

namespace GatewaySettings

def capped (s : GatewaySettings) : GatewaySettings :=
  { s with scraping := { s.scraping with
      fetchTimeout := min s.scraping.fetchTimeout s.scraping.maxProcessingTime } }

def prefixFits (s : GatewaySettings) : Bool :=
  s.ownMetrics.labelPrefix.all fun p => p == "" || isLabelName p

def check (s : GatewaySettings) : Except SettingsError GatewaySettings :=
  if s.scraping.threads = 0 then .error .noThreads
  else if s.scraping.maxProcessingTime = 0 then .error .noProcessingTime
  else if s.scraping.fetchTimeout = 0 then .error .noFetchTimeout
  else if s.discovery.sweepInterval = 0 then .error .noSweepInterval
  else if !s.prefixFits then .error (.badLabelPrefix (s.ownMetrics.labelPrefix.getD ""))
  else match firstBadTarget? 0 [] s.targets with
    | some e => .error e
    | none => .ok s.capped

/-- How the discovery cache is run; the settings speak of seconds, the cache of milliseconds. -/
def cacheSettings (s : GatewaySettings) : SingleFlight.Settings where
  refreshAfter := some (s.discovery.refreshInterval * 1000)
  expireAfter := some (s.discovery.expiry * 1000)
  sweepInterval := s.discovery.sweepInterval
  background := true

def roundSettings (s : GatewaySettings) : RoundSettings where
  workers := s.scraping.threads
  fetchTimeout := s.scraping.fetchTimeout
  maxProcessingTime := s.scraping.maxProcessingTime
  labelEnrichment := s.scraping.labelEnrichment

end GatewaySettings
end MetricGateway
