import MetricGateway.Settings.Schema
import MetricGateway.Markup.Tree.Json
import MetricGateway.Markup.Tree.Toml
import MetricGateway.Markup.Tree.Yaml

/- The written form of settings and of listed instances, in three markup languages. -/
namespace MetricGateway

open Markup (Tree)

inductive MarkupFormat where
  | yaml | json | toml
  deriving DecidableEq, Repr

def BasicAuth.tree (a : BasicAuth) : Tree :=
  .record [("username", .text a.username), ("password", .text a.password)]

def Target.tree (t : Target) : Tree :=
  .record [
    ("org_name", .text t.org),
    ("space_name", .text t.space),
    ("app_name", .text t.app),
    ("app_id", .optional .text t.appId),
    ("route", .text t.route),
    ("path", .text t.path),
    ("protocol", .text t.protocol),
    ("instances", .natural t.instances),
    ("basic_auth", .optional BasicAuth.tree t.basicAuth)]

def Instance.tree (i : Instance) : Tree :=
  .record [
    ("org_name", .text i.org),
    ("space_name", .text i.space),
    ("app_name", .text i.app),
    ("app_id", .text i.appId),
    ("path", .text i.path),
    ("protocol", .text i.protocol),
    ("instance_id", .text i.id),
    ("access_url", .text i.url)]

def GatewaySettings.tree (s : GatewaySettings) : Tree :=
  .record ([
    ("port", .optional .natural s.port),
    ("bind", .optional .text s.bind),
    ("log_level", .optional .text s.logLevel),
    ("scraping", .record [
      ("threads", .natural s.scraping.threads),
      ("max_processing_time_ms", .natural s.scraping.maxProcessingTime),
      ("fetch_timeout_ms", .natural s.scraping.fetchTimeout),
      ("label_enrichment", .flag s.scraping.labelEnrichment)]),
    ("cache", .record [
      ("refresh_interval_secs", .natural s.discovery.refreshInterval),
      ("expiry_secs", .natural s.discovery.expiry),
      ("sweep_interval_ms", .natural s.discovery.sweepInterval)]),
    ("internal_metrics", .record [
      ("enabled", .flag s.ownMetrics.enabled),
      ("label_prefix", .optional .text s.ownMetrics.labelPrefix),
      ("request_latency", .flag s.ownMetrics.requestLatency)])] ++
    (if s.targets.isEmpty then [] else [("targets", .list (s.targets.map Target.tree))]))

def Markup.Tree.write (t : Tree) : MarkupFormat → String
  | .yaml => String.ofList t.yaml
  | .json => String.ofList (t.prettyJson 0)
  | .toml => String.ofList t.toml

/-- The listing of instances; a TOML document has to have a name for the list. -/
def instancesText (instances : List Instance) (format : MarkupFormat) : String :=
  let list := Tree.list (instances.map Instance.tree)
  match format with
  | .toml => (Tree.record [("instances", list)]).write .toml
  | format => list.write format

end MetricGateway
