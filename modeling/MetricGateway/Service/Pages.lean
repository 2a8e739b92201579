import MetricGateway.Service.Gateway
import MetricGateway.Service.Uptime
import MetricGateway.Markup.Tree.Json

/- What the gateway tells about itself: a summary for people, and a listing of instances for those
   who scrape them one by one. -/
namespace MetricGateway

open Markup (Tree)

def footer : String :=
  "Project: https://github.com/cansp-dev/herakles-scrape-gateway - " ++
    "More info: https://www.herakles.now - Support: exporter@herakles.now"

def Instance.singlePath (i : Instance) : String :=
  "/singleTargetMetrics/" ++ i.appId ++ "/" ++ i.number?.getD ""

namespace Gateway

def spaces (n : Nat) : String := String.ofList (List.replicate n ' ')

def tableRow (name value : String) : String :=
  name ++ spaces (28 - name.length) ++ " | " ++ spaces (12 - value.length) ++ value ++ "\n"

def summary (g : Gateway) : String :=
  "OK\n\nUptime: " ++ uptimeText ((g.now - g.started) / 1000) ++ "\n\n" ++
  tableRow "Setting" "Value" ++
  String.ofList (List.replicate 43 '-') ++ "\n" ++
  tableRow "Configured targets" (toString g.directory.keys.length) ++
  tableRow "Cached discovery results" (toString g.directory.cache.cache.size) ++
  tableRow "Scrape workers" (toString g.settings.scraping.threads) ++
  tableRow "Fetch timeout (ms)" (toString g.settings.scraping.fetchTimeout) ++
  tableRow "Max processing time (ms)" (toString g.settings.scraping.maxProcessingTime) ++
  tableRow "Label enrichment" (toString g.settings.scraping.labelEnrichment) ++
  "\n" ++ footer ++ "\n"

def address (g : Gateway) : String :=
  g.settings.bind.getD "localhost" ++ ":" ++ toString (g.settings.port.getD 0)

def group (address : String) (i : Instance) : Tree :=
  .record [
    ("targets", .list [.text address]),
    ("labels", .record [
      ("__meta_herakles_gateway_app_id", .text i.appId),
      ("__meta_herakles_gateway_app_name", .text i.app),
      ("__meta_herakles_gateway_instance_id", .text i.id),
      ("__meta_herakles_gateway_instance_number", .text (i.number?.getD "")),
      ("__meta_herakles_gateway_org_name", .text i.org),
      ("__meta_herakles_gateway_space_name", .text i.space),
      ("__metrics_path__", .text i.singlePath)])]

def listing (address : String) (instances : List Instance) : String :=
  String.ofList (Tree.list (instances.map (group address))).compactJson

end Gateway
end MetricGateway
