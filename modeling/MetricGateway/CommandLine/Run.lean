import MetricGateway.CommandLine.Help
import MetricGateway.Settings.Effective
import MetricGateway.Service.Response

/- What a command line does: it checks or shows settings, lists instances, scrapes them once, or
   serves requests. -/
namespace MetricGateway
namespace CommandLine

structure Outcome where
  code : Nat := 0
  output : String := ""
  errors : String := ""
  deriving DecidableEq, Repr

inductive Task where
  | done (o : Outcome)
  | list (g : Gateway) (format : MarkupFormat)
  | scrape (g : Gateway) (appId : Option String)
  | serve (g : Gateway) (address : String)

namespace Outcome

def failed (reason : String) : Outcome := { code := 1, errors := "Error: " ++ reason ++ "\n" }

def invalid (e : SettingsError) : Outcome :=
  { code := 1, errors := "❌ Configuration invalid: " ++ e.message ++ "\n" }

def ofUsage (e : UsageError) : Outcome :=
  match e with
  | .help .. | .version _ => { output := e.message }
  | _ => { code := 2, errors := "error: " ++ e.message ++ e.hints ++ "\n\n" ++
      "For more information, try '--help'.\n" }

def checked (s : GatewaySettings) : Outcome :=
  { output := "✅ Configuration is valid (" ++ toString s.targets.length ++ " targets)\n" }

def shown (s : GatewaySettings) (format : MarkupFormat) : Outcome :=
  { output := s.tree.write format ++ "\n" }

end Outcome

/-- The task of a gateway whose settings are valid. To serve it needs an address to listen at. -/
def taskOf (g : Gateway) : Option Command → Task
  | some (.targets format) => .list g format
  | some (.scrape appId) => .scrape g appId
  | none =>
    let host := g.settings.bind.getD "0.0.0.0"
    if Address.isHost host then .serve g (host ++ ":" ++ toString (g.settings.port.getD 9216))
    else .done (.failed "invalid socket address syntax")

/-- What options ask for. Checking goes before showing, and both before all else. -/
def prepare (disk : Disk) (gatewayId : String) (o : Options) : Task :=
  match o.settings disk with
  | .error e => .done (.failed e.message)
  | .ok s =>
    match s.check with
    | .error e => .done (.invalid e)
    | .ok s =>
      if o.checkSettings then .done (.checked s)
      else if o.showSettings then .done (.shown s o.settingsFormat)
      else match Gateway.create? s gatewayId with
        | .error e => .done (.failed e.message)
        | .ok g => taskOf g o.command

def listInstances (g : Gateway) (format : MarkupFormat) : Outcome :=
  let instances := (g.discover none none).2
  { output := instancesText instances format ++ "\n📋 Total: " ++ toString instances.length ++
      " instances in " ++ toString g.directory.keys.length ++ " targets\n" }

/-- Scrapes once, and prints the document. How many instances could not be scraped is told apart
    from it. -/
def scrapeOnce (g : Gateway) (t : Transport) (appId : Option String) : Outcome × Gateway :=
  match g.discover appId none with
  | (g, []) => (.failed "no instances discovered", g)
  | (g, instances) =>
    let (g, report) := g.scrape t instances false
    let down := report.up.countP fun u => !u.2
    ({ output := report.document g.metrics
       errors := if down = 0 then "" else
         "⚠️  " ++ toString down ++ " of " ++ toString report.up.length ++
           " instances could not be scraped\n" }, g)

def start (disk : Disk) (gatewayId : String) (words : List String) : Task :=
  match read words with
  | .error e => .done (.ofUsage e)
  | .ok o => prepare disk gatewayId o

def finish? (t : Transport) : Task → Option Outcome
  | .done o => some o
  | .list g format => some (listInstances g format)
  | .scrape g appId => some (scrapeOnce g t appId).1
  | .serve .. => none

end CommandLine
end MetricGateway
