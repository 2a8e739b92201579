import MetricGateway.CommandLine.Numeral
import MetricGateway.CommandLine.Switch
import MetricGateway.Network.Address
import MetricGateway.Settings.Written

/- The gateway's command line: the switches there are, and what they set. -/
namespace MetricGateway
namespace CommandLine

inductive LogLevel where
  | off | error | warn | info | debug | trace
  deriving DecidableEq, Repr

def LogLevel.name : LogLevel → String
  | .off => "off"
  | .error => "error"
  | .warn => "warn"
  | .info => "info"
  | .debug => "debug"
  | .trace => "trace"

def LogLevel.all : List LogLevel := [.off, .error, .warn, .info, .debug, .trace]

def formatName : MarkupFormat → String
  | .yaml => "yaml"
  | .json => "json"
  | .toml => "toml"

def formats : List MarkupFormat := [.yaml, .json, .toml]

inductive Command where
  | targets (format : MarkupFormat)
  | scrape (appId : Option String)
  deriving DecidableEq, Repr

structure Options where
  port : Option Nat := none
  bind : Option Address := none
  logLevel : Option LogLevel := none
  settingsFile : Option String := none
  noSettingsFile : Bool := false
  showSettings : Bool := false
  settingsFormat : MarkupFormat := .yaml
  checkSettings : Bool := false
  threads : Option Nat := none
  maxProcessingTime : Option Nat := none
  fetchTimeout : Option Nat := none
  disableLabelEnrichment : Bool := false
  refreshInterval : Option Nat := none
  expiry : Option Nat := none
  disableOwnMetrics : Bool := false
  command : Option Command := none
  deriving DecidableEq, Repr

namespace Switch

variable {σ : Type}

def flag (name help : String) (set : σ → σ) : Switch σ where
  name := name
  help := help
  set _ o := .ok (set o)

def unsigned (name valueName help : String) (set : Nat → σ → σ) : Switch σ where
  name := name
  help := help
  valueName := some valueName
  set value o :=
    match readUnsigned value with
    | .ok n => .ok (set n o)
    | .error e => .error (.badValue value ("--" ++ name ++ " <" ++ valueName ++ ">") e.message)

def choice {α : Type} (name valueName help : String) (standard : Option String) (all : List α)
    (nameOf : α → String) (set : α → σ → σ) : Switch σ where
  name := name
  help := help
  standard := standard
  valueName := some valueName
  choices := all.map nameOf
  set value o :=
    match all.find? (nameOf · == value) with
    | some a => .ok (set a o)
    | none => .error (.noChoice value ("--" ++ name ++ " <" ++ valueName ++ ">") (all.map nameOf))

end Switch

def portSwitch : Switch Options where
  name := "port"
  letter := some 'p'
  valueName := some "PORT"
  help := "HTTP listen port"
  set value o :=
    match readSigned value with
    | .error e => .error (.badValue value "--port <PORT>" e.message)
    | .ok n =>
      if 0 ≤ n ∧ n < UInt16.size then .ok { o with port := some n.toNat }
      else .error (.badValue value "--port <PORT>" (toString n ++ " is not in 0..=65535"))

def bindSwitch : Switch Options where
  name := "bind"
  valueName := some "BIND"
  help := "Bind to specific interface/IP"
  set value o :=
    match Address.read? value with
    | some a => .ok { o with bind := some a }
    | none => .error (.badValue value "--bind <BIND>" "invalid IP address syntax")

def fileSwitch : Switch Options where
  name := "config"
  letter := some 'c'
  valueName := some "CONFIG"
  help := "Config file (YAML/JSON/TOML)"
  set value o :=
    if value = "" then .error (.missingValue "--config <CONFIG>")
    else .ok { o with settingsFile := some value }

def switches : List (Switch Options) := [
  portSwitch,
  bindSwitch,
  .choice "log-level" "LOG_LEVEL" "Log level" none LogLevel.all LogLevel.name
    fun l o => { o with logLevel := some l },
  fileSwitch,
  .flag "no-config" "Disable all config file loading" fun o => { o with noSettingsFile := true },
  .flag "show-config" "Print effective merged config and exit" fun o => { o with showSettings := true },
  .choice "config-format" "CONFIG_FORMAT" "Output format for --show-config" (some "yaml")
    formats formatName fun f o => { o with settingsFormat := f },
  .flag "check-config" "Validate config and exit (return code 1 on error)"
    fun o => { o with checkSettings := true },
  .unsigned "threads" "THREADS" "Number of concurrent scrape workers"
    fun n o => { o with threads := some n },
  .unsigned "max-processing-time-ms" "MAX_PROCESSING_TIME_MS"
    "Upper bound for one complete scrape in milliseconds" fun n o => { o with maxProcessingTime := some n },
  .unsigned "fetch-timeout-ms" "FETCH_TIMEOUT_MS"
    "Timeout of a single target fetch in milliseconds" fun n o => { o with fetchTimeout := some n },
  .flag "disable-label-enrichment" "Pass target metrics through without origin labels"
    fun o => { o with disableLabelEnrichment := true },
  .unsigned "cache-refresh-secs" "CACHE_REFRESH_SECS"
    "Refresh cached discovery results older than N seconds" fun n o => { o with refreshInterval := some n },
  .unsigned "cache-expiry-secs" "CACHE_EXPIRY_SECS"
    "Drop cached discovery results unused for N seconds" fun n o => { o with expiry := some n },
  .flag "disable-internal-metrics" "Disable internal herakles_gateway_* metrics"
    fun o => { o with disableOwnMetrics := true }]

def targetsSwitches : List (Switch MarkupFormat) := [
  .choice "format" "FORMAT" "Output format" (some "yaml") formats formatName fun f _ => f]

def scrapeSwitches : List (Switch (Option String)) := [{
  name := "app-id"
  letter := some 'a'
  valueName := some "APP_ID"
  help := "Only scrape the application with this id"
  set := fun value _ => .ok (some value) }]

def grammar : Grammar Options := ⟨none, switches, ["targets", "scrape", "help"]⟩

def targetsGrammar : Grammar MarkupFormat := ⟨some "targets", targetsSwitches, []⟩

def scrapeGrammar : Grammar (Option String) := ⟨some "scrape", scrapeSwitches, []⟩

def readHelp : List String → UsageError
  | [] => .help none true
  | [name] => if grammar.commands.contains name then .help (some name) true else .unknownCommand name
  | name :: word :: _ => .unknownCommand (if grammar.commands.contains name then word else name)

def readCommand (name : String) (words : List String) : Except UsageError Command :=
  if name = "targets" then (targetsGrammar.readAll .yaml words).map .targets
  else if name = "scrape" then (scrapeGrammar.readAll none words).map .scrape
  else .error (readHelp words)

/-- Reads a whole command line. The last switch before a subcommand is set after that is read. -/
def read (words : List String) : Except UsageError Options := do
  let (p, rest) ← grammar.read { options := {} } words
  match rest with
  | none => return p.options
  | some (name, words) =>
    let command ← readCommand name words
    let p ← p.settle
    return { p.options with command := some command }

end CommandLine
end MetricGateway
