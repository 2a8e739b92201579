import MetricGateway.Settings.Written
import MetricGateway.Markup.Json
import MetricGateway.Markup.Toml.Document
import MetricGateway.Markup.Yaml.Node

/- Where settings come from: a file that is named, the first of some usual ones, or none. -/
namespace MetricGateway

inductive Stored where
  | absent
  | unreadable
  | text (t : String)
  deriving DecidableEq, Repr

abbrev Disk := String → Stored

inductive SourceError where
  | unreadable (path : String)
  | malformed (format : MarkupFormat) (path : String)
  deriving DecidableEq, Repr

def MarkupFormat.title : MarkupFormat → String
  | .yaml => "YAML"
  | .json => "JSON"
  | .toml => "TOML"

def SourceError.message : SourceError → String
  | .unreadable path => "reading config file " ++ path
  | .malformed format path => "parsing " ++ format.title ++ " config " ++ path

namespace Source

def isSlash (c : Char) : Bool := c == '/'

/-- Slashes and lone points behind them do not belong to a path's last name. -/
def trimPath : Nat → List Char → List Char
  | 0, path => path
  | fuel + 1, path =>
    let path := Text.dropEndWhile isSlash path
    match Text.beforeEnd? ['/', '.'] path with
    | some rest => trimPath fuel rest
    | none => path

def lastName (path : String) : List Char :=
  let chars := trimPath path.toList.length path.toList
  (Text.afterLast? '/' chars).getD chars

/-- What stands behind the last point of a path's last name, unless the name begins with it. -/
def extension? (path : String) : Option (List Char) :=
  match Text.splitLast? '.' (lastName path) with
  | some (before, behind) => if before.isEmpty || lastName path = ['.', '.'] then none else some behind
  | none => none

/-- The format that a path tells; it is YAML unless the extension says something else. -/
def formatOf (path : String) : MarkupFormat :=
  if extension? path = some "json".toList then .json
  else if extension? path = some "toml".toList then .toml
  else .yaml

def read? (format : MarkupFormat) (text : String) : Option GatewaySettings := do
  match format with
  | .json => Markup.jsonDialect.settings? (← Markup.Json.read? text)
  | .toml => Markup.tomlDialect.settings? (← Markup.Toml.read? text)
  | .yaml => do
    let doc ← Markup.Yaml.read? text
    (Markup.yamlDialect doc).settings? doc.root

def usualPaths : List String := [
  "/etc/herakles/scrape-gateway.yaml",
  "/etc/herakles/scrape-gateway.yml",
  "/etc/herakles/scrape-gateway.json",
  "./herakles-scrape-gateway.yaml",
  "./herakles-scrape-gateway.yml",
  "./herakles-scrape-gateway.json"]

def path? (disk : Disk) (named : Option String) : Option String :=
  match named with
  | some path => some path
  | none => usualPaths.find? fun path => disk path ≠ .absent

/-- Settings from a file; a file that is not there is no fault. -/
def load (disk : Disk) (named : Option String) : Except SourceError GatewaySettings :=
  match path? disk named with
  | none => .ok .standard
  | some path =>
    match disk path with
    | .absent => .ok .standard
    | .unreadable => .error (.unreadable path)
    | .text t =>
      match read? (formatOf path) t with
      | some s => .ok s
      | none => .error (.malformed (formatOf path) path)

end Source
end MetricGateway
