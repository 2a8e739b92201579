import MetricGateway.CommandLine.Options
import MetricGateway.Service.Pages

/- The texts of help and of faults on the command line. -/
namespace MetricGateway
namespace CommandLine

def program : String := "herakles-scrape-gateway"

def programVersion : String := "0.1.0"

def commandPath (between : String) (command : Option String) : String :=
  match command with
  | some name => program ++ between ++ name
  | none => program

def versionText (command : Option String) : String :=
  commandPath "-" command ++ " " ++ programVersion ++ "\n"

/-- Columns of a line. Only the choice of a layout depends on them; no text is broken. -/
def lineWidth : Nat := 100

structure HelpEntry where
  head : String
  help : String
  notes : List String := []

def letterColumn : Option Char → String
  | some letter => "  -" ++ letter.toString ++ ", "
  | none => "      "

def Switch.entry {σ : Type} (s : Switch σ) : HelpEntry where
  head := letterColumn s.letter ++ s.text
  help := s.help
  notes :=
    s.standard.toList.map (fun v => "[default: " ++ v ++ "]") ++
    (if s.choices.isEmpty then [] else ["[possible values: " ++ ", ".intercalate s.choices ++ "]"])

def commonEntries (helpNote : String) : List HelpEntry :=
  [⟨"  -h, --help", "Print help" ++ helpNote, []⟩, ⟨"  -V, --version", "Print version", []⟩]

def indent : String := "\n          "

/-- Head and help on lines of their own, notes behind an empty line. -/
def fullEntry (e : HelpEntry) : String :=
  e.head ++ indent ++ e.help ++
    (if e.notes.isEmpty then "" else indent ++ indent ++ indent.intercalate e.notes)

def HelpEntry.line (e : HelpEntry) : String := " ".intercalate (e.help :: e.notes)

def stackedEntry (e : HelpEntry) : String := e.head ++ indent ++ e.line

def padTo (width : Nat) (text : String) : String :=
  text ++ Gateway.spaces (width - text.length)

def columnEntry (width : Nat) (e : HelpEntry) : String := padTo width e.head ++ "  " ++ e.line

/-- Entries in two columns, unless the first takes much of the line and leaves one help no room. -/
def shortEntries (entries : List HelpEntry) : String :=
  let width := (entries.map (·.head.length)).foldl max 0
  let taken := width + 6
  if 2 * lineWidth < 5 * taken && entries.any (fun e => lineWidth - taken < e.line.length) then
    "\n".intercalate (entries.map stackedEntry)
  else "\n".intercalate (entries.map (columnEntry width))

def about : String := "Prometheus scrape gateway for platform-hosted app instances"

def fullAbout : String :=
  "Prometheus scrape gateway for platform-hosted app instances.\n\n" ++
  "Discovers the instances of the configured applications, scrapes all of them concurrently and " ++
  "re-exposes their metrics as one document, each sample labelled with the org, space, app and " ++
  "instance it came from."

def commandAbout : String → String
  | "targets" => "Resolve all configured targets and list their instances"
  | "scrape" => "Scrape all targets once and print the merged document"
  | _ => "Print this message or the help of the given subcommand(s)"

def commandTable : String :=
  let width := (grammar.commands.map String.length).foldl max 0
  "\n".intercalate (grammar.commands.map fun name =>
    "  " ++ padTo width name ++ "  " ++ commandAbout name)

def usage (command : Option String) : String :=
  "Usage: " ++ commandPath " " command ++ match command with
    | none => " [OPTIONS] [COMMAND]"
    | some "help" => " [COMMAND]..."
    | some _ => " [OPTIONS]"

def commandEntries {σ : Type} (switches : List (Switch σ)) : String :=
  "Options:\n" ++ shortEntries (switches.map Switch.entry ++ commonEntries "")

def commandHelp (name : String) : String :=
  commandAbout name ++ "\n\n" ++ usage (some name) ++ "\n\n" ++
  (match name with
    | "targets" => commandEntries targetsSwitches
    | "scrape" => commandEntries scrapeSwitches
    | _ => "Arguments:\n  [COMMAND]...  Print help for the subcommand(s)") ++ "\n"

def wholeHelp (full : Bool) : String :=
  let entries := switches.map Switch.entry
  (if full then fullAbout else about) ++ "\n\n" ++ usage none ++
  "\n\nCommands:\n" ++ commandTable ++ "\n\nOptions:\n" ++
  (if full then "\n\n".intercalate
      ((entries ++ commonEntries " (see a summary with '-h')").map fullEntry)
    else shortEntries (entries ++ commonEntries " (see more with '--help')")) ++
  "\n\n" ++ footer ++ "\n"

def helpText (command : Option String) (full : Bool) : String :=
  match command with
  | some name => commandHelp name
  | none => wholeHelp full

namespace UsageError

def message : UsageError → String
  | .unknownArgument argument => "unexpected argument '" ++ argument ++ "' found"
  | .unknownCommand name => "unrecognized subcommand '" ++ name ++ "'"
  | .missingValue switch => "a value is required for '" ++ switch ++ "' but none was supplied"
  | .noChoice value switch _ =>
    if value = "" then "a value is required for '" ++ switch ++ "' but none was supplied"
    else "invalid value '" ++ value ++ "' for '" ++ switch ++ "'"
  | .badValue value switch reason =>
    "invalid value '" ++ value ++ "' for '" ++ switch ++ "': " ++ reason
  | .unneededValue value switch =>
    "unexpected value '" ++ value ++ "' for '" ++ switch ++ "' found; no more were expected"
  | .repeated switch => "the argument '" ++ switch ++ "' cannot be used multiple times"
  | .help command full => helpText command full
  | .version command => versionText command

def hints : UsageError → String
  | .noChoice _ _ choices => "\n  [possible values: " ++ ", ".intercalate choices ++ "]"
  | _ => ""

end UsageError
end CommandLine
end MetricGateway
