/- Command lines of switches and one subcommand. Switches come before the subcommand, and each once;
   those behind it are its own. A value is looked at only when the next switch has been found, or
   the line or the subcommand has ended. -/
namespace MetricGateway
namespace CommandLine

inductive UsageError where
  | unknownArgument (argument : String)
  | unknownCommand (name : String)
  | missingValue (switch : String)
  | noChoice (value switch : String) (choices : List String)
  | badValue (value switch reason : String)
  | unneededValue (value switch : String)
  | repeated (switch : String)
  | help (command : Option String) (full : Bool)
  | version (command : Option String)
  deriving DecidableEq, Repr

structure Switch (σ : Type) where
  name : String
  letter : Option Char := none
  valueName : Option String := none
  help : String
  choices : List String := []
  standard : Option String := none
  set : String → σ → Except UsageError σ

namespace Switch

variable {σ : Type}

def text (s : Switch σ) : String :=
  "--" ++ s.name ++ match s.valueName with
    | some v => " <" ++ v ++ ">"
    | none => ""

end Switch

structure Grammar (σ : Type) where
  command : Option String
  switches : List (Switch σ)
  commands : List String

structure Progress (σ : Type) where
  options : σ
  set : List String := []
  /-- The last switch, and its value if that has come. -/
  pending : Option (Switch σ × Option String) := none
  trailing : Bool := false

namespace Progress

variable {σ : Type}

def put (p : Progress σ) (s : Switch σ) (value : String) : Except UsageError (Progress σ) := do
  if p.set.contains s.name then throw (.repeated s.text)
  return { p with options := ← s.set value p.options, set := s.name :: p.set }

def settle (p : Progress σ) : Except UsageError (Progress σ) :=
  match p.pending with
  | none => .ok p
  | some (s, none) => .error (.missingValue s.text)
  | some (s, some value) => { p with pending := none }.put s value

def isWaiting (p : Progress σ) : Bool :=
  match p.pending with
  | some (_, none) => true
  | _ => false

end Progress

namespace Grammar

variable {σ : Type} (g : Grammar σ)

def named? (name : String) : Option (Switch σ) := g.switches.find? (·.name == name)

def lettered? (letter : Char) : Option (Switch σ) := g.switches.find? (·.letter == some letter)

def asksFor? (name : String) : Option UsageError :=
  if name = "help" then some (.help g.command true)
  else if name = "version" then some (.version g.command)
  else none

def readNamed (p : Progress σ) (name : String) (attached : Option String) :
    Except UsageError (Progress σ) :=
  match g.asksFor? name, attached with
  | some _, some value => .error (.unneededValue value ("--" ++ name))
  | some asked, none => do
    let _ ← p.settle
    throw asked
  | none, _ =>
    match g.named? name with
    | none => .error (.unknownArgument ("--" ++ name))
    | some s =>
      match s.valueName, attached with
      | none, some value => .error (.unneededValue value s.text)
      | none, none => do (← p.settle).put s "true"
      | some _, some value => do (← p.settle).put s value
      | some _, none => do return { ← p.settle with pending := some (s, none) }

/-- A switch by its letter, and what is attached to it. Only help and version have letters and
    no value, so nothing is left behind a letter. -/
def readLettered (p : Progress σ) (letter : Char) (attached : List Char) :
    Except UsageError (Progress σ) :=
  if letter = 'h' then do
    let _ ← p.settle
    throw (.help g.command false)
  else if letter = 'V' then do
    let _ ← p.settle
    throw (.version g.command)
  else match g.lettered? letter with
    | none => .error (.unknownArgument (String.ofList ['-', letter]))
    | some s =>
      match attached with
      | [] => do return { ← p.settle with pending := some (s, none) }
      | '=' :: value => do (← p.settle).put s (String.ofList value)
      | value => do (← p.settle).put s (String.ofList value)

def refuse (p : Progress σ) (word : String) : UsageError :=
  if g.commands.isEmpty || (p.trailing && g.commands.contains word) then .unknownArgument word
  else .unknownCommand word

def splitValue (text : List Char) : List Char × Option (List Char) :=
  match text.dropWhile (· != '=') with
  | [] => (text, none)
  | _ :: value => (text.takeWhile (· != '='), some value)

def read : Progress σ → List String → Except UsageError (Progress σ × Option (String × List String))
  | p, [] => do return (← p.settle, none)
  | p, word :: rest => do
    if p.trailing then throw (g.refuse p word)
    if !p.isWaiting && g.commands.contains word then return (p, some (word, rest))
    match word.toList with
    | ['-', '-'] => read { p with trailing := true } rest
    | '-' :: '-' :: text =>
      let (name, value) := splitValue text
      read (← g.readNamed p (String.ofList name) (value.map String.ofList)) rest
    | '-' :: letter :: attached => read (← g.readLettered p letter attached) rest
    | _ =>
      match p.pending with
      | some (s, none) => read { p with pending := some (s, some word) } rest
      | _ => throw (g.refuse p word)

def readAll (start : σ) (words : List String) : Except UsageError σ := do
  return (← g.read { options := start } words).1.options

end Grammar
end CommandLine
end MetricGateway
