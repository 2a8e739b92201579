import MetricGateway.Exposition.Family
import MetricGateway.Exposition.Escape

/- Comment lines with a meaning: `# HELP name text` and `# TYPE name word`. -/
namespace MetricGateway

def isNameChar (c : Char) : Bool := Text.isAlphanumeric c || c == ':' || c == '_' || c == '"'

def isLabelNameChar (c : Char) : Bool := Text.isAlphanumeric c || c == ':' || c == '_'

namespace Directive

def skipSomeBlanks? (text : List Char) : Option (List Char) :=
  match text with
  | c :: rest => if Text.isBlank c then some (Text.skipBlanks rest) else none
  | [] => none

def after? (keyword : String) (line : List Char) : Option (List Char) := do
  let rest ← Text.afterStart? ['#'] line
  let rest ← skipSomeBlanks? rest
  let rest ← Text.afterStart? keyword.toList rest
  skipSomeBlanks? rest

def takeName? (text : List Char) : Option (List Char × List Char) :=
  let (name, rest) := text.span isNameChar
  if name.isEmpty then none else some (name, rest)

/-- Name and help text behind `HELP`; the text may be missing. -/
def help? (text : List Char) : Option (String × String) := do
  let (name, rest) ← takeName? text
  if rest.isEmpty then some (String.ofList name, "")
  else
    let help ← skipSomeBlanks? rest
    some (String.ofList name, String.ofList (Escape.decode .help help))

/-- Name and type word behind `TYPE`; the word may be empty but not the blank before it. -/
def type? (text : List Char) : Option (String × List Char) := do
  let (name, rest) ← takeName? text
  let rest ← skipSomeBlanks? rest
  let (word, rest) := rest.span Char.isAlpha
  if rest.all Text.isBlank then some (String.ofList name, word) else none

end Directive

inductive LineKind where
  | blank
  | help (text : List Char)
  | type (text : List Char)
  | comment
  | sample

/-- What a line is: HELP and TYPE are looked for before other comments. -/
def LineKind.of (line : List Char) : LineKind :=
  if line.all Text.isBlank then .blank
  else match Directive.after? "HELP" line with
    | some text => .help text
    | none => match Directive.after? "TYPE" line with
      | some text => .type text
      | none => if line.head? = some '#' then .comment else .sample

end MetricGateway
