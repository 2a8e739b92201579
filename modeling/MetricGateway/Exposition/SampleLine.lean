import MetricGateway.Exposition.Directive
import MetricGateway.Number.Decimal

/- One sample line: name, label block, value, timestamp. A label value without closing quote
   ends the block at the last brace of the line and is dropped; its predecessors stay. -/
namespace MetricGateway

inductive LineError where
  | missingName
  | malformedLabels
  | invalidValue
  | invalidTimestamp
  deriving DecidableEq, Repr

def LineError.message : LineError → String
  | .missingName => "missing metric name"
  | .malformedLabels => "malformed label block"
  | .invalidValue => "unable to parse value"
  | .invalidTimestamp => "unable to parse timestamp"

namespace SampleLine

def isSeparator (c : Char) : Bool := Text.isBlank c || c == ','

inductive Block where
  | closed (labels : List (String × String)) (rest : List Char)
  | unterminated (labels : List (String × String))
  | malformed

def Block.cons (label : String × String) : Block → Block
  | .closed labels rest => .closed (label :: labels) rest
  | .unterminated labels => .unterminated (label :: labels)
  | .malformed => .malformed

def labelStart? (text : List Char) : Option (List Char × List Char) :=
  let (name, rest) := text.span isLabelNameChar
  if name.isEmpty then none
  else (Text.afterStart? ['=', '"'] (Text.skipBlanks rest)).map (name, ·)

/-- Reads pairs until the closing brace. Each pair uses up text, so the text's length is fuel
    enough. -/
def readPairs : Nat → List Char → Block
  | 0, _ => .malformed
  | fuel + 1, text =>
    match text.dropWhile isSeparator with
    | '}' :: rest => .closed [] rest
    | text =>
      match labelStart? text with
      | none => .malformed
      | some (name, rest) =>
        match Escape.splitQuote rest with
        | none => .unterminated []
        | some (quoted, after) =>
          .cons (String.ofList name, String.ofList (Escape.decode .label quoted))
            (readPairs fuel after)

def readBlock (text : List Char) : Block := readPairs (text.length + 1) (text.drop 1)

def labels? (text : List Char) : Except LineError (List (String × String) × List Char) :=
  if text.head? = some '{' then
    match readBlock text with
    | .closed labels rest => .ok (labels, Text.skipBlanks rest)
    | .unterminated labels =>
      match Text.afterLast? '}' text with
      | some rest => .ok (labels, Text.skipBlanks rest)
      | none => .error .malformedLabels
    | .malformed => .error .malformedLabels
  else .ok ([], text)

/-- Value and timestamp at the end of a line. A timestamp is checked and not kept. -/
def value? (text : List Char) : Except LineError Double :=
  let (token, rest) := text.span (fun c => !Text.isBlank c)
  match Decimal.sampleValue? token with
  | none => .error .invalidValue
  | some value =>
    let timestamp := Text.dropEndWhile Text.isBlank (Text.skipBlanks rest)
    if timestamp.isEmpty || (Decimal.sampleValue? timestamp).isSome then .ok value
    else .error .invalidTimestamp

def read (line : List Char) : Except LineError Sample := do
  let (name, rest) := line.span isNameChar
  if name.isEmpty then throw .missingName
  let (labels, rest) ← labels? (Text.skipBlanks rest)
  let value ← value? rest
  return ⟨String.ofList name, labels, value⟩

/-- The label block of a line that has a value without closing quote. -/
def unterminatedBlock? (line : List Char) : Option (List Char) :=
  let (name, rest) := line.span isNameChar
  let block := Text.skipBlanks rest
  if name.isEmpty || block.head? != some '{' then none
  else match readBlock block with
    | .unterminated _ => some block
    | _ => none

end SampleLine
end MetricGateway
