import MetricGateway.Markup.Dialect
import MetricGateway.Text.Line
import MetricGateway.Text.Hex
import MetricGateway.Number.Decimal

/- JSON: values, the reader, and what values can be taken for. -/
namespace MetricGateway
namespace Markup

/-- A value as far as settings care. A text whose surrogate escapes do not pair is allowed where
    nobody looks at it, so it is a value, but no text. -/
inductive JsonValue where
  | null
  | flag (b : Bool)
  | natural (n : Nat)
  | otherNumber
  | text (t : Option String)
  | list (items : List JsonValue)
  | record (fields : List (Option String × JsonValue))
  deriving Inhabited

namespace Json

def isSpace (c : Char) : Bool := c == ' ' || c == '\n' || c == '\t' || c == '\r'

def skipSpace (text : List Char) : List Char := text.dropWhile isSpace

/-- A character of a text, or half of one: a 16-bit unit from an escape. -/
inductive Piece where
  | char (c : Char)
  | unit (n : Nat)

def simpleEscape? : Char → Option Char
  | '"' => some '"'
  | '\\' => some '\\'
  | '/' => some '/'
  | 'b' => some '\x08'
  | 'f' => some '\x0c'
  | 'n' => some '\n'
  | 'r' => some '\r'
  | 't' => some '\t'
  | _ => none

/-- Pieces up to the closing quote. Control characters have to be escaped. -/
def takePieces? : Nat → List Char → Option (List Piece × List Char)
  | 0, _ => none
  | fuel + 1, text =>
    match text with
    | [] => none
    | '"' :: rest => some ([], rest)
    | '\\' :: 'u' :: rest => do
      let (n, rest) ← Text.takeHexDigits? 4 rest
      let (pieces, rest) ← takePieces? fuel rest
      return (.unit n :: pieces, rest)
    | '\\' :: c :: rest => do
      let d ← simpleEscape? c
      let (pieces, rest) ← takePieces? fuel rest
      return (.char d :: pieces, rest)
    | c :: rest =>
      if c.toNat < 0x20 then none
      else do
        let (pieces, rest) ← takePieces? fuel rest
        return (.char c :: pieces, rest)

/-- Joins surrogate pairs; a surrogate alone makes the text ill-formed. -/
def joinPieces? : List Piece → Option (List Char)
  | [] => some []
  | .char c :: rest => (joinPieces? rest).map (c :: ·)
  | .unit high :: .unit low :: rest =>
    if 0xD800 ≤ high && high < 0xDC00 then
      if 0xDC00 ≤ low && low < 0xE000 then
        (joinPieces? rest).map (Char.ofNat (0x10000 + (high - 0xD800) * 0x400 + (low - 0xDC00)) :: ·)
      else none
    else if 0xDC00 ≤ high && high < 0xE000 then none
    else (joinPieces? (.unit low :: rest)).map (Char.ofNat high :: ·)
  | .unit n :: rest =>
    if 0xD800 ≤ n && n < 0xE000 then none else (joinPieces? rest).map (Char.ofNat n :: ·)

def takeText? (text : List Char) : Option (Option String × List Char) := do
  let (pieces, rest) ← takePieces? (text.length + 1) text
  return ((joinPieces? pieces).map String.ofList, rest)

def takeDigits? (text : List Char) : Option (List Char × List Char) :=
  let (digits, rest) := text.span Char.isDigit
  if digits.isEmpty then none else some (digits, rest)

def takeFraction? : List Char → Option (Bool × List Char)
  | '.' :: rest => do return (true, (← takeDigits? rest).2)
  | rest => some (false, rest)

def takeExponent? : List Char → Option (Bool × List Char)
  | c :: rest =>
    if c == 'e' || c == 'E' then
      let rest := match rest with
        | '+' :: rest | '-' :: rest => rest
        | rest => rest
      do return (true, (← takeDigits? rest).2)
    else some (false, c :: rest)
  | [] => some (false, [])

/-- A number; no zero stands before other digits. -/
def takeNumber? (text : List Char) : Option (JsonValue × List Char) := do
  let (negative, text) := match text with
    | '-' :: rest => (true, rest)
    | rest => (false, rest)
  let (digits, rest) ← match text with
    | '0' :: rest => some (['0'], rest)
    | _ => takeDigits? text
  if digits = ['0'] && rest.head?.any Char.isDigit then none
  else
    let (fraction, rest) ← takeFraction? rest
    let (exponent, rest) ← takeExponent? rest
    let n := Decimal.value digits
    if negative || fraction || exponent || UInt64.size ≤ n then return (.otherNumber, rest)
    else return (.natural n, rest)

mutual

/-- A value and the text behind it. Every call uses up text, so its length is fuel enough. -/
def takeValue? : Nat → List Char → Option (JsonValue × List Char)
  | 0, _ => none
  | fuel + 1, text =>
    match skipSpace text with
    | 'n' :: 'u' :: 'l' :: 'l' :: rest => some (.null, rest)
    | 't' :: 'r' :: 'u' :: 'e' :: rest => some (.flag true, rest)
    | 'f' :: 'a' :: 'l' :: 's' :: 'e' :: rest => some (.flag false, rest)
    | '"' :: rest => (takeText? rest).map fun (t, rest) => (.text t, rest)
    | '[' :: rest =>
      match skipSpace rest with
      | ']' :: rest => some (.list [], rest)
      | rest => (takeItems? fuel rest).map fun (items, rest) => (.list items, rest)
    | '{' :: rest =>
      match skipSpace rest with
      | '}' :: rest => some (.record [], rest)
      | rest => (takeFields? fuel rest).map fun (fields, rest) => (.record fields, rest)
    | rest => takeNumber? rest

def takeItems? : Nat → List Char → Option (List JsonValue × List Char)
  | 0, _ => none
  | fuel + 1, text => do
    let (item, rest) ← takeValue? fuel text
    match skipSpace rest with
    | ',' :: rest =>
      let (items, rest) ← takeItems? fuel rest
      return (item :: items, rest)
    | ']' :: rest => return ([item], rest)
    | _ => none

def takeFields? : Nat → List Char → Option (List (Option String × JsonValue) × List Char)
  | 0, _ => none
  | fuel + 1, text =>
    match skipSpace text with
    | '"' :: rest => do
      let (name, rest) ← takeText? rest
      match skipSpace rest with
      | ':' :: rest =>
        let (value, rest) ← takeValue? fuel rest
        match skipSpace rest with
        | ',' :: rest =>
          let (fields, rest) ← takeFields? fuel rest
          return ((name, value) :: fields, rest)
        | '}' :: rest => return ([(name, value)], rest)
        | _ => none
      | _ => none
    | _ => none

end

def read? (text : String) : Option JsonValue := do
  let (value, rest) ← takeValue? (text.toList.length + 1) text.toList
  guard (skipSpace rest).isEmpty
  return value

def flag? : JsonValue → Option Bool
  | .flag b => some b
  | _ => none

def natural? : JsonValue → Option Nat
  | .natural n => some n
  | _ => none

def text? : JsonValue → Option String
  | .text t => t
  | _ => none

def isNull : JsonValue → Bool
  | .null => true
  | _ => false

def items? : JsonValue → Option (List JsonValue)
  | .list items => some items
  | _ => none

def wellFormedField? (field : Option String × JsonValue) : Option (String × JsonValue) :=
  field.1.map fun name => (name, field.2)

/-- Field names have to be well-formed texts. -/
def record? : JsonValue → Option (Record JsonValue)
  | .record fields => (fields.mapM wellFormedField?).map .named
  | .list items => some (.positional items)
  | _ => none

end Json

def jsonDialect : Dialect JsonValue where
  flag? := Json.flag?
  natural? := Json.natural?
  text? := Json.text?
  null? := fun v => some (Json.isNull v)
  items? := Json.items?
  record? := Json.record?

end Markup
end MetricGateway
