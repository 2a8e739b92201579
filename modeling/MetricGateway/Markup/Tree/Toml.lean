import MetricGateway.Markup.Tree

/- Trees as TOML text. Null fields are left out; records become tables. -/
namespace MetricGateway
namespace Markup
namespace Tree

def isControl (c : Char) : Bool := c.toNat < 0x20 || c.toNat = 0x7F

def hasTripleQuote : List Char → Bool
  | '\'' :: '\'' :: '\'' :: _ => true
  | _ :: rest => hasTripleQuote rest
  | [] => false

/-- Whether a literal string can hold the text: no control character but tab and line feed, no
    three single quotes in a row, none at the end. -/
def fitsLiteral (text : List Char) : Bool :=
  text.all (fun c => c == '\t' || c == '\n' || !isControl c) &&
    !hasTripleQuote text && text.getLast? != some '\''

def tomlEscape (multiline : Bool) (c : Char) : List Char :=
  if c = '\x08' then ['\\', 'b']
  else if c = '\t' then ['\\', 't']
  else if c = '\n' then (if multiline then ['\n'] else ['\\', 'n'])
  else if c = '\x0c' then ['\\', 'f']
  else if c = '\r' then ['\\', 'r']
  else if c = '"' then ['\\', '"']
  else if c = '\\' then ['\\', '\\']
  else if isControl c then '\\' :: 'u' :: hex 4 c.toNat
  else [c]

def tripleSingle : List Char := ['\'', '\'', '\'']

def tripleDouble : List Char := ['"', '"', '"']

/-- The quoting that needs the least: literal where it can hold the text, triple quotes for a
    text of several lines or with a single quote inside. -/
def tomlText (t : String) : List Char :=
  let text := t.toList
  let multiline := text.contains '\n'
  if fitsLiteral text then
    if multiline then tripleSingle ++ '\n' :: (text ++ tripleSingle)
    else if text.contains '\'' then tripleSingle ++ text ++ tripleSingle
    else '\'' :: (text ++ ['\''])
  else
    let body := text.flatMap (tomlEscape multiline)
    if multiline then tripleDouble ++ '\n' :: (body ++ tripleDouble) else '"' :: (body ++ ['"'])

def tomlScalar? : Tree → Option (List Char)
  | .flag b => some (if b then "true" else "false").toList
  | .natural n => some (Nat.toDigits 10 n)
  | .text t => some (tomlText t)
  | .list [] => some "[]".toList
  | .null | .list _ | .record _ => none

def tomlLine (name : String) (t : Tree) : List Char :=
  match tomlScalar? t with
  | some value => name.toList ++ " = ".toList ++ value ++ ['\n']
  | none => []

def tablePath (path : List String) : List Char :=
  List.intercalate ['.'] (path.map String.toList)

mutual

def tomlTables (path : List String) : List (String × Tree) → List Char
  | [] => []
  | (name, .record fields) :: rest =>
    '\n' :: '[' :: (tablePath (path ++ [name]) ++ ']' :: '\n' ::
      (fields.flatMap (fun f => tomlLine f.1 f.2) ++ tomlTables (path ++ [name]) fields)) ++
    tomlTables path rest
  | (name, .list items) :: rest => tomlArray (path ++ [name]) items ++ tomlTables path rest
  | _ :: rest => tomlTables path rest

def tomlArray (path : List String) : List Tree → List Char
  | [] => []
  | .record fields :: rest =>
    '\n' :: '[' :: '[' :: (tablePath path ++ ']' :: ']' :: '\n' ::
      (fields.flatMap (fun f => tomlLine f.1 f.2) ++ tomlTables path fields)) ++
    tomlArray path rest
  | _ :: rest => tomlArray path rest

end

/-- A record as a document: plain values first, tables behind them. -/
def toml : Tree → List Char
  | .record fields =>
    let lines := fields.flatMap fun f => tomlLine f.1 f.2
    let tables := tomlTables [] fields
    if lines.isEmpty then tables.drop 1 else lines ++ tables
  | _ => []

end Tree
end Markup
end MetricGateway
