import MetricGateway.Markup.Tree
import MetricGateway.Markup.Yaml.Plain

/- Trees as YAML text in block style. A text is written plain where that reads back as the same
   text, else quoted, or as a literal block if it has line feeds. -/
namespace MetricGateway
namespace Markup
namespace Tree

open Yaml (isBreak isPrintable)

inductive TextStyle where
  | plain | singleQuoted | doubleQuoted | literal
  deriving DecidableEq, Repr

def neighbours (text : List Char) : List (Char × Char) := text.zip (text.drop 1)

def startsDocument (text : List Char) : Bool :=
  ['-', '-', '-'].isPrefixOf text || ['.', '.', '.'].isPrefixOf text

def isGap (c : Option Char) : Bool := c.all fun c => c == ' ' || c == '\t' || isBreak c

def firstIndicates (text : List Char) : Bool :=
  match text with
  | [] => false
  | c :: rest =>
    "#,[]\x7b\x7d&*!|>'\"%@`".toList.contains c || ((c == '?' || c == ':' || c == '-') && isGap rest.head?)

def innerIndicates : List Char → Bool
  | [] => false
  | [_] => false
  | c :: d :: rest =>
    (d == ':' && isGap rest.head?) || (d == '#' && isGap (some c)) || innerIndicates (d :: rest)

def hasSpecial (text : List Char) : Bool := text.any fun c => !isPrintable c

def spaceThenBreak (text : List Char) : Bool := (neighbours text).any fun p => p.1 == ' ' && isBreak p.2

def breakThenSpace (text : List Char) : Bool := (neighbours text).any fun p => isBreak p.1 && p.2 == ' '

def allowsPlain (text : List Char) : Bool :=
  !(startsDocument text || firstIndicates text || innerIndicates text || text.any isBreak ||
    hasSpecial text || text.head? == some ' ' || text.getLast? == some ' ')

def allowsSingleQuotes (text : List Char) : Bool :=
  !(spaceThenBreak text || breakThenSpace text || hasSpecial text)

def allowsBlock (text : List Char) : Bool :=
  !(text.isEmpty || text.getLast? == some ' ' || spaceThenBreak text || hasSpecial text)

def textStyle (text : List Char) : TextStyle :=
  if text.contains '\n' then (if allowsBlock text then .literal else .doubleQuoted)
  else if !Yaml.looksTyped text && allowsPlain text then .plain
  else if allowsSingleQuotes text then .singleQuoted
  else .doubleQuoted

/-- Single quotes are doubled. Behind a line break the next line is indented. -/
def singleQuotedBody (indent : Nat) : Bool → List Char → List Char
  | _, [] => []
  | afterBreak, c :: rest =>
    if isBreak c then c :: singleQuotedBody indent true rest
    else
      (if afterBreak && c ≠ ' ' then List.replicate indent ' ' else []) ++
      (if c = '\'' then ['\'', '\''] else [c]) ++
      singleQuotedBody indent (afterBreak && c = ' ') rest

def yamlEscape (c : Char) : List Char :=
  if c = '"' then ['\\', '"']
  else if c = '\\' then ['\\', '\\']
  else if isPrintable c && !isBreak c then [c]
  else match c.toNat with
    | 0 => ['\\', '0']
    | 0x07 => ['\\', 'a']
    | 0x08 => ['\\', 'b']
    | 0x09 => ['\\', 't']
    | 0x0A => ['\\', 'n']
    | 0x0B => ['\\', 'v']
    | 0x0C => ['\\', 'f']
    | 0x0D => ['\\', 'r']
    | 0x1B => ['\\', 'e']
    | 0x85 => ['\\', 'N']
    | 0x2028 => ['\\', 'L']
    | 0x2029 => ['\\', 'P']
    | n =>
      if n ≤ 0xFF then '\\' :: 'x' :: hex 2 n
      else if n ≤ 0xFFFF then '\\' :: 'u' :: hex 4 n
      else '\\' :: 'U' :: hex 8 n

/-- The header of a literal block: an indent if the text begins with a space or a break, then how
    its end is kept. -/
def literalHeader (text : List Char) : List Char :=
  let indent := if text.head?.any fun c => c == ' ' || isBreak c then ['2'] else []
  let ending := match text.reverse with
    | [] => ['-']
    | last :: before =>
      if !isBreak last then ['-']
      else match before with
        | [] => ['+']
        | c :: _ => if isBreak c then ['+'] else []
  '|' :: (indent ++ ending)

def literalBody (indent : Nat) : Bool → List Char → List Char
  | _, [] => []
  | afterBreak, c :: rest =>
    if isBreak c then c :: literalBody indent true rest
    else (if afterBreak then List.replicate indent ' ' else []) ++ c :: literalBody indent false rest

/-- A text and the line feed behind it; `indent` is for lines after the first. -/
def yamlText (indent : Nat) (t : String) : List Char :=
  let text := t.toList
  match textStyle text with
  | .plain => text ++ ['\n']
  | .singleQuoted => '\'' :: (singleQuotedBody indent false text ++ ['\'', '\n'])
  | .doubleQuoted => '"' :: (text.flatMap yamlEscape ++ ['"', '\n'])
  | .literal =>
    literalHeader text ++ '\n' :: (literalBody indent true text ++
      (if text.getLast?.any isBreak then [] else ['\n']))

mutual

def yamlValue (indent : Nat) : Tree → List Char
  | .null => " null\n".toList
  | .flag b => (if b then " true\n" else " false\n").toList
  | .natural n => ' ' :: (Nat.toDigits 10 n ++ ['\n'])
  | .text t => ' ' :: yamlText (indent + 2) t
  | .list [] => " []\n".toList
  | .record [] => " \x7b\x7d\n".toList
  | .list items => '\n' :: yamlItems indent items
  | .record fields => '\n' :: yamlFields (indent + 2) fields

def yamlFields (indent : Nat) : List (String × Tree) → List Char
  | [] => []
  | (name, t) :: rest =>
    List.replicate indent ' ' ++ name.toList ++ ':' :: yamlValue indent t ++ yamlFields indent rest

/-- Items of a list; the first field of a record stands behind the dash. -/
def yamlItems (indent : Nat) : List Tree → List Char
  | [] => []
  | .record (field :: fields) :: rest =>
    List.replicate indent ' ' ++ '-' :: ' ' ::
      ((yamlFields (indent + 2) (field :: fields)).drop (indent + 2) ++ yamlItems indent rest)
  | t :: rest => List.replicate indent ' ' ++ '-' :: (yamlValue indent t ++ yamlItems indent rest)

end

def yaml : Tree → List Char
  | .list (item :: items) => yamlItems 0 (item :: items)
  | .record (field :: fields) => yamlFields 0 (field :: fields)
  | t => (yamlValue 0 t).drop 1

end Tree
end Markup
end MetricGateway
