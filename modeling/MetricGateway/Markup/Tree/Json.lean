import MetricGateway.Markup.Tree

/- Trees as JSON text, on one line or on many. -/
namespace MetricGateway
namespace Markup
namespace Tree

def jsonChar (c : Char) : List Char :=
  if c = '"' then ['\\', '"']
  else if c = '\\' then ['\\', '\\']
  else if c = '\x08' then ['\\', 'b']
  else if c = '\x0c' then ['\\', 'f']
  else if c = '\n' then ['\\', 'n']
  else if c = '\r' then ['\\', 'r']
  else if c = '\t' then ['\\', 't']
  else if c.toNat < 0x20 then '\\' :: 'u' :: (hex 4 c.toNat).map Char.toLower
  else [c]

def jsonText (t : String) : List Char := '"' :: (t.toList.flatMap jsonChar ++ ['"'])

def jsonScalar : Tree → List Char
  | .null => "null".toList
  | .flag b => (if b then "true" else "false").toList
  | .natural n => Nat.toDigits 10 n
  | .text t => jsonText t
  | .list _ => "[]".toList
  | .record _ => "\x7b\x7d".toList

mutual

def compactJson : Tree → List Char
  | .list items => '[' :: (compactItems items ++ [']'])
  | .record fields => '{' :: (compactFields fields ++ ['}'])
  | t => jsonScalar t

def compactItems : List Tree → List Char
  | [] => []
  | [t] => compactJson t
  | t :: rest => compactJson t ++ ',' :: compactItems rest

def compactFields : List (String × Tree) → List Char
  | [] => []
  | [(name, t)] => jsonText name ++ ':' :: compactJson t
  | (name, t) :: rest => jsonText name ++ ':' :: (compactJson t ++ ',' :: compactFields rest)

end

def newLine (indent : Nat) : List Char := '\n' :: List.replicate indent ' '

mutual

/-- A tree with one item or field a line; empty lists and records stay on theirs. -/
def prettyJson (indent : Nat) : Tree → List Char
  | .list [] => jsonScalar (.list [])
  | .record [] => jsonScalar (.record [])
  | .list items => '[' :: (prettyItems (indent + 2) items ++ newLine indent ++ [']'])
  | .record fields => '{' :: (prettyFields (indent + 2) fields ++ newLine indent ++ ['}'])
  | t => jsonScalar t

def prettyItems (indent : Nat) : List Tree → List Char
  | [] => []
  | [t] => newLine indent ++ prettyJson indent t
  | t :: rest => newLine indent ++ prettyJson indent t ++ ',' :: prettyItems indent rest

def prettyFields (indent : Nat) : List (String × Tree) → List Char
  | [] => []
  | [(name, t)] => newLine indent ++ jsonText name ++ ':' :: ' ' :: prettyJson indent t
  | (name, t) :: rest =>
    newLine indent ++ jsonText name ++ ':' :: ' ' ::
      (prettyJson indent t ++ ',' :: prettyFields indent rest)

end

end Tree
end Markup
end MetricGateway
