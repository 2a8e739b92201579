import MetricGateway.Markup.Yaml.Plain

/- A place in a YAML text, and the steps from it. -/
namespace MetricGateway
namespace Markup
namespace Yaml

structure Cursor where
  rest : List Char
  index : Nat := 0
  line : Nat := 0
  column : Nat := 0

namespace Cursor

def char? (c : Cursor) : Option Char := c.rest.head?

def isAt (c : Cursor) (x : Char) : Bool := c.char? == some x

def isBlankAt (c : Cursor) (ahead : Nat) : Bool := (c.rest[ahead]?).any Text.isBlank

def isEdgeAt (c : Cursor) (ahead : Nat) : Bool :=
  (c.rest[ahead]?).all fun x => Text.isBlank x || isBreak x

def isLineEnd (c : Cursor) : Bool := c.char?.all isBreak

def skip (n : Nat) (c : Cursor) : Cursor :=
  { c with rest := c.rest.drop n, index := c.index + n, column := c.column + n }

def skipWhile (p : Char → Bool) (c : Cursor) : Cursor := c.skip (c.rest.takeWhile p).length

/-- Passes one break; CR LF is one. In a text a break counts as a line feed, but the separators of
    lines and paragraphs stay what they are. -/
def takeBreak? (c : Cursor) : Option (Char × Cursor) :=
  match c.rest with
  | '\r' :: '\n' :: rest => some ('\n', ⟨rest, c.index + 2, c.line + 1, 0⟩)
  | x :: rest =>
    if isBreak x then
      some (if x.toNat < 0x2028 then '\n' else x, ⟨rest, c.index + 1, c.line + 1, 0⟩)
    else none
  | [] => none

def isAtMark (c : Cursor) (mark : List Char) : Bool :=
  c.column = 0 && mark.isPrefixOf c.rest && c.isEdgeAt mark.length

def isAtDocumentMark (c : Cursor) : Bool := c.isAtMark ['-', '-', '-'] || c.isAtMark ['.', '.', '.']

def skipLineTail (c : Cursor) : Cursor :=
  let c := c.skipWhile Text.isBlank
  if c.isAt '#' then c.skipWhile fun x => !isBreak x else c

end Cursor
end Yaml
end Markup
end MetricGateway
