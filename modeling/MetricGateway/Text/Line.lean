/- Lines, blanks and trimmed ends of text. Only space and tab are blank in an exposition line. -/
namespace MetricGateway
namespace Text

def isBlank (c : Char) : Bool := c == ' ' || c == '\t'

def isLineEnding (c : Char) : Bool := c == '\r' || c == '\n'

def isAlphanumeric (c : Char) : Bool := c.isAlpha || c.isDigit

def skipBlanks (text : List Char) : List Char := text.dropWhile isBlank

def dropEndWhile (p : Char → Bool) (text : List Char) : List Char :=
  (text.reverse.dropWhile p).reverse

/-- The pieces between line feeds; there is always one more piece than line feeds. -/
def splitLines : List Char → List (List Char)
  | [] => [[]]
  | c :: rest =>
    if c = '\n' then [] :: splitLines rest
    else match splitLines rest with
      | [] => [[c]]
      | line :: lines => (c :: line) :: lines

def dropReturn (line : List Char) : List Char :=
  if line.getLast? = some '\r' then line.dropLast else line

def lines (text : List Char) : List (List Char) := (splitLines text).map dropReturn

def beforeEnd? (tail text : List Char) : Option (List Char) :=
  if tail.isSuffixOf text then some (text.take (text.length - tail.length)) else none

def afterStart? : List Char → List Char → Option (List Char)
  | [], text => some text
  | _ :: _, [] => none
  | c :: start, d :: text => if c = d then afterStart? start text else none

def afterLast? (mark : Char) (text : List Char) : Option (List Char) :=
  if mark ∈ text then some (text.reverse.takeWhile (· != mark)).reverse else none

def splitLast? (mark : Char) (text : List Char) : Option (List Char × List Char) :=
  if mark ∈ text then
    let tail := (text.reverse.takeWhile (· != mark)).reverse
    some (text.take (text.length - tail.length - 1), tail)
  else none

/-- White space of every script, as of the Unicode property of that name. -/
def isWhiteSpace (c : Char) : Bool :=
  let n := c.toNat
  (9 ≤ n && n ≤ 13) || n = 32 || n = 0x85 || n = 0xA0 || n = 0x1680 ||
    (0x2000 ≤ n && n ≤ 0x200A) || n = 0x2028 || n = 0x2029 || n = 0x202F || n = 0x205F || n = 0x3000

end Text
end MetricGateway
