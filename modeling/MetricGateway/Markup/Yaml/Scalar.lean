import MetricGateway.Markup.Yaml.Cursor
import MetricGateway.Text.Hex

/- Texts of YAML: plain words, quoted texts and blocks. What stands between words of several lines
   is folded: one break is a space, of more the first is left out. -/
namespace MetricGateway
namespace Markup
namespace Yaml

inductive ScalarStyle where
  | plain | quoted | literal | folded
  deriving DecidableEq, Repr

/-- Blanks between two words of one line, or breaks between words of two. -/
structure Gap where
  blanks : List Char := []
  breaks : List Char := []

def Gap.text (gap : Gap) : List Char :=
  match gap.breaks with
  | [] => gap.blanks
  | ['\n'] => [' ']
  | '\n' :: more => more
  | breaks => breaks

/-- Passes blanks and breaks. Behind a break no tab stands before the margin. -/
def takeGap? (margin : Nat) : Nat → Bool → Cursor → Option (Gap × Cursor)
  | 0, _, _ => none
  | fuel + 1, broken, c =>
    match c.takeBreak? with
    | some (b, c) =>
      (takeGap? margin fuel true c).map fun (gap, c) => ({ breaks := b :: gap.breaks }, c)
    | none =>
      match c.char? with
      | some x =>
        if !Text.isBlank x then some ({}, c)
        else if broken && x == '\t' && c.column < margin then none
        else (takeGap? margin fuel broken (c.skip 1)).map fun (gap, c) =>
          ({ gap with blanks := x :: gap.blanks }, c)
      | none => some ({}, c)

def isFlowMark (x : Char) : Bool := [',', '[', ']', '{', '}'].contains x

/-- A plain word up to a blank, a break or a mark that ends it. In a flow collection a colon right
    before a mark is an error. -/
def takePlainWord? (inFlow : Bool) : Nat → Cursor → Option (List Char × Cursor)
  | 0, _ => none
  | fuel + 1, c =>
    match c.char? with
    | none => some ([], c)
    | some x =>
      if c.isEdgeAt 0 then some ([], c)
      else if inFlow && x == ':' && (c.rest[1]?).any (fun y => y == '?' || isFlowMark y) then none
      else if (x == ':' && c.isEdgeAt 1) || (inFlow && isFlowMark x) then some ([], c)
      else (takePlainWord? inFlow fuel (c.skip 1)).map fun (word, c) => (x :: word, c)

/-- A plain text whose further lines stand at the margin or behind it, unless in a flow collection.
    Also told is whether a break has been passed behind the last word. -/
def takePlain? (inFlow : Bool) (margin : Nat) : Nat → Bool → Cursor →
    Option (List Char × Bool × Cursor)
  | 0, _, _ => none
  | fuel + 1, broken, c =>
    if c.isAtDocumentMark || c.isAt '#' then some ([], broken, c)
    else do
      let (word, c) ← takePlainWord? inFlow (c.rest.length + 1) c
      if c.rest.isEmpty || !c.isEdgeAt 0 then return (word, broken && word.isEmpty, c)
      else
        let (gap, c) ← takeGap? margin (c.rest.length + 1) false c
        let broken := !gap.breaks.isEmpty
        if !inFlow && c.column < margin then return (word, broken, c)
        else
          let (more, broken, c) ← takePlain? inFlow margin fuel broken c
          return (if more.isEmpty then word else word ++ gap.text ++ more, broken, c)

def simpleEscape? : Char → Option Nat
  | '0' => some 0
  | 'a' => some 0x07
  | 'b' => some 0x08
  | 't' | '\t' => some 0x09
  | 'n' => some 0x0A
  | 'v' => some 0x0B
  | 'f' => some 0x0C
  | 'r' => some 0x0D
  | 'e' => some 0x1B
  | ' ' => some 0x20
  | '"' => some 0x22
  | '/' => some 0x2F
  | '\\' => some 0x5C
  | 'N' => some 0x85
  | '_' => some 0xA0
  | 'L' => some 0x2028
  | 'P' => some 0x2029
  | _ => none

def escapeWidth? : Char → Option Nat
  | 'x' => some 2
  | 'u' => some 4
  | 'U' => some 8
  | _ => none

def takeEscape? (c : Cursor) : Option (Char × Cursor) := do
  let kind ← c.rest[1]?
  match escapeWidth? kind with
  | some width =>
    let (n, _) ← Text.takeHexDigits? width (c.rest.drop 2)
    return (← Text.codePoint? n, c.skip (2 + width))
  | none => return (Char.ofNat (← simpleEscape? kind), c.skip 2)

/-- A word of a quoted text, up to a blank, a break or the quote. Also told is whether it ends in an
    escaped break, which then has been passed. -/
def takeQuotedWord? (quote : Char) : Nat → Cursor → Option (List Char × Bool × Cursor)
  | 0, _ => none
  | fuel + 1, c =>
    match c.char? with
    | none => some ([], false, c)
    | some x =>
      if c.isEdgeAt 0 then some ([], false, c)
      else if x == quote then
        if quote == '\'' && c.rest[1]? == some '\'' then
          (takeQuotedWord? quote fuel (c.skip 2)).map fun (word, r) => ('\'' :: word, r)
        else some ([], false, c)
      else if x == '\\' && quote == '"' then
        match (c.skip 1).takeBreak? with
        | some (_, c) => some ([], true, c)
        | none => do
          let (y, c) ← takeEscape? c
          let (word, r) ← takeQuotedWord? quote fuel c
          return (y :: word, r)
      else (takeQuotedWord? quote fuel (c.skip 1)).map fun (word, r) => (x :: word, r)

/-- A quoted text behind its opening quote. No mark between documents stands in it. -/
def takeQuoted? (quote : Char) : Nat → Cursor → Option (List Char × Cursor)
  | 0, _ => none
  | fuel + 1, c =>
    if c.isAtDocumentMark || c.rest.isEmpty then none
    else do
      let (word, joined, c) ← takeQuotedWord? quote (c.rest.length + 1) c
      if c.isAt quote then return (word, c.skip 1)
      else
        let (gap, c) ← takeGap? 0 (c.rest.length + 1) joined c
        let (more, c) ← takeQuoted? quote fuel c
        return (word ++ (if joined then gap.breaks else gap.text) ++ more, c)

inductive Chomping where
  | strip | clip | keep

def chomping? : Char → Option Chomping
  | '-' => some .strip
  | '+' => some .keep
  | _ => none

def takeChomping? (c : Cursor) : Option (Chomping × Cursor) := do
  return (← chomping? (← c.char?), c.skip 1)

def takeIncrement? (c : Cursor) : Option (Nat × Cursor) := do
  let x ← c.char?
  guard x.isDigit
  return (x.toNat - '0'.toNat, c.skip 1)

/-- What follows the mark of a block: how its end is treated, and how far it is indented if that is
    told, in any order. -/
def takeBlockHeader? (c : Cursor) : Option (Chomping × Nat × Cursor) :=
  let result := match takeChomping? c with
    | some (chomping, c) =>
      match takeIncrement? c with
      | some (n, c) => (chomping, some n, c)
      | none => (chomping, none, c)
    | none =>
      match takeIncrement? c with
      | some (n, c) =>
        match takeChomping? c with
        | some (chomping, c) => (chomping, some n, c)
        | none => (.clip, some n, c)
      | none => (.clip, none, c)
  match result with
  | (_, some 0, _) => none
  | (chomping, n, c) =>
    let c := c.skipLineTail
    match c.takeBreak? with
    | some (_, c) => some (chomping, n.getD 0, c)
    | none => if c.rest.isEmpty then some (chomping, n.getD 0, c) else none

def skipIndent (column : Nat) (c : Cursor) : Cursor :=
  let spaces := (c.rest.takeWhile (· == ' ')).length
  c.skip (if column = 0 then spaces else min spaces (column - c.column))

/-- Passes the indentation, and lines that are nothing but indentation. Told are the breaks and the
    deepest column reached. Where text could be indented no tab stands. -/
def takeEmptyLines? (column : Nat) : Nat → Nat → Cursor → Option (List Char × Nat × Cursor)
  | 0, _, _ => none
  | fuel + 1, deepest, c =>
    let c := skipIndent column c
    let deepest := max deepest c.column
    if (column = 0 || c.column < column) && c.isAt '\t' then none
    else match c.takeBreak? with
      | some (b, c) => (takeEmptyLines? column fuel deepest c).map fun (breaks, r) => (b :: breaks, r)
      | none => some ([], deepest, c)

/-- The lines of a block from a column on. `lastBreak` ends the line before; `breaks` end empty lines
    behind it; `blank` tells that the line before began with a blank. Lines that begin so are not
    folded. -/
def takeLines? (literal : Bool) (chomping : Chomping) (column : Nat) : Nat → List Char → List Char →
    Bool → Cursor → Option (List Char × Cursor)
  | 0, _, _, _, _ => none
  | fuel + 1, lastBreak, breaks, blank, c =>
    if c.column = column && !c.rest.isEmpty then do
      let blankNow := c.isBlankAt 0
      let joint :=
        if !literal && lastBreak == ['\n'] && !blank && !blankNow then
          if breaks.isEmpty then [' '] else []
        else lastBreak
      let body := c.rest.takeWhile fun x => !isBreak x
      let c := c.skip body.length
      let (ending, c) := match c.takeBreak? with
        | some (b, c) => ([b], c)
        | none => ([], c)
      let (empty, _, c) ← takeEmptyLines? column (c.rest.length + 1) 0 c
      let (more, c) ← takeLines? literal chomping column fuel ending empty blankNow c
      return (joint ++ breaks ++ body ++ more, c)
    else match chomping with
      | .strip => some ([], c)
      | .clip => some (lastBreak, c)
      | .keep => some (lastBreak ++ breaks, c)

/-- A block behind its mark. Its column is counted from the collection around it, or else is that of
    its first line, but not before the margin. -/
def takeBlock? (literal : Bool) (margin : Nat) (c : Cursor) : Option (List Char × Cursor) := do
  let (chomping, increment, c) ← takeBlockHeader? c
  let told := if increment = 0 then 0 else margin - 1 + increment
  let (breaks, deepest, c) ← takeEmptyLines? told (c.rest.length + 1) 0 c
  let column := if told = 0 then max (max deepest margin) 1 else told
  takeLines? literal chomping column (c.rest.length + 1) [] breaks false c

end Yaml
end Markup
end MetricGateway
