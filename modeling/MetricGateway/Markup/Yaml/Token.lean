import MetricGateway.Markup.Yaml.Scalar

/- The tokens of a YAML text. Collections written by indentation get brackets of their own, and a
   token before a colon is found to be a key only when the colon comes: the mark of the key is then
   put in before it. -/
namespace MetricGateway
namespace Markup
namespace Yaml

inductive Token where
  | version (major minor : Nat)
  | handle (name : String) (expansion : String)
  | documentStart
  | documentEnd
  | blockListStart
  | blockRecordStart
  | blockEnd
  | flowListStart
  | flowListEnd
  | flowRecordStart
  | flowRecordEnd
  | item
  | comma
  | key
  | value
  | alias (name : String)
  | anchor (name : String)
  | tag (handle suffix : String)
  | scalar (style : ScalarStyle) (text : String)
  deriving DecidableEq, Repr, Inhabited

/-- A token that is a key if a colon follows on its line, not more than 1024 characters on. -/
structure PossibleKey where
  place : Nat
  /-- It begins a line of the open collection, so that nothing else can be meant. -/
  required : Bool
  start : Cursor

structure Lexer where
  at_ : Cursor
  tokens : Array Token := #[]
  margin : Nat := 0
  outerMargins : List Nat := []
  keyAllowed : Bool := true
  key : Option PossibleKey := none
  /-- The possible keys around the open flow collections, the innermost first. -/
  outerKeys : List (Option PossibleKey) := []

namespace Lexer

def inFlow (l : Lexer) : Bool := !l.outerKeys.isEmpty

def push (t : Token) (l : Lexer) : Lexer := { l with tokens := l.tokens.push t }

def insert (place : Nat) (t : Token) (l : Lexer) : Lexer :=
  { l with tokens := l.tokens.extract 0 place ++ #[t] ++ l.tokens.extract place l.tokens.size }

def skip (n : Nat) (l : Lexer) : Lexer := { l with at_ := l.at_.skip n }

def unroll (margin : Nat) (l : Lexer) : Lexer :=
  if l.inFlow then l
  else
    let margins := l.margin :: l.outerMargins
    let left := margins.dropWhile (margin < ·)
    { l with
      margin := left.headD 0
      outerMargins := left.tail
      tokens := l.tokens ++ List.replicate (margins.length - left.length) Token.blockEnd }

/-- Opens a collection at a column, if none is open there; its bracket goes before the token of a
    place. -/
def roll (column place : Nat) (t : Token) (l : Lexer) : Lexer :=
  if l.inFlow || column < l.margin then l
  else { l.insert place t with margin := column + 1, outerMargins := l.margin :: l.outerMargins }

def dropKey? (l : Lexer) : Option Lexer :=
  if l.key.any (·.required) then none else some { l with key := none }

def saveKey? (l : Lexer) : Option Lexer :=
  if l.keyAllowed then do
    let l ← l.dropKey?
    return { l with key := some {
      place := l.tokens.size
      required := !l.inFlow && l.margin = l.at_.column + 1
      start := l.at_ } }
  else some l

def current? (here : Cursor) : Option PossibleKey → Option (Option PossibleKey)
  | none => some none
  | some k =>
    if k.start.line < here.line || k.start.index + 1024 < here.index then
      if k.required then none else some none
    else some (some k)

def dropStale? (l : Lexer) : Option Lexer := do
  return { l with
    key := ← current? l.at_ l.key
    outerKeys := ← l.outerKeys.mapM (current? l.at_) }

/-- Passes blanks, comments and breaks. Behind a break a key may begin, but not after a tab. -/
def skipSpace (inFlow : Bool) : Nat → Bool → Cursor → Bool × Cursor
  | 0, keyAllowed, c => (keyAllowed, c)
  | fuel + 1, keyAllowed, c =>
    let c := if c.column = 0 && c.isAt '\ufeff' then c.skip 1 else c
    let c := c.skipWhile fun x => x == ' ' || (x == '\t' && (inFlow || !keyAllowed))
    let c := if c.isAt '#' then c.skipWhile fun x => !isBreak x else c
    match c.takeBreak? with
    | some (_, c) => skipSpace inFlow fuel (keyAllowed || !inFlow) c
    | none => (keyAllowed, c)

def toNext (l : Lexer) : Lexer :=
  let (keyAllowed, c) := skipSpace l.inFlow (l.at_.rest.length + 1) l.keyAllowed l.at_
  { l with keyAllowed, at_ := c }

def isNameChar (c : Char) : Bool := Text.isAlphanumeric c || c == '_' || c == '-'

def isUriChar (verbatim : Bool) (c : Char) : Bool :=
  isNameChar c || ";/?:@&=+$.%!~*'()".toList.contains c || (verbatim && [',', '[', ']'].contains c)

def takeUriEscape? : Nat → ByteArray → Cursor → Option (Char × Cursor)
  | 0, _, _ => none
  | fuel + 1, bytes, c => do
    guard (c.isAt '%')
    let (n, _) ← Text.takeHexDigits? 2 (c.rest.drop 1)
    let bytes := bytes.push n.toUInt8
    match (String.fromUTF8? bytes).map String.toList with
    | some [x] => return (x, c.skip 3)
    | _ => takeUriEscape? fuel bytes (c.skip 3)

def takeUri? (verbatim : Bool) : Nat → Cursor → Option (List Char × Cursor)
  | 0, _ => none
  | fuel + 1, c =>
    match c.char? with
    | some x =>
      if !isUriChar verbatim x then some ([], c)
      else do
        let (x, c) ← if x == '%' then takeUriEscape? 4 .empty c else some (x, c.skip 1)
        let (more, c) ← takeUri? verbatim fuel c
        return (x :: more, c)
    | none => some ([], c)

def takeHandle? (c : Cursor) : Option (List Char × Cursor) := do
  guard (c.isAt '!')
  let name := (c.rest.drop 1).takeWhile isNameChar
  let c := c.skip (1 + name.length)
  if c.isAt '!' then return ('!' :: name ++ ['!'], c.skip 1) else return ('!' :: name, c)

def takeUriOf? (verbatim : Bool) (c : Cursor) : Option (List Char × Cursor) := do
  let (uri, c) ← takeUri? verbatim (c.rest.length + 1) c
  guard !uri.isEmpty
  return (uri, c)

def takeTag? (inFlow : Bool) (c : Cursor) : Option (Token × Cursor) := do
  let (t, c) ←
    if c.rest[1]? == some '<' then do
      let (uri, c) ← takeUriOf? true (c.skip 2)
      guard (c.isAt '>')
      some (Token.tag "" (String.ofList uri), c.skip 1)
    else do
      let (handle, c) ← takeHandle? c
      if 1 < handle.length && handle.getLast? = some '!' then do
        let (uri, c) ← takeUriOf? false c
        some (Token.tag (String.ofList handle) (String.ofList uri), c)
      else do
        let (uri, c) ← takeUri? false (c.rest.length + 1) c
        let suffix := handle.tail ++ uri
        some (if suffix.isEmpty then Token.tag "" "!" else Token.tag "!" (String.ofList suffix), c)
  guard (c.isEdgeAt 0 || (inFlow && c.isAt ','))
  return (t, c)

def takeAnchor? (c : Cursor) : Option (String × Cursor) := do
  let name := (c.rest.drop 1).takeWhile isNameChar
  let c := c.skip (1 + name.length)
  guard (!name.isEmpty && (c.isEdgeAt 0 || c.char?.any fun x => "?:,]\x7d%@\x60".toList.contains x))
  return (String.ofList name, c)

def takeVersionPart? (c : Cursor) : Option (Nat × Cursor) := do
  let digits := c.rest.takeWhile Char.isDigit
  guard (!digits.isEmpty && digits.length ≤ 9)
  return (Decimal.value digits, c.skip digits.length)

def takeDirective? (c : Cursor) : Option (Token × Cursor) := do
  let name := (c.rest.drop 1).takeWhile isNameChar
  let c := c.skip (1 + name.length)
  guard (c.isEdgeAt 0)
  let c := c.skipWhile Text.isBlank
  let (t, c) ←
    if name = ['Y', 'A', 'M', 'L'] then do
      let (major, c) ← takeVersionPart? c
      guard (c.isAt '.')
      let (minor, c) ← takeVersionPart? (c.skip 1)
      some (Token.version major minor, c)
    else if name = ['T', 'A', 'G'] then do
      let (handle, c) ← takeHandle? c
      guard (handle.length = 1 || handle.getLast? = some '!')
      guard (c.isBlankAt 0)
      let (uri, c) ← takeUriOf? true (c.skipWhile Text.isBlank)
      guard (c.isEdgeAt 0)
      some (Token.handle (String.ofList handle) (String.ofList uri), c)
    else none
  let c := c.skipLineTail
  guard c.isLineEnd
  return (t, ((c.takeBreak?).map Prod.snd).getD c)

/-- A directive or a mark between documents: no collection stays open before it. -/
def betweenDocuments? (l : Lexer) (next : Cursor → Option (Token × Cursor)) : Option Lexer := do
  let l ← (l.unroll 0).dropKey?
  let (t, c) ← next l.at_
  return { l.push t with at_ := c, keyAllowed := false }

def openFlow? (t : Token) (l : Lexer) : Option Lexer := do
  let l ← l.saveKey?
  return { l.push t |>.skip 1 with key := none, outerKeys := l.key :: l.outerKeys, keyAllowed := true }

def closeFlow? (t : Token) (l : Lexer) : Option Lexer := do
  let l ← l.dropKey?
  let l := match l.outerKeys with
    | [] => l
    | k :: outer => { l with key := k, outerKeys := outer }
  return { l.push t |>.skip 1 with keyAllowed := false }

def comma? (l : Lexer) : Option Lexer := do
  let l ← l.dropKey?
  return { l.push .comma |>.skip 1 with keyAllowed := true }

def item? (l : Lexer) : Option Lexer := do
  guard (l.inFlow || l.keyAllowed)
  let l ← (l.roll l.at_.column l.tokens.size .blockListStart).dropKey?
  return { l.push .item |>.skip 1 with keyAllowed := true }

def key? (l : Lexer) : Option Lexer := do
  guard (l.inFlow || l.keyAllowed)
  let l ← (l.roll l.at_.column l.tokens.size .blockRecordStart).dropKey?
  return { l.push .key |>.skip 1 with keyAllowed := !l.inFlow }

/-- The colon of a value. What was a possible key is one. -/
def value? (l : Lexer) : Option Lexer :=
  match l.key with
  | some k =>
    let l := (l.insert k.place .key).roll k.start.column k.place .blockRecordStart
    some { l.push .value |>.skip 1 with key := none, keyAllowed := false }
  | none => do
    guard (l.inFlow || l.keyAllowed)
    let l := l.roll l.at_.column l.tokens.size .blockRecordStart
    return { l.push .value |>.skip 1 with keyAllowed := !l.inFlow }

def node? (l : Lexer) (next : Cursor → Option (Token × Cursor)) : Option Lexer := do
  let l ← l.saveKey?
  let (t, c) ← next l.at_
  return { l.push t with at_ := c, keyAllowed := false }

def block? (literal : Bool) (l : Lexer) : Option Lexer := do
  let l ← l.dropKey?
  let (text, c) ← takeBlock? literal l.margin (l.at_.skip 1)
  let style := if literal then ScalarStyle.literal else .folded
  return { l.push (.scalar style (String.ofList text)) with at_ := c, keyAllowed := true }

/-- A plain text; if it ends behind a break, a key may follow. -/
def plain? (l : Lexer) : Option Lexer := do
  let l ← l.saveKey?
  let (text, broken, c) ← takePlain? l.inFlow l.margin (l.at_.rest.length + 1) false l.at_
  return { l.push (.scalar .plain (String.ofList text)) with at_ := c, keyAllowed := broken }

def quoted? (quote : Char) (c : Cursor) : Option (Token × Cursor) :=
  (takeQuoted? quote (c.rest.length + 1) (c.skip 1)).map fun (text, c) =>
    (.scalar .quoted (String.ofList text), c)

/-- Whether a plain text may begin here; marks may begin one if a character follows. -/
def startsPlain (l : Lexer) (x : Char) : Bool :=
  if x == '-' then !l.at_.isBlankAt 1
  else if x == '?' || x == ':' then !l.inFlow && !l.at_.isEdgeAt 1
  else !",[]\x7b\x7d#&*!|>'\"%@\x60".toList.contains x && !l.at_.isEdgeAt 0

def next? (x : Char) (l : Lexer) : Option Lexer :=
  let c := l.at_
  if c.column = 0 && x == '%' then l.betweenDocuments? takeDirective?
  else if c.isAtMark ['-', '-', '-'] then l.betweenDocuments? fun c => some (.documentStart, c.skip 3)
  else if c.isAtMark ['.', '.', '.'] then l.betweenDocuments? fun c => some (.documentEnd, c.skip 3)
  else if x == '[' then l.openFlow? .flowListStart
  else if x == '\x7b' then l.openFlow? .flowRecordStart
  else if x == ']' then l.closeFlow? .flowListEnd
  else if x == '\x7d' then l.closeFlow? .flowRecordEnd
  else if x == ',' then l.comma?
  else if x == '-' && c.isEdgeAt 1 then l.item?
  else if x == '?' && (l.inFlow || c.isEdgeAt 1) then l.key?
  else if x == ':' && (l.inFlow || c.isEdgeAt 1) then l.value?
  else if x == '*' then l.node? fun c => (takeAnchor? c).map fun (name, c) => (.alias name, c)
  else if x == '&' then l.node? fun c => (takeAnchor? c).map fun (name, c) => (.anchor name, c)
  else if x == '!' then l.node? (takeTag? l.inFlow)
  else if x == '|' && !l.inFlow then l.block? true
  else if x == '>' && !l.inFlow then l.block? false
  else if x == '\'' || x == '"' then l.node? (quoted? x)
  else if l.startsPlain x then l.plain?
  else none

/-- All tokens from here on. Each takes at least one character. -/
def run? : Nat → Lexer → Option (List Token)
  | 0, _ => none
  | fuel + 1, l => do
    let l := l.toNext
    let l ← l.dropStale?
    let l := l.unroll (l.at_.column + 1)
    match l.at_.char? with
    | none => return (← (l.unroll 0).dropKey?).tokens.toList
    | some x => run? fuel (← l.next? x)

end Lexer

def isAllowed (c : Char) : Bool :=
  let n := c.toNat
  n = 0x09 || n = 0x0A || n = 0x0D || (0x20 ≤ n && n ≤ 0x7E) || n = 0x85 ||
    (0xA0 ≤ n && n ≠ 0xFFFE && n ≠ 0xFFFF)

def tokens? (text : String) : Option (List Token) :=
  let chars := text.toList
  if chars.all isAllowed then Lexer.run? (chars.length + 1) { at_ := { rest := chars } } else none

end Yaml
end Markup
end MetricGateway
