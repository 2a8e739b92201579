import MetricGateway.Markup.Json

/- TOML values and keys as they stand in a document, read from characters. Line ends are single
   line feeds here. -/
namespace MetricGateway
namespace Markup

inductive TomlValue where
  | text (t : String)
  | natural (n : Nat)
  | flag (b : Bool)
  /-- Numbers that no setting takes, dates and times. -/
  | other
  | list (items : List TomlValue)
  | table (dotted : Bool) (fields : List (String × TomlValue))
  deriving Inhabited

namespace Toml

def isWordChar (c : Char) : Bool := Text.isAlphanumeric c || c == '-' || c == '_'

def takeWord? (text : List Char) : Option (List Char × List Char) :=
  let (word, rest) := text.span isWordChar
  if word.isEmpty then none else some (word, rest)

def isTextChar (c : Char) : Bool := c == '\t' || (0x20 ≤ c.toNat && c.toNat ≠ 0x7F)

def simpleEscape? : Char → Option Char
  | '"' => some '"'
  | '\\' => some '\\'
  | 'b' => some '\x08'
  | 'f' => some '\x0c'
  | 'n' => some '\n'
  | 'r' => some '\r'
  | 't' => some '\t'
  | _ => none

/-- Behind a backslash at a line's end: nothing but blanks up to the line feed, and then all blanks
    and line feeds, are left out. -/
def skipLineEnd? (text : List Char) : Option (List Char) :=
  match text.dropWhile (fun c => c == ' ' || c == '\t') with
  | '\n' :: rest => some (rest.dropWhile fun c => c == ' ' || c == '\t' || c == '\n')
  | _ => none

def takeEscape? (multiline : Bool) : List Char → Option (List Char × List Char)
  | [] => none
  | 'u' :: rest => do
    let (n, rest) ← Text.takeHexDigits? 4 rest
    return ([← Text.codePoint? n], rest)
  | 'U' :: rest => do
    let (n, rest) ← Text.takeHexDigits? 8 rest
    return ([← Text.codePoint? n], rest)
  | c :: rest =>
    match simpleEscape? c with
    | some d => some ([d], rest)
    | none => if multiline then (skipLineEnd? (c :: rest)).map ([], ·) else none

def takeLine? (quote : Char) : Nat → List Char → Option (List Char × List Char)
  | 0, _ => none
  | fuel + 1, text =>
    match text with
    | [] => none
    | c :: rest =>
      if c = quote then some ([], rest)
      else if c = '\\' && quote = '"' then do
        let (piece, rest) ← takeEscape? false rest
        let (body, rest) ← takeLine? quote fuel rest
        return (piece ++ body, rest)
      else if isTextChar c then do
        let (body, rest) ← takeLine? quote fuel rest
        return (c :: body, rest)
      else none

/-- A string of many lines behind its opening quotes. Up to two quotes may stand before the
    closing three. -/
def takeLines? (quote : Char) : Nat → List Char → Option (List Char × List Char)
  | 0, _ => none
  | fuel + 1, text =>
    match text with
    | [] => none
    | c :: rest =>
      if c = quote then
        let quotes := (text.takeWhile (· == quote)).length
        if quotes < 3 then do
          let (body, rest) ← takeLines? quote fuel (text.drop quotes)
          return (List.replicate quotes quote ++ body, rest)
        else some (List.replicate (min quotes 5 - 3) quote, text.drop (min quotes 5))
      else if c = '\\' && quote = '"' then do
        let (piece, rest) ← takeEscape? true rest
        let (body, rest) ← takeLines? quote fuel rest
        return (piece ++ body, rest)
      else if c = '\n' || isTextChar c then do
        let (body, rest) ← takeLines? quote fuel rest
        return (c :: body, rest)
      else none

/-- A string behind its first quote, and whether it may have many lines. A line feed right behind
    three opening quotes is left out. -/
def takeString? (quote : Char) (text : List Char) : Option (Bool × List Char × List Char) :=
  match text with
  | c :: d :: rest =>
    if c = quote && d = quote then
      let rest := if rest.head? = some '\n' then rest.drop 1 else rest
      (takeLines? quote (rest.length + 1) rest).map (true, ·)
    else (takeLine? quote (text.length + 1) text).map (false, ·)
  | _ => (takeLine? quote (text.length + 1) text).map (false, ·)

/-- A bare or quoted key; a quoted one has one line. -/
def takeKey? (text : List Char) : Option (String × List Char) :=
  match text with
  | [] => none
  | c :: rest =>
    if c = '"' || c = '\'' then
      match takeString? c rest with
      | some (false, body, rest) => some (String.ofList body, rest)
      | _ => none
    else (takeWord? text).map fun (word, rest) => (String.ofList word, rest)

def takeDottedKey? : Nat → List Char → Option (List String × List Char)
  | 0, _ => none
  | fuel + 1, text => do
    let (key, rest) ← takeKey? (Text.skipBlanks text)
    match Text.skipBlanks rest with
    | '.' :: rest =>
      let (keys, rest) ← takeDottedKey? fuel rest
      return (key :: keys, rest)
    | rest => return ([key], rest)

/-! Numbers -/

/-- Digits of a base with single underscores between them; gives what follows. Of other numerals
    than those of a fraction, a zero may only stand first if it stands alone. -/
def takeNumeral? (base : Nat) (paddable : Bool) (text : List Char) : Option (List Char × List Char) :=
  let isDigit (c : Char) := Text.isAlphanumeric c &&
    (match Text.hexDigit? c with | some d => d < base | none => false)
  let run := text.takeWhile fun c => isDigit c || c == '_'
  let rest := text.drop run.length
  let digits := run.filter (· != '_')
  let doubled := (run.zip (run.drop 1)).any fun p => p.1 == '_' && p.2 == '_'
  if digits.isEmpty || run.head? = some '_' || run.getLast? = some '_' || doubled then none
  else if digits.head? = some '0' && 1 < digits.length && !paddable then none
  else some (digits, rest)

def dropSign : List Char → List Char
  | '+' :: rest | '-' :: rest => rest
  | text => text

def integer? (base : Nat) (word : List Char) : Option TomlValue := do
  let (digits, rest) ← takeNumeral? base (base ≠ 10) (if base = 10 then dropSign word else word)
  guard rest.isEmpty
  let n := digits.foldl (fun n c => base * n + (Text.hexDigit? c).getD 0) 0
  if base = 10 && word.head? = some '-' then
    guard (2 * n ≤ UInt64.size)
    return if n = 0 then .natural 0 else .other
  else
    guard (2 * n < UInt64.size)
    return .natural n

def takeExponent? (suffix after : List Char) : Option (List Char × List Char) :=
  match suffix with
  | [] => some ([], after)
  | mark :: power =>
    if mark ≠ 'e' && mark ≠ 'E' then none
    else do
      let (power, after) ←
        if power.isEmpty then
          takeWord? (match after with | '+' :: rest => rest | rest => rest)
        else some (dropSign power, after)
      let (digits, rest) ← takeNumeral? 10 true power
      guard rest.isEmpty
      let negative := suffix.drop 1 |>.head? |> (· == some '-')
      return ('e' :: ((if negative then ['-'] else []) ++ digits), after)

/-- A fraction: whole part, digits behind a point if there is one, exponent. Its value has to be
    finite. -/
def fraction? (word : List Char) (after : List Char) (pointed : Bool) : Option (TomlValue × List Char) := do
  let (whole, suffix) ← takeNumeral? 10 false (dropSign word)
  let (places, suffix, after) ←
    if pointed then do
      guard suffix.isEmpty
      let (word, after) ← takeWord? after
      let (places, suffix) ← takeNumeral? 10 true word
      some ('.' :: places, suffix, after)
    else some ([], suffix, after)
  let (power, after) ← takeExponent? suffix after
  match Decimal.number? (whole ++ places ++ power) with
  | some (.finite ..) => some (.other, after)
  | _ => none

def number? (word after : List Char) : Option (TomlValue × List Char) :=
  match word with
  | '0' :: 'x' :: digits => (integer? 16 digits).map (·, after)
  | '0' :: 'o' :: digits => (integer? 8 digits).map (·, after)
  | '0' :: 'b' :: digits => (integer? 2 digits).map (·, after)
  | _ =>
    if word.contains 'e' || word.contains 'E' then fraction? word after false
    else match after with
      | '.' :: after => fraction? word after true
      | _ =>
        if ["inf", "-inf", "nan", "-nan"].any fun w => w.toList = word then some (.other, after)
        else (integer? 10 word).map (·, after)

def takeTime? (text : List Char) : Option (List Char) := do
  let (_, rest) ← takeWord? text
  let rest ← Text.afterStart? [':'] rest
  let (_, rest) ← takeWord? rest
  let rest ← match rest with
    | '.' :: rest => (takeWord? rest).map Prod.snd
    | rest => some rest
  let rest ← match rest with
    | '+' :: rest => (takeWord? rest).map Prod.snd
    | rest => some rest
  match rest with
  | ':' :: rest => (takeWord? rest).map Prod.snd
  | rest => some rest

def takeDate? (after : List Char) : Option (List Char) :=
  let rest := match after with
    | ' ' :: c :: rest => if isWordChar c then (c :: rest).dropWhile isWordChar else after
    | _ => after
  match rest with
  | ':' :: rest => takeTime? rest
  | rest => some rest

def looksDated (word : List Char) : Bool :=
  let powered := (word.zip (word.drop 1)).any fun p => (p.1 == 'e' || p.1 == 'E') && p.2 == '-'
  word.contains 'T' || word.contains 't' || ((word.drop 1).contains '-' && !powered)

def bareValue? (word after : List Char) : Option (TomlValue × List Char) :=
  if word = "true".toList then some (.flag true, after)
  else if word = "false".toList then some (.flag false, after)
  else if !(word.head?.any (fun c => c.isDigit || c == '-') || word = "inf".toList || word = "nan".toList) then
    none
  else if looksDated word then (takeDate? after).map (.other, ·)
  else match after with
    | ':' :: after => (takeTime? after).map (.other, ·)
    | _ => number? word after

/-! Values -/

/-- Puts a value under a dotted key. Tables that dotted keys have made can be extended by others,
    and no other value can. -/
def addDotted? : List String → TomlValue → List (String × TomlValue) → Option (List (String × TomlValue))
  | [], _, _ => none
  | [key], value, fields => some (fields ++ [(key, value)])
  | key :: keys, value, fields =>
    match fields.findIdx? (·.1 == key) with
    | none => (addDotted? keys value []).map fun inner => fields ++ [(key, .table true inner)]
    | some i =>
      match fields[i]? with
      | some (_, .table true inner) =>
        (addDotted? keys value inner).map fun inner => fields.set i (key, .table true inner)
      | _ => none

def skipComment (text : List Char) : List Char :=
  match text with
  | '#' :: rest => rest.dropWhile fun c => c == '\t' || 0x20 ≤ c.toNat
  | _ => text

def skipSpace : Nat → List Char → List Char
  | 0, text => text
  | fuel + 1, text =>
    match text with
    | [] => []
    | c :: rest =>
      if Text.isBlank c || c == '\n' then skipSpace fuel rest
      else if c == '#' then skipSpace fuel (skipComment text)
      else text

mutual

/-- A value and what follows it. Every call uses up text, so its length is fuel enough. -/
def takeValue? : Nat → List Char → Option (TomlValue × List Char)
  | 0, _ => none
  | fuel + 1, text =>
    match text with
    | [] => none
    | '"' :: rest => (takeString? '"' rest).map fun (_, body, rest) => (.text (String.ofList body), rest)
    | '\'' :: rest => (takeString? '\'' rest).map fun (_, body, rest) => (.text (String.ofList body), rest)
    | '[' :: rest => (takeItems? fuel rest).map fun (items, rest) => (.list items, rest)
    | '{' :: rest =>
      match Text.skipBlanks rest with
      | '}' :: rest => some (.table false [], rest)
      | rest => (takeFields? fuel [] rest).map fun (fields, rest) => (.table false fields, rest)
    | '+' :: rest => do
      let (word, rest) ← takeWord? rest
      number? word rest
    | text => do
      let (word, rest) ← takeWord? text
      bareValue? word rest

def takeItems? : Nat → List Char → Option (List TomlValue × List Char)
  | 0, _ => none
  | fuel + 1, text =>
    match skipSpace text.length text with
    | ']' :: rest => some ([], rest)
    | text => do
      let (item, rest) ← takeValue? fuel text
      match skipSpace rest.length rest with
      | ',' :: rest =>
        let (items, rest) ← takeItems? fuel rest
        return (item :: items, rest)
      | ']' :: rest => return ([item], rest)
      | _ => none

def takeFields? : Nat → List (String × TomlValue) → List Char →
    Option (List (String × TomlValue) × List Char)
  | 0, _, _ => none
  | fuel + 1, fields, text => do
    let (keys, rest) ← takeDottedKey? (text.length + 1) text
    let rest ← Text.afterStart? ['='] rest
    let (value, rest) ← takeValue? fuel (Text.skipBlanks rest)
    let fields ← addDotted? keys value fields
    match Text.skipBlanks rest with
    | '}' :: rest => return (fields, rest)
    | ',' :: rest => takeFields? fuel fields rest
    | _ => none

end

end Toml
end Markup
end MetricGateway
