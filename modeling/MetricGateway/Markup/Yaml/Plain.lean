import MetricGateway.Number.Decimal
import MetricGateway.Text.Line

/- Characters of YAML, and what an unquoted word is taken for: null, a flag, a number or text. -/
namespace MetricGateway
namespace Markup
namespace Yaml

def isBreak (c : Char) : Bool :=
  c == '\n' || c == '\r' || c.toNat = 0x85 || c.toNat = 0x2028 || c.toNat = 0x2029

/-- Characters that are written as they are. Those outside the basic plane are not. -/
def isPrintable (c : Char) : Bool :=
  let n := c.toNat
  n = 0x0A || (0x20 ≤ n && n ≤ 0x7E) || (0xA0 ≤ n && n < 0xFFFE && n ≠ 0xFEFF)

def isNullWord (word : List Char) : Bool :=
  ["null", "Null", "NULL", "~"].any fun w => w.toList = word

def flagWord? (word : List Char) : Option Bool :=
  if ["true", "True", "TRUE"].any fun w => w.toList = word then some true
  else if ["false", "False", "FALSE"].any fun w => w.toList = word then some false
  else none

def isSign (c : Char) : Bool := c == '+' || c == '-'

def dropSign (word : List Char) : List Char :=
  match word with
  | c :: rest => if isSign c then rest else word
  | [] => []

/-- A zero before other digits makes a text, not a number. -/
def isPaddedNumber (word : List Char) : Bool :=
  match dropSign word with
  | '0' :: d :: rest => (d :: rest).all Char.isDigit
  | _ => false

def digitValue (c : Char) : Nat :=
  if c.isDigit then c.toNat - '0'.toNat else c.toLower.toNat - 'a'.toNat + 10

def isDigitOf (base : Nat) (c : Char) : Bool := Text.isAlphanumeric c && digitValue c < base

def numeral? (base : Nat) (digits : List Char) : Option Nat :=
  if !digits.isEmpty && digits.all (isDigitOf base) then
    some (digits.foldl (fun n c => n * base + digitValue c) 0)
  else none

def basedNumeral? (word : List Char) : Option Nat :=
  match word with
  | '0' :: 'x' :: rest => numeral? 16 rest
  | '0' :: 'o' :: rest => numeral? 8 rest
  | '0' :: 'b' :: rest => numeral? 2 rest
  | _ => numeral? 10 word

def natural? (word : List Char) : Option Nat :=
  let unsigned := match word with
    | '+' :: rest => rest
    | _ => word
  if isPaddedNumber word then none else basedNumeral? unsigned

def negative? (word : List Char) : Option Nat :=
  match word with
  | '-' :: rest => if isPaddedNumber word then none else basedNumeral? rest
  | _ => none

def isFraction (word : List Char) : Bool :=
  let unsigned := match word with
    | '+' :: rest => rest
    | _ => word
  if word.head? = some '+' && unsigned.head?.any isSign then false
  else if [".inf", ".Inf", ".INF"].any fun w => w.toList = unsigned then true
  else if ["-.inf", "-.Inf", "-.INF", ".nan", ".NaN", ".NAN"].any fun w => w.toList = word then true
  else match Decimal.number? unsigned with
    | some (.finite ..) => true
    | _ => false

/-- Whether a text has to be quoted, because the bare word would be taken for another value, or
    for a number by other readers. -/
def looksTyped (word : List Char) : Bool :=
  word.isEmpty || isNullWord word || (flagWord? word).isSome || isPaddedNumber word ||
    (natural? word).any (· < UInt64.size * UInt64.size) ||
    (negative? word).any (2 * · ≤ UInt64.size * UInt64.size) || isFraction word

end Yaml
end Markup
end MetricGateway
