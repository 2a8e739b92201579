import MetricGateway.Number.Double

/- Decimal text of doubles: which tokens are numbers, and the shortest text that reads back. -/
namespace MetricGateway
namespace Decimal

def value (digits : List Char) : Nat :=
  digits.foldl (fun sum c => 10 * sum + (c.toNat - '0'.toNat)) 0

def takeSign : List Char → Bool × List Char
  | '-' :: rest => (true, rest)
  | '+' :: rest => (false, rest)
  | rest => (false, rest)

/-- Digits after a point; a point may stand without digits behind it. -/
def takeFraction : List Char → List Char × List Char
  | '.' :: rest => rest.span Char.isDigit
  | rest => ([], rest)

def exponent? : List Char → Option Int
  | [] => some 0
  | mark :: rest =>
    let (negative, digits) := takeSign rest
    if (mark == 'e' || mark == 'E') && !digits.isEmpty && digits.all Char.isDigit then
      some (if negative then -(value digits : Int) else value digits)
    else none

/-- Plain or exponent notation with at least one digit before the exponent. -/
def number? (token : List Char) : Option Double :=
  let (negative, unsigned) := takeSign token
  let (whole, rest) := unsigned.span Char.isDigit
  let (fraction, rest) := takeFraction rest
  if whole.isEmpty && fraction.isEmpty then none
  else (exponent? rest).map fun e =>
    Double.ofDecimal negative (value (whole ++ fraction)) (e - fraction.length)

/-- A sample value: a number, or one of four words. Other spellings of NaN and the infinities
    are no values. -/
def sampleValue? (token : List Char) : Option Double :=
  if token = "NaN".toList || token = "Nan".toList then some .nan
  else if token = "+Inf".toList then some (.infinite false)
  else if token = "-Inf".toList then some (.infinite true)
  else number? token

/-- Decimal places kept while looking for digits: even the least positive double has more than
    seventeen significant digits before them. -/
def places : Nat := 342

/-- The two neighbours of a magnitude on the grid of `n` significant digits, nearer first,
    with the exponent of their last digit. A tie puts the larger first; `n` nines are followed
    by a power of ten, which one digit tells. -/
def neighbours (units n : Nat) : List (Nat × Int) :=
  let scaled := units * Nat.pow 10 places
  let whole := scaled / Double.unitsPerOne
  let cut := (Nat.repr whole).length - n
  let low := whole / Nat.pow 10 cut
  let exponent := (cut : Int) - places
  let above := if low + 1 = Nat.pow 10 n then (1, exponent + n) else (low + 1, exponent)
  if 2 * scaled < (2 * low + 1) * Nat.pow 10 cut * Double.unitsPerOne then [(low, exponent), above]
  else [above, (low, exponent)]

def readsBack (units : Nat) (candidate : Nat × Int) : Bool :=
  match Double.ofDecimal false candidate.1 candidate.2 with
  | .finite false back _ => back = units
  | _ => false

/-- Digits and exponent of the shortest decimal that reads back as the magnitude. The exact
    value stands behind the search, so the answer always denotes the magnitude. -/
def shortest (units : Nat) : Nat × Int :=
  let found := (List.range 17).findSome? fun n => (neighbours units (n + 1)).find? (readsBack units)
  found.getD (units * Nat.pow 5 1074, -1074)

def positional (digits : Nat) (exponent : Int) : List Char :=
  let text := Nat.toDigits 10 digits
  if 0 ≤ exponent then text ++ List.replicate exponent.toNat '0'
  else
    let places := exponent.natAbs
    if places < text.length then
      text.take (text.length - places) ++ '.' :: text.drop (text.length - places)
    else '0' :: '.' :: (List.replicate (places - text.length) '0' ++ text)

def magnitudeText (units : Nat) : List Char :=
  if units = 0 then ['0'] else positional (shortest units).1 (shortest units).2

def signText (negative : Bool) (text : List Char) : List Char :=
  if negative then '-' :: text else text

def sampleText : Double → List Char
  | .nan => "NaN".toList
  | .infinite false => "+Inf".toList
  | .infinite true => "-Inf".toList
  | .finite negative units _ => signText negative (magnitudeText units)

/-- The text a metric vector writes; its infinities are no sample values. -/
def plainText : Double → List Char
  | .nan => "NaN".toList
  | .infinite negative => signText negative "inf".toList
  | .finite negative units _ => signText negative (magnitudeText units)

/-- One decimal place, rounded from the exact value with ties to even. -/
def tenths : Double → List Char
  | .finite negative units _ =>
    let t := Double.nearestQuotient (units * 10) Double.unitsPerOne
    signText negative (Nat.toDigits 10 (t / 10) ++ '.' :: Nat.toDigits 10 (t % 10))
  | x => plainText x

end Decimal
end MetricGateway
