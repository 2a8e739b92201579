/- Integers as they are given on a command line, and what is wrong with a text that is none. -/
namespace MetricGateway
namespace CommandLine

inductive NumeralFault where
  | empty
  | badDigit
  | tooLarge
  | tooSmall
  deriving DecidableEq, Repr

def NumeralFault.message : NumeralFault → String
  | .empty => "cannot parse integer from empty string"
  | .badDigit => "invalid digit found in string"
  | .tooLarge => "number too large to fit in target type"
  | .tooSmall => "number too small to fit in target type"

/-- Digits behind others that make a number. The first fault from the left is told. -/
def readDigits (limit : Nat) (excess : NumeralFault) : Nat → List Char → Except NumeralFault Nat
  | n, [] => .ok n
  | n, c :: rest =>
    if !c.isDigit then .error .badDigit
    else
      let n := 10 * n + (c.toNat - '0'.toNat)
      if limit < n then .error excess else readDigits limit excess n rest

/-- A sign alone is no number. -/
def readMagnitude (limit : Nat) (excess : NumeralFault) (digits : List Char) :
    Except NumeralFault Nat :=
  if digits.isEmpty then .error .badDigit else readDigits limit excess 0 digits

def readUnsigned (text : String) : Except NumeralFault Nat :=
  match text.toList with
  | [] => .error .empty
  | '+' :: rest => readMagnitude 0xffffffffffffffff .tooLarge rest
  | text => readMagnitude 0xffffffffffffffff .tooLarge text

def readSigned (text : String) : Except NumeralFault Int :=
  match text.toList with
  | [] => .error .empty
  | '+' :: rest => (readMagnitude 0x7fffffffffffffff .tooLarge rest).map Int.ofNat
  | '-' :: rest => (readMagnitude 0x8000000000000000 .tooSmall rest).map fun n => - (n : Int)
  | text => (readMagnitude 0x7fffffffffffffff .tooLarge text).map Int.ofNat

end CommandLine
end MetricGateway
