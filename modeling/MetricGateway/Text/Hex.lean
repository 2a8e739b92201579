/- Hexadecimal digits, of either case. -/
namespace MetricGateway
namespace Text

def hexDigit? (c : Char) : Option Nat :=
  if c.isDigit then some (c.toNat - '0'.toNat)
  else if 'a' ≤ c && c ≤ 'f' then some (c.toNat - 'a'.toNat + 10)
  else if 'A' ≤ c && c ≤ 'F' then some (c.toNat - 'A'.toNat + 10)
  else none

def takeHexDigits? (count : Nat) (text : List Char) : Option (Nat × List Char) := do
  let digits := text.take count
  guard (digits.length = count)
  let values ← digits.mapM hexDigit?
  return (values.foldl (fun n d => 16 * n + d) 0, text.drop count)

/-- The character of a code point; surrogates are no characters. -/
def codePoint? (n : Nat) : Option Char :=
  if n.isValidChar then some (Char.ofNat n) else none

end Text
end MetricGateway
