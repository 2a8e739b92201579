import MetricGateway.Text.Hex

/- Bytes and the text they stand for. -/
namespace MetricGateway
namespace Text

/-- What a byte that begins a character of several bytes tells: its own bits, the range of the next
    byte, and how many bytes follow. -/
def leadByte? (b : UInt8) : Option (Nat × Nat × Nat × Nat) :=
  let n := b.toNat
  if 0xC2 ≤ n && n ≤ 0xDF then some (n - 0xC0, 0x80, 0xBF, 1)
  else if n = 0xE0 then some (0, 0xA0, 0xBF, 2)
  else if n = 0xED then some (0xD, 0x80, 0x9F, 2)
  else if 0xE1 ≤ n && n ≤ 0xEF then some (n - 0xE0, 0x80, 0xBF, 2)
  else if n = 0xF0 then some (0, 0x90, 0xBF, 3)
  else if 0xF1 ≤ n && n ≤ 0xF3 then some (n - 0xF0, 0x80, 0xBF, 3)
  else if n = 0xF4 then some (4, 0x80, 0x8F, 3)
  else none

def takeCodePoint : Nat → Nat → Nat → Nat → List UInt8 → Option Nat × List UInt8
  | 0, _, _, bits, bytes => (some bits, bytes)
  | _ + 1, _, _, _, [] => (none, [])
  | count + 1, low, high, bits, b :: rest =>
    if low ≤ b.toNat && b.toNat ≤ high then
      takeCodePoint count 0x80 0xBF (64 * bits + b.toNat % 64) rest
    else (none, b :: rest)

/-- The characters of UTF-8 bytes. The longest run of bytes that begins a character but does not
    complete it counts as one replacement character, and so does any other byte. -/
def decode : Nat → List UInt8 → List Char
  | 0, _ | _, [] => []
  | fuel + 1, b :: rest =>
    if b.toNat < 0x80 then Char.ofNat b.toNat :: decode fuel rest
    else match leadByte? b with
      | none => '\ufffd' :: decode fuel rest
      | some (bits, low, high, count) =>
        match takeCodePoint count low high bits rest with
        | (some n, rest) => Char.ofNat n :: decode fuel rest
        | (none, rest) => '\ufffd' :: decode fuel rest

def ofBytes (bytes : List UInt8) : String := String.ofList (decode bytes.length bytes)

/-- Bytes with percent escapes in them; a percent sign without two digits behind it stands for
    itself. -/
def percentDecode : List UInt8 → List UInt8
  | b :: high :: low :: rest =>
    match if b = 0x25 then byte? high low else none with
    | some x => x :: percentDecode rest
    | none => b :: percentDecode (high :: low :: rest)
  | b :: rest => b :: percentDecode rest
  | [] => []
where
  byte? (high low : UInt8) : Option UInt8 := do
    return (16 * (← hexDigit? (Char.ofNat high.toNat)) + (← hexDigit? (Char.ofNat low.toNat))).toUInt8

def base64Alphabet : List Char :=
  "ABCDEFGHIJKLMNOPQRSTUVWXYZabcdefghijklmnopqrstuvwxyz0123456789+/".toList

def base64Digit (n : Nat) : Char := base64Alphabet[n % 64]?.getD '='

def base64 : List UInt8 → List Char
  | [] => []
  | [a] => [base64Digit (a.toNat / 4), base64Digit (a.toNat * 16), '=', '=']
  | [a, b] =>
    let n := a.toNat * 256 + b.toNat
    [base64Digit (n / 1024), base64Digit (n / 16), base64Digit (n * 4), '=']
  | a :: b :: c :: rest =>
    let n := (a.toNat * 256 + b.toNat) * 256 + c.toNat
    base64Digit (n / 262144) :: base64Digit (n / 4096) :: base64Digit (n / 64) :: base64Digit n ::
      base64 rest

end Text
end MetricGateway
