import MetricGateway.Text.Hex

/- Internet addresses: how they are read and how they are written. -/
namespace MetricGateway

inductive Address where
  | v4 (bytes : List Nat)
  | v6 (groups : List Nat)
  deriving DecidableEq, Repr

namespace Address

/-- A decimal byte; no zero stands before other digits. -/
def takeByte? (text : List Char) : Option (Nat × List Char) :=
  let digits := text.takeWhile Char.isDigit
  let n := digits.foldl (fun n c => 10 * n + (c.toNat - '0'.toNat)) 0
  if digits.isEmpty || 3 < digits.length || 255 < n || (digits.head? = some '0' && 1 < digits.length) then
    none
  else some (n, text.drop digits.length)

def takeBytes? : Nat → List Char → Option (List Nat × List Char)
  | 0, text => some ([], text)
  | 1, text => (takeByte? text).map fun (b, rest) => ([b], rest)
  | n + 1, text => do
    let (b, rest) ← takeByte? text
    match rest with
    | '.' :: rest =>
      let (bytes, rest) ← takeBytes? n rest
      return (b :: bytes, rest)
    | _ => none

def takeGroup? (text : List Char) : Option (Nat × List Char) := do
  let digits := text.takeWhile fun c => (Text.hexDigit? c).isSome
  guard (1 ≤ digits.length && digits.length ≤ 4)
  Text.takeHexDigits? digits.length text

def afterColon? (first : Bool) (text : List Char) : Option (List Char) :=
  match first, text with
  | true, text => some text
  | false, ':' :: rest => some rest
  | false, _ => none

/-- As many groups as there are, up to a limit. Four bytes may stand for the last two; whether they
    do is told. -/
def takeGroups : Nat → Bool → List Char → List Nat × Bool × List Char
  | 0, _, text => ([], false, text)
  | limit + 1, first, text =>
    match afterColon? first text with
    | none => ([], false, text)
    | some behind =>
      match if 0 < limit then takeBytes? 4 behind else none with
      | some ([a, b, c, d], rest) => ([256 * a + b, 256 * c + d], true, rest)
      | _ =>
        match takeGroup? behind with
        | none => ([], false, text)
        | some (g, rest) =>
          let (groups, bytes, rest) := takeGroups limit false rest
          (g :: groups, bytes, rest)

def readGroups? (text : List Char) : Option (List Nat) :=
  match takeGroups 8 true text with
  | (head, bytes, rest) =>
    if head.length = 8 then if rest.isEmpty then some head else none
    else if bytes then none
    else match rest with
      | ':' :: ':' :: rest =>
        match takeGroups (7 - head.length) true rest with
        | (tail, _, []) => some (head ++ List.replicate (8 - head.length - tail.length) 0 ++ tail)
        | _ => none
      | _ => none

def read? (text : String) : Option Address :=
  match takeBytes? 4 text.toList with
  | some (bytes, []) => some (.v4 bytes)
  | _ => (readGroups? text.toList).map .v6

def bytesText (bytes : List Nat) : String := ".".intercalate (bytes.map toString)

def groupsText (groups : List Nat) : String :=
  ":".intercalate (groups.map fun g => String.ofList (Nat.toDigits 16 g))

def zeroRun (groups : List Nat) : Nat := (groups.takeWhile (· = 0)).length

def longestZeroRun : List Nat → List Nat × Nat
  | [] => ([], 0)
  | g :: rest =>
    let here := zeroRun (g :: rest)
    let (before, later) := longestZeroRun rest
    if later ≤ here then ([], here) else (g :: before, later)

/-- Lower-case groups, a double colon for the longest run of two zeros or more; addresses that
    stand for four bytes end in them. -/
def text : Address → String
  | .v4 bytes => bytesText bytes
  | .v6 groups =>
    match groups with
    | [0, 0, 0, 0, 0, 0xffff, a, b] => "::ffff:" ++ bytesText [a / 256, a % 256, b / 256, b % 256]
    | _ =>
      let (before, zeros) := longestZeroRun groups
      if zeros ≤ 1 then groupsText groups
      else groupsText before ++ "::" ++ groupsText (groups.drop (before.length + zeros))

/-- Whether a text names a place to listen at once a port is added: an address of four bytes, or
    one of groups between brackets. -/
def isHost (host : String) : Bool :=
  match host.toList with
  | '[' :: rest =>
    rest.getLast? = some ']' && (readGroups? rest.dropLast).isSome
  | text => match takeBytes? 4 text with
    | some (_, []) => true
    | _ => false

end Address
end MetricGateway
