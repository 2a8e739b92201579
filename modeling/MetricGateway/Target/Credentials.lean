import MetricGateway.Target.Basic
import MetricGateway.Text.Line

/- Credentials in diagnostics: the password never shows. -/
namespace MetricGateway

namespace Text

/-- Characters without a glyph of their own: controls, marks that join the character before them,
    and invisible formatting. -/
def isInvisible (c : Char) : Bool :=
  let n := c.toNat
  n < 0x20 || (0x7F ≤ n && n < 0xA0) || n = 0xAD || (0x300 ≤ n && n < 0x370) ||
    (0x483 ≤ n && n < 0x48A) || (0x591 ≤ n && n < 0x5BE) || (0x600 ≤ n && n < 0x606) ||
    (0x610 ≤ n && n < 0x61B) || (0x64B ≤ n && n < 0x660) || n = 0x61C || n = 0x1680 ||
    (0x2000 ≤ n && n < 0x2010) || (0x2028 ≤ n && n < 0x2030) || (0x205F ≤ n && n < 0x2070) ||
    (0x20D0 ≤ n && n < 0x20F1) || n = 0x3000 || (0xE000 ≤ n && n < 0xF900) ||
    (0xFE00 ≤ n && n < 0xFE10) || (0xFE20 ≤ n && n < 0xFE30) || n = 0xFEFF || 0xE0000 ≤ n

def escapeInvisible (c : Char) : List Char :=
  if c = '\x00' then ['\\', '0']
  else if c = '\t' then ['\\', 't']
  else if c = '\r' then ['\\', 'r']
  else if c = '\n' then ['\\', 'n']
  else if c = '"' then ['\\', '"']
  else if c = '\\' then ['\\', '\\']
  else if isInvisible c && c ≠ ' ' then
    ['\\', 'u', '{'] ++ Nat.toDigits 16 c.toNat ++ ['}']
  else [c]

def quoted (text : String) : String :=
  String.ofList ('"' :: (text.toList.flatMap escapeInvisible ++ ['"']))

end Text

def BasicAuth.masked (a : BasicAuth) : String :=
  "Basic \x7b username: " ++ Text.quoted a.username ++ ", password: \"***\" \x7d"

def Instance.maskedCredentials (i : Instance) : String :=
  match i.credentials with
  | some a => a.masked
  | none => "None"

end MetricGateway
