import ScriptTree.Number.Decimal
import ScriptTree.Text.Utf8

/-!
# Percent encoding

An octet outside a set of plain ASCII characters is written as a percent sign and two hexadecimal
digits. Decoding reads any octet so written and leaves all else as it is.
-/
namespace ScriptTree.Percent

/-- A hexadecimal digit in upper case. -/
def hexDigit (n : Nat) : Char :=
  if n < 10 then Char.ofNat ('0'.toNat + n) else Char.ofNat ('A'.toNat + (n - 10))

/-- An octet as a percent sign and two digits. -/
def escape (b : UInt8) : List Char :=
  ['%', hexDigit (b.toNat / 16), hexDigit (b.toNat % 16)]

/-- Control characters and everything outside ASCII; these are encoded everywhere. -/
def isControl (v : Nat) : Bool :=
  decide (v < 0x20) || decide (0x7E < v)

/-- Characters encoded in a fragment. -/
def inFragment (c : Char) : Bool :=
  isControl c.toNat || c == ' ' || c == '"' || c == '<' || c == '>' || c == '`'

/-- Characters encoded in a path. -/
def inPath (c : Char) : Bool :=
  inFragment c || c == '#' || c == '?' || c == '\x7b' || c == '\x7d'

/-- Characters encoded in the name of a file. -/
def inFileName (c : Char) : Bool :=
  inPath c || c == '/' || c == '%' || c == '\\'

/-- Characters encoded in a user name or a password. -/
def inUserInfo (c : Char) : Bool :=
  inPath c || c == '/' || c == ':' || c == ';' || c == '=' || c == '@' || c == '[' || c == '\\' ||
    c == ']' || c == '^' || c == '|'

/-- Characters encoded in a query. -/
def inQuery (c : Char) : Bool :=
  isControl c.toNat || c == ' ' || c == '"' || c == '#' || c == '<' || c == '>'

/-- Characters encoded in the query of a special scheme. -/
def inSpecialQuery (c : Char) : Bool :=
  inQuery c || c == '\''

/-- Characters encoded in an opaque host or an opaque path. -/
def inOpaque (c : Char) : Bool :=
  isControl c.toNat

/-- One octet, encoded if it stands for a character of a set. -/
def encodeOctet (set : Char → Bool) (b : UInt8) : List Char :=
  if set (Char.ofNat b.toNat) then escape b else [Char.ofNat b.toNat]

/-- Octets with those of a set encoded. -/
def encodeOctets (set : Char → Bool) (bytes : List UInt8) : List Char :=
  bytes.flatMap (encodeOctet set)

/-- A text with the characters of a set encoded in UTF-8. -/
def encode (set : Char → Bool) (text : List Char) : List Char :=
  encodeOctets set (Utf8.encode text)

/-- The octets of a text in which percent signs and two digits stand for octets. -/
def decode : List Char → List UInt8
  | [] => []
  | '%' :: a :: b :: rest =>
    match Decimal.digitValue? 16 a, Decimal.digitValue? 16 b with
    | some high, some low => UInt8.ofNat (high * 16 + low) :: decode rest
    | _, _ => UInt8.ofNat '%'.toNat :: decode (a :: b :: rest)
  | c :: rest => Utf8.encodeChar c ++ decode rest

end ScriptTree.Percent
