import ScriptTree.Text.Utf8

/-!
# UTF-16

Text as 16-bit units. A character above FFFF takes a pair of surrogate units; reading joins a
leading unit with the trailing unit directly after it and writes the replacement character for a
surrogate that stands alone.
-/
namespace ScriptTree.Utf16

/-- The units of a character, given by its code point. -/
def encodeCodePoint (v : Nat) : List Nat :=
  if v < 0x10000 then [v]
  else [0xD800 + (v - 0x10000) / 0x400, 0xDC00 + (v - 0x10000) % 0x400]

/-- The units of one character. -/
def encodeChar (c : Char) : List Nat :=
  encodeCodePoint c.toNat

/-- The units of a text, character by character. -/
def encode (text : List Char) : List Nat :=
  text.flatMap encodeChar

/-- A unit that opens a pair. -/
def isLeading (unit : Nat) : Bool :=
  decide (0xD800 ≤ unit) && decide (unit < 0xDC00)

/-- A unit that closes a pair. -/
def isTrailing (unit : Nat) : Bool :=
  decide (0xDC00 ≤ unit) && decide (unit < 0xE000)

/-- The character of a pair. -/
def join (leading trailing : Nat) : Char :=
  Char.ofNat (0x10000 + (leading - 0xD800) * 0x400 + (trailing - 0xDC00))

/-- The character of a unit outside a pair; a surrogate has none. -/
def single (unit : Nat) : Char :=
  if isLeading unit || isTrailing unit then Utf8.replacement else Char.ofNat unit

/-- Reads units as text. -/
def decodeLossy : List Nat → List Char
  | [] => []
  | [u] => [single u]
  | u :: v :: rest =>
    if isLeading u && isTrailing v then join u v :: decodeLossy rest
    else single u :: decodeLossy (v :: rest)

/-- The order of the two octets of a unit. -/
inductive Endian where
  | little
  | big
  deriving DecidableEq, Repr

/-- The unit written as two octets. -/
def Endian.unit : Endian → UInt8 → UInt8 → Nat
  | .little, low, high => high.toNat * 0x100 + low.toNat
  | .big, high, low => high.toNat * 0x100 + low.toNat

/-- The two octets of a unit. -/
def Endian.octets : Endian → Nat → List UInt8
  | .little, u => [UInt8.ofNat (u % 0x100), UInt8.ofNat (u / 0x100)]
  | .big, u => [UInt8.ofNat (u / 0x100), UInt8.ofNat (u % 0x100)]

/-- The octets of a text. -/
def encodeBytes (endian : Endian) (text : List Char) : List UInt8 :=
  (encode text).flatMap endian.octets

/-- The whole units of an octet sequence, and whether one octet is left over. -/
def units (endian : Endian) : List UInt8 → List Nat × Bool
  | [] => ([], false)
  | [_] => ([], true)
  | a :: b :: rest => (endian.unit a b :: (units endian rest).1, (units endian rest).2)

/-- Reads octets as text. An octet left over makes one replacement character; if the unit before it
is a leading surrogate still waiting for its pair, both count as one fault. -/
def decodeBytes (endian : Endian) (bytes : List UInt8) : List Char :=
  let (us, odd) := units endian bytes
  let waiting := us.getLast?.any isLeading
  decodeLossy us ++ (if odd && !waiting then [Utf8.replacement] else [])

end ScriptTree.Utf16
