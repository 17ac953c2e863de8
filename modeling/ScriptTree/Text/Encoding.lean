import ScriptTree.Text.Utf16

/-!
# Source files as text

A file that starts with a byte order mark is read in the encoding the mark stands for, without the
mark; any other file is read as UTF-8. What cannot be read becomes the replacement character.
-/
namespace ScriptTree

/-- The encodings in which a source file may be saved. -/
inductive Encoding where
  | utf8
  | utf16 (endian : Utf16.Endian)
  deriving DecidableEq, Repr

namespace Encoding

/-- The mark that announces an encoding. -/
def mark : Encoding → List UInt8
  | utf8 => [0xEF, 0xBB, 0xBF]
  | utf16 .little => [0xFF, 0xFE]
  | utf16 .big => [0xFE, 0xFF]

/-- The text of octets in an encoding, after its mark. -/
def decode : Encoding → List UInt8 → List Char
  | utf8, bytes => Utf8.decodeLossy bytes
  | utf16 endian, bytes => Utf16.decodeBytes endian bytes

/-- The octets of a text in an encoding, without a mark. -/
def encode : Encoding → List Char → List UInt8
  | utf8, text => Utf8.encode text
  | utf16 endian, text => Utf16.encodeBytes endian text

/-- The encoding of a file and the octets after its mark. -/
def detect : List UInt8 → Encoding × List UInt8
  | 0xEF :: 0xBB :: 0xBF :: rest => (utf8, rest)
  | 0xFF :: 0xFE :: rest => (utf16 .little, rest)
  | 0xFE :: 0xFF :: rest => (utf16 .big, rest)
  | bytes => (utf8, bytes)

end Encoding

/-- The text of a source file. -/
def decodeSource (bytes : List UInt8) : List Char :=
  let (encoding, rest) := Encoding.detect bytes
  encoding.decode rest

end ScriptTree
