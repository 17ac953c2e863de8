/-!
# UTF-8

Text as octets and back. `encode` writes each character in its one shortest form; `scan` reads
octets from left to right and marks every maximal part that no text can start with. A strict reader
(`decode?`) refuses marks, a lenient one (`decodeLossy`) writes the replacement character for
each.
-/
namespace ScriptTree.Utf8

/-- The character written in place of what cannot be read. -/
def replacement : Char := '\uFFFD'

/-- The octets of one character, one to four of them. -/
def encodeChar (c : Char) : List UInt8 :=
  let v := c.toNat
  if v < 0x80 then
    [UInt8.ofNat v]
  else if v < 0x800 then
    [UInt8.ofNat (0xC0 + v / 0x40), UInt8.ofNat (0x80 + v % 0x40)]
  else if v < 0x10000 then
    [UInt8.ofNat (0xE0 + v / 0x1000), UInt8.ofNat (0x80 + v / 0x40 % 0x40),
      UInt8.ofNat (0x80 + v % 0x40)]
  else
    [UInt8.ofNat (0xF0 + v / 0x40000), UInt8.ofNat (0x80 + v / 0x1000 % 0x40),
      UInt8.ofNat (0x80 + v / 0x40 % 0x40), UInt8.ofNat (0x80 + v % 0x40)]

/-- The octets of a text, character by character. -/
def encode (text : List Char) : List UInt8 :=
  text.flatMap encodeChar

/-- The number of octets of a text. -/
def byteLength (text : List Char) : Nat :=
  text.foldr (fun c n => c.utf8Size + n) 0

/-- What the first octet of a character announces: nothing more, or a second octet between two
bounds and then some tails. -/
inductive Lead where
  | alone
  | follow (low high tails : Nat)
  | invalid
  deriving DecidableEq, Repr

/-- Overlong forms, surrogates and code points above 10FFFF are shut out by the bounds on the
second octet, so a sequence is refused at the first octet that cannot continue a character. -/
def Lead.ofOctet (b : Nat) : Lead :=
  if b < 0x80 then .alone
  else if b < 0xC2 then .invalid
  else if b < 0xE0 then .follow 0x80 0xBF 0
  else if b = 0xE0 then .follow 0xA0 0xBF 1
  else if b = 0xED then .follow 0x80 0x9F 1
  else if b < 0xF0 then .follow 0x80 0xBF 1
  else if b = 0xF0 then .follow 0x90 0xBF 2
  else if b < 0xF4 then .follow 0x80 0xBF 2
  else if b = 0xF4 then .follow 0x80 0x8F 2
  else .invalid

/-- The bits that a first octet contributes. -/
def Lead.bits (b tails : Nat) : Nat :=
  match tails with
  | 0 => b % 0x20
  | 1 => b % 0x10
  | _ => b % 0x08

/-- Whether an octet lies between two bounds. -/
def between (low high : Nat) (b : UInt8) : Bool :=
  decide (low ≤ b.toNat) && decide (b.toNat ≤ high)

/-- Reads tails after a first octet: the character and the octets that follow it, or `none` and the
octets from the first one that is no tail. -/
def readTails : Nat → Nat → List UInt8 → Option Char × List UInt8
  | 0, value, rest => (some (Char.ofNat value), rest)
  | _ + 1, _, [] => (none, [])
  | n + 1, value, b :: rest =>
    if between 0x80 0xBF b then readTails n (value * 0x40 + b.toNat % 0x40) rest
    else (none, b :: rest)

theorem readTails_length_le (n value : Nat) (bytes : List UInt8) :
    (readTails n value bytes).2.length ≤ bytes.length := by
  induction n generalizing value bytes with
  | zero => simp [readTails]
  | succ n ih =>
    cases bytes with
    | nil => simp [readTails]
    | cons b rest =>
      simp only [readTails]
      split
      · exact Nat.le_succ_of_le (ih _ rest)
      · exact Nat.le_refl _

/-- Reads the character that starts with the octet `b`, or marks the part that cannot be read. The
part ends before the first octet that does not continue it, which is then read anew. -/
def readChar (b : UInt8) (rest : List UInt8) : Option Char × List UInt8 :=
  match Lead.ofOctet b.toNat with
  | .alone => (some (Char.ofNat b.toNat), rest)
  | .invalid => (none, rest)
  | .follow low high tails =>
    match rest with
    | [] => (none, [])
    | second :: rest =>
      if between low high second then
        readTails tails (Lead.bits b.toNat tails * 0x40 + second.toNat % 0x40) rest
      else (none, second :: rest)

theorem readChar_length_le (b : UInt8) (rest : List UInt8) :
    (readChar b rest).2.length ≤ rest.length := by
  unfold readChar
  split
  · exact Nat.le_refl _
  · exact Nat.le_refl _
  · split
    · exact Nat.le_refl _
    · split
      · exact Nat.le_succ_of_le (readTails_length_le _ _ _)
      · exact Nat.le_refl _

/-- The characters of an octet sequence in order, with `none` for each part that cannot be read. -/
def scan : List UInt8 → List (Option Char)
  | [] => []
  | b :: rest => (readChar b rest).1 :: scan (readChar b rest).2
termination_by bytes => bytes.length
decreasing_by exact Nat.lt_succ_of_le (readChar_length_le b rest)

/-- Reads octets, writing the replacement character for each part that is not UTF-8. -/
def decodeLossy (bytes : List UInt8) : List Char :=
  (scan bytes).map (·.getD replacement)

/-- Reads octets that must be UTF-8 throughout. -/
def decode? (bytes : List UInt8) : Option (List Char) :=
  (scan bytes).mapM id

end ScriptTree.Utf8
