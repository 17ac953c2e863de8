import ScriptTree.Number.Decimal
import ScriptTree.Text.Utf16

/-!
# String literals

The value of a string literal from its text: quotes removed and escapes replaced. The value is
built from 16-bit units, so two escapes that name the halves of a surrogate pair make one character,
and a half that stands alone becomes the replacement character.
-/
namespace ScriptTree.Quoted

/-- A quote that may enclose a literal. -/
def isQuote (c : Char) : Bool :=
  c == '"' || c == '\''

/-- The text between the quotes; a text without both of them is left as it is. -/
def unquote (raw : List Char) : List Char :=
  match raw with
  | [] => []
  | first :: rest =>
    match rest.getLast? with
    | some last => if isQuote first && isQuote last then rest.dropLast else raw
    | none => raw

/-- Reads exactly `count` hexadecimal digits, going on from a value. -/
def readHex? : Nat → Nat → List Char → Option (Nat × List Char)
  | 0, value, rest => some (value, rest)
  | _ + 1, _, [] => none
  | n + 1, value, c :: rest =>
    match Decimal.digitValue? 16 c with
    | some d => readHex? n (value * 16 + d) rest
    | none => none

/-- The least number that a code point in braces cannot reach. -/
def bracedLimit : Nat := 0x100000000

/-- Reads hexadecimal digits up to a closing brace; `started` tells whether one has been read. -/
def readBraced? : Bool → Nat → List Char → Option (Nat × List Char)
  | _, _, [] => none
  | started, value, c :: rest =>
    if c = '}' ∧ started then some (value, rest)
    else
      match Decimal.digitValue? 16 c with
      | some d =>
        if value * 16 + d < bracedLimit then readBraced? true (value * 16 + d) rest else none
      | none => none

/-- The code point after `\u`: four digits, or any number of them in braces. -/
def readCodePoint? : List Char → Option (Nat × List Char)
  | '{' :: rest => readBraced? false 0 rest
  | text => readHex? 4 0 text

/-- Reads up to `count` further octal digits, going on from a value. -/
def readOctal : Nat → Nat → List Char → Nat × List Char
  | 0, value, rest => (value, rest)
  | _ + 1, value, [] => (value, [])
  | n + 1, value, c :: rest =>
    match Decimal.digitValue? 8 c with
    | some d => readOctal n (value * 8 + d) rest
    | none => (value, c :: rest)

/-- The units of a code point; a number beyond the last one becomes the replacement character. -/
def unitsOfCodePoint (value : Nat) : List Nat :=
  if value ≤ 0x10FFFF then Utf16.encodeCodePoint value else [Utf8.replacement.toNat]

/-- Characters that a backslash turns into a control character. -/
def controlEscape? : Char → Option Nat
  | 'n' => some 0x0A
  | 't' => some 0x09
  | 'r' => some 0x0D
  | 'b' => some 0x08
  | 'f' => some 0x0C
  | 'v' => some 0x0B
  | _ => none

/-- The units of the escape that starts with `c`, and the text after it. A backslash before an end
of line joins two lines; before any other character without a meaning of its own it is dropped. -/
def readEscape (c : Char) (rest : List Char) : List Nat × List Char :=
  match controlEscape? c with
  | some unit => ([unit], rest)
  | none =>
    match Decimal.digitValue? 8 c with
    | some first =>
      let (value, rest) := readOctal (if first ≤ 3 then 2 else 1) first rest
      ([value], rest)
    | none =>
      if c = 'x' then
        match readHex? 2 0 rest with
        | some (value, rest) => ([value], rest)
        | none => (['x'.toNat], rest)
      else if c = 'u' then
        match readCodePoint? rest with
        | some (value, rest) => (unitsOfCodePoint value, rest)
        | none => (['u'.toNat], rest)
      else if c = '\r' then
        match rest with
        | '\n' :: rest => ([], rest)
        | _ => ([], rest)
      else if c = '\n' ∨ c = '\u2028' ∨ c = '\u2029' then ([], rest)
      else (Utf16.encodeChar c, rest)

theorem readHex?_length_le {n value : Nat} {text : List Char} {r : Nat × List Char}
    (h : readHex? n value text = some r) : r.2.length ≤ text.length := by
  induction n generalizing value text with
  | zero => simp [readHex?] at h; simp [← h]
  | succ n ih =>
    cases text with
    | nil => simp [readHex?] at h
    | cons c rest =>
      simp only [readHex?] at h
      split at h
      · exact Nat.le_succ_of_le (ih h)
      · simp at h

theorem readBraced?_length_le {started : Bool} {value : Nat} {text : List Char}
    {r : Nat × List Char} (h : readBraced? started value text = some r) :
    r.2.length ≤ text.length := by
  induction text generalizing started value with
  | nil => simp [readBraced?] at h
  | cons c rest ih =>
    simp only [readBraced?] at h
    split at h
    · simp at h; simp [← h]
    · split at h
      · split at h
        · exact Nat.le_succ_of_le (ih h)
        · simp at h
      · simp at h

theorem readCodePoint?_length_le {text : List Char} {r : Nat × List Char}
    (h : readCodePoint? text = some r) : r.2.length ≤ text.length := by
  unfold readCodePoint? at h
  split at h
  · exact Nat.le_succ_of_le (readBraced?_length_le h)
  · exact readHex?_length_le h

theorem readOctal_length_le (n value : Nat) (text : List Char) :
    (readOctal n value text).2.length ≤ text.length := by
  induction n generalizing value text with
  | zero => simp [readOctal]
  | succ n ih =>
    cases text with
    | nil => simp [readOctal]
    | cons c rest =>
      simp only [readOctal]
      split
      · exact Nat.le_succ_of_le (ih _ rest)
      · exact Nat.le_refl _

/-- An escape never gives text back. -/
theorem readEscape_length_le (c : Char) (rest : List Char) :
    (readEscape c rest).2.length ≤ rest.length := by
  unfold readEscape
  split
  · exact Nat.le_refl _
  · split
    · exact readOctal_length_le _ _ _
    · split
      · split
        · next h => exact readHex?_length_le h
        · exact Nat.le_refl _
      · split
        · split
          · next h => exact readCodePoint?_length_le h
          · exact Nat.le_refl _
        · split
          · split
            · exact Nat.le_succ _
            · exact Nat.le_refl _
          · split <;> exact Nat.le_refl _

/-- The units that the text between the quotes stands for. A backslash at its end is dropped. -/
def units : List Char → List Nat
  | [] => []
  | c :: rest =>
    if c = '\\' then
      match rest with
      | [] => []
      | escaped :: rest => (readEscape escaped rest).1 ++ units (readEscape escaped rest).2
    else Utf16.encodeChar c ++ units rest
termination_by text => text.length
decreasing_by
  · have := readEscape_length_le escaped rest
    simp only [List.length_cons]
    omega
  · simp

/-- The value of a string literal. -/
def read (raw : List Char) : List Char :=
  Utf16.decodeLossy (units (unquote raw))

end ScriptTree.Quoted
