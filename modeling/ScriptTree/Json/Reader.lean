import ScriptTree.Json.Basic
import ScriptTree.Text.Utf16

/-!
# Reading JSON

A strict reader: one value with blanks around it and nothing else, no control characters or lone
surrogates in strings, no leading zeros or bare points in numbers, and no nesting deeper than a
given number of levels.
-/
namespace ScriptTree

/-- Reads units as text; there must be no surrogate outside a pair. -/
def Utf16.decode? : List Nat → Option (List Char)
  | [] => some []
  | [u] => if isLeading u || isTrailing u then none else some [Char.ofNat u]
  | u :: v :: rest =>
    if isLeading u && isTrailing v then (decode? rest).map (join u v :: ·)
    else if isLeading u || isTrailing u then none
    else (decode? (v :: rest)).map (Char.ofNat u :: ·)

namespace Json

/-- The characters that may stand between tokens. -/
def isSpace (c : Char) : Bool :=
  c == ' ' || c == '\n' || c == '\r' || c == '\t'

/-- The text after leading blanks. -/
def skipSpace (text : List Char) : List Char :=
  text.dropWhile isSpace

/-- The value of four hexadecimal digits. -/
def hexUnit? (a b c d : Char) : Option Nat := do
  let a ← Decimal.digitValue? 16 a
  let b ← Decimal.digitValue? 16 b
  let c ← Decimal.digitValue? 16 c
  let d ← Decimal.digitValue? 16 d
  return ((a * 16 + b) * 16 + c) * 16 + d

/-- The character that a backslash and one letter stand for. -/
def shortEscape? : Char → Option Char
  | '"' => some '"'
  | '\\' => some '\\'
  | '/' => some '/'
  | 'b' => some '\x08'
  | 'f' => some '\x0c'
  | 'n' => some '\n'
  | 'r' => some '\r'
  | 't' => some '\t'
  | _ => none

/-- Reads a string after its opening quote: its UTF-16 units, and the text after the closing
quote. -/
def readUnits : List Char → Option (List Nat × List Char)
  | [] => none
  | '"' :: rest => some ([], rest)
  | '\\' :: 'u' :: a :: b :: c :: d :: rest =>
    match hexUnit? a b c d, readUnits rest with
    | some u, some (us, rest) => some (u :: us, rest)
    | _, _ => none
  | '\\' :: c :: rest =>
    match shortEscape? c, readUnits rest with
    | some e, some (us, rest) => some (Utf16.encodeChar e ++ us, rest)
    | _, _ => none
  | c :: rest =>
    if c.toNat < 0x20 ∨ c = '\\' then none
    else (readUnits rest).map fun (us, rest) => (Utf16.encodeChar c ++ us, rest)

/-- Reads a string after its opening quote. -/
def readString (text : List Char) : Option (String × List Char) := do
  let (units, rest) ← readUnits text
  let chars ← Utf16.decode? units
  return (String.ofList chars, rest)

/-- Splits off at least one digit. -/
def takeDigits (text : List Char) : Option (List Char × List Char) :=
  let digits := text.takeWhile Char.isDigit
  if digits.isEmpty then none else some (digits, text.dropWhile Char.isDigit)

/-- Splits off the digits before the point; a zero stands alone. -/
def takeWhole : List Char → Option (List Char × List Char)
  | '0' :: rest => some (['0'], rest)
  | text => takeDigits text

/-- Splits off a point and the digits after it, if there is a point. -/
def takeFraction : List Char → Option (List Char × List Char)
  | '.' :: rest => (takeDigits rest).map fun (digits, rest) => ('.' :: digits, rest)
  | text => some ([], text)

/-- Splits off a power of ten, if there is one. -/
def takePower : List Char → Option (List Char × List Char)
  | [] => some ([], [])
  | c :: rest =>
    if c = 'e' ∨ c = 'E' then
      match rest with
      | '-' :: r => (takeDigits r).map fun (digits, r) => (c :: '-' :: digits, r)
      | '+' :: r => (takeDigits r).map fun (digits, r) => (c :: '+' :: digits, r)
      | r => (takeDigits r).map fun (digits, r) => (c :: digits, r)
    else some ([], c :: rest)

/-- Reads a number, keeping its spelling. -/
def readNumber (text : List Char) : Option (String × List Char) := do
  let (sign, text) :=
    match text with
    | '-' :: rest => (['-'], rest)
    | text => ([], text)
  let (whole, text) ← takeWhole text
  let (fraction, text) ← takeFraction text
  let (power, text) ← takePower text
  return (String.ofList (sign ++ whole ++ fraction ++ power), text)

/-- A reader of one value at the start of a text. -/
abbrev Reader (α : Type) := List Char → Option (α × List Char)

/-- Reads the further items of a container after a first one: nothing more and the closing bracket,
or a comma and an item. The text grows shorter with every item, so its length bounds their
number. -/
def readRest {α : Type} (item : Reader α) (close : Char) : Nat → Reader (List α)
  | 0, _ => none
  | fuel + 1, text =>
    match skipSpace text with
    | c :: rest =>
      if c = close then some ([], rest)
      else if c = ',' then do
        let (value, rest) ← item (skipSpace rest)
        let (values, rest) ← readRest item close fuel rest
        return (value :: values, rest)
      else none
    | [] => none

/-- Reads the items of a container after its opening bracket. -/
def readAll {α : Type} (item : Reader α) (close : Char) : Reader (List α) := fun text =>
  match skipSpace text with
  | [] => none
  | c :: rest =>
    if c = close then some ([], rest)
    else do
      let (value, rest) ← item (c :: rest)
      let (values, rest) ← readRest item close (rest.length + 1) rest
      return (value :: values, rest)

/-- Reads a member of an object: a name, a colon and a value. -/
def readMember (value : Reader Json) : Reader (String × Json)
  | '"' :: text => do
    let (name, text) ← readString text
    match skipSpace text with
    | ':' :: text =>
      let (v, text) ← value (skipSpace text)
      return ((name, v), text)
    | _ => none
  | _ => none

/-- Reads a value that is nested at most `depth` levels deep. -/
def readValue : Nat → Reader Json
  | _, 'n' :: 'u' :: 'l' :: 'l' :: rest => some (.null, rest)
  | _, 't' :: 'r' :: 'u' :: 'e' :: rest => some (.bool true, rest)
  | _, 'f' :: 'a' :: 'l' :: 's' :: 'e' :: rest => some (.bool false, rest)
  | _, '"' :: rest => (readString rest).map fun (s, rest) => (.string s, rest)
  | depth + 1, '[' :: rest =>
    (readAll (readValue depth) ']' rest).map fun (items, rest) => (.array items, rest)
  | depth + 1, '\x7b' :: rest =>
    (readAll (readMember (readValue depth)) '\x7d' rest).map fun (members, rest) =>
      (.object members, rest)
  | _, text => (readNumber text).map fun (spelling, rest) => (.number spelling, rest)

/-- Reads a text that holds one value and blanks around it. -/
def parse? (depth : Nat) (text : List Char) : Option Json :=
  match readValue depth (skipSpace text) with
  | some (value, rest) => if (skipSpace rest).isEmpty then some value else none
  | none => none

/-- Whether a number has a double other than an infinity. -/
def inRange (spelling : String) : Bool :=
  ((Decimal.read? spelling.toList).map Binary64.isFinite).getD false

mutual

/-- Whether all numbers of a value are in range. -/
def numbersInRange : Json → Bool
  | .number spelling => inRange spelling
  | .array items => itemsInRange items
  | .object members => membersInRange members
  | _ => true

/-- Whether all numbers of the items are in range. -/
def itemsInRange : List Json → Bool
  | [] => true
  | item :: items => numbersInRange item && itemsInRange items

/-- Whether all numbers of the members are in range. -/
def membersInRange : List (String × Json) → Bool
  | [] => true
  | (_, value) :: members => numbersInRange value && membersInRange members

end

end Json

end ScriptTree
