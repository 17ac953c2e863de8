import ScriptTree.Number.Decimal
import ScriptTree.Text.Pieces

/-!
# TOML values without parts

Strings in one of four kinds of quotes, and words: booleans, numbers, dates and times. Of a word
only its form matters here.
-/
namespace ScriptTree.Toml

/-- Whether a character is a space or a tab. -/
def isGap (c : Char) : Bool :=
  c == ' ' || c == '\t'

/-- Whether a character may stand for itself in a string or a comment: no control character but the
tab. -/
def isPlain (c : Char) : Bool :=
  c == '\t' || (decide (0x20 ≤ c.toNat) && c.toNat != 0x7F)

/-- The text after a line break, if one comes next. -/
def lineBreak? : List Char → Option (List Char)
  | '\n' :: rest => some rest
  | '\r' :: '\n' :: rest => some rest
  | _ => none

/-! ## Strings -/

/-- A reader of one value at the start of a text. -/
abbrev Reader (α : Type) := List Char → Option (α × List Char)

/-- The character that a backslash and a letter stand for. -/
def shortEscape? : Char → Option Char
  | 'b' => some '\x08'
  | 't' => some '\t'
  | 'n' => some '\n'
  | 'f' => some '\x0c'
  | 'r' => some '\r'
  | '"' => some '"'
  | '\\' => some '\\'
  | _ => none

/-- The character of a code in hexadecimal digits. -/
def codePoint? (digits : List Char) : Option Char := do
  let ds ← digits.mapM (Decimal.digitValue? 16)
  let n := ds.foldl (fun n d => n * 16 + d) 0
  if n.isValidChar then some (Char.ofNat n) else none

/-- Reads what follows a backslash. -/
def readEscape : Reader Char
  | 'u' :: rest =>
    if rest.length < 4 then none else (codePoint? (rest.take 4)).map (·, rest.drop 4)
  | 'U' :: rest =>
    if rest.length < 8 then none else (codePoint? (rest.take 8)).map (·, rest.drop 8)
  | c :: rest => (shortEscape? c).map (·, rest)
  | [] => none

/-- Reads a string in double quotes after the first of them. -/
def readBasic : Nat → Reader (List Char)
  | 0, _ | _, [] => none
  | fuel + 1, c :: rest =>
    if c = '"' then some ([], rest)
    else if c = '\\' then do
      let (e, rest) ← readEscape rest
      let (text, rest) ← readBasic fuel rest
      return (e :: text, rest)
    else if isPlain c then (readBasic fuel rest).map fun (text, rest) => (c :: text, rest)
    else none

/-- Reads a string in single quotes after the first of them. -/
def readLiteral : Reader (List Char)
  | [] => none
  | c :: rest =>
    if c = '\'' then some ([], rest)
    else if isPlain c then (readLiteral rest).map fun (text, rest) => (c :: text, rest)
    else none

/-- Reads the quotes that end a string of several lines; up to two more belong to the string. -/
def readClosing? (quote : Char) (text : List Char) : Option (List Char × List Char) :=
  let quotes := (text.takeWhile (· == quote)).length
  if quotes < 3 then none
  else
    let extra := min (quotes - 3) 2
    some (List.replicate extra quote, text.drop (extra + 3))

/-- The text after a backslash at the end of a line: blanks and line breaks say nothing. -/
def skipFolded : Nat → List Char → List Char
  | 0, text => text
  | fuel + 1, text =>
    match lineBreak? text, text with
    | some rest, _ => skipFolded fuel rest
    | none, c :: rest => if isGap c then skipFolded fuel rest else c :: rest
    | none, [] => []

/-- Reads a string of several lines after the quotes that open it; in double quotes a backslash
starts an escape. -/
def readLines (quote : Char) : Nat → Reader (List Char)
  | 0, _ => none
  | fuel + 1, text =>
    match readClosing? quote text, lineBreak? text, text with
    | some (extra, rest), _, _ => some (extra, rest)
    | none, some rest, _ => (readLines quote fuel rest).map fun (more, rest) => ('\n' :: more, rest)
    | none, none, [] => none
    | none, none, c :: rest =>
      if c = '\\' ∧ quote = '"' then
        match lineBreak? (rest.dropWhile isGap) with
        | some _ => readLines quote fuel (skipFolded rest.length rest)
        | none => do
          let (e, rest) ← readEscape rest
          let (more, rest) ← readLines quote fuel rest
          return (e :: more, rest)
      else if isPlain c then (readLines quote fuel rest).map fun (more, rest) => (c :: more, rest)
      else none

/-- Reads a string of one line or of several. -/
def readString : Reader (List Char)
  | '"' :: '"' :: '"' :: rest =>
    let body := (lineBreak? rest).getD rest
    readLines '"' (body.length + 1) body
  | '\'' :: '\'' :: '\'' :: rest =>
    let body := (lineBreak? rest).getD rest
    readLines '\'' (body.length + 1) body
  | '"' :: rest => readBasic (rest.length + 1) rest
  | '\'' :: rest => readLiteral rest
  | _ => none

/-! ## Words -/

/-- Whether digits of a class stand with single underscores between them. -/
def isGrouped (isDigit : Char → Bool) (text : List Char) : Bool :=
  (Text.pieces '_' text).all fun group => !group.isEmpty && group.all isDigit

/-- A text without a sign in front. -/
def unsigned : List Char → List Char
  | '+' :: rest => rest
  | '-' :: rest => rest
  | text => text

/-- Whether a text is digits without a zero in front of others. -/
def isWhole (text : List Char) : Bool :=
  isGrouped Char.isDigit text && (text == ['0'] || text.head? != some '0')

/-- The number that digits write. -/
def valueOf (base : Nat) (digits : List Char) : Nat :=
  digits.foldl (fun n d => n * base + (Decimal.digitValue? base d).getD 0) 0

/-- Whether digits of a base, with single underscores, write a number below a limit. -/
def isInteger (base limit : Nat) (text : List Char) : Bool :=
  isGrouped (fun c => (Decimal.digitValue? base c).isSome) text &&
    decide (valueOf base (text.filter (· != '_')) < limit)

/-- Whether a text is a power of ten, without its letter. -/
def isPower (text : List Char) : Bool :=
  isGrouped Char.isDigit (unsigned text)

/-- Whether a text is a number with a fraction or a power of ten. -/
def isFloat (text : List Char) : Bool :=
  let whole := text.takeWhile fun c => c.isDigit || c == '_'
  let fraction (t : List Char) : Bool :=
    let digits := t.takeWhile fun c => c.isDigit || c == '_'
    isGrouped Char.isDigit digits &&
      match t.drop digits.length with
      | [] => true
      | c :: power => (c == 'e' || c == 'E') && isPower power
  isWhole whole &&
    match text.drop whole.length with
    | '.' :: rest => fraction rest
    | c :: power => (c == 'e' || c == 'E') && isPower power
    | [] => false

/-- The magnitude of the least integer of 64 bits. -/
def signLimit : Nat := 0x8000000000000000

/-- Whether a text is a number. -/
def isNumber (text : List Char) : Bool :=
  match text with
  | '0' :: 'x' :: digits => isInteger 16 signLimit digits
  | '0' :: 'o' :: digits => isInteger 8 signLimit digits
  | '0' :: 'b' :: digits => isInteger 2 signLimit digits
  | _ =>
    let digits := unsigned text
    let limit := if text.head? = some '-' then signLimit + 1 else signLimit
    digits == "inf".toList || digits == "nan".toList || isFloat digits ||
      (isWhole digits && isInteger 10 limit digits)

/-- The number of days of a month. -/
def daysOf (year month : Nat) : Nat :=
  if month = 2 then
    if year % 4 = 0 ∧ (year % 100 ≠ 0 ∨ year % 400 = 0) then 29 else 28
  else if month = 4 ∨ month = 6 ∨ month = 9 ∨ month = 11 then 30
  else 31

/-- The number of exactly so many digits. -/
def field? (width : Nat) (text : List Char) : Option Nat :=
  if text.length = width ∧ text.all Char.isDigit then some (valueOf 10 text) else none

/-- Whether a text is a date. -/
def isDate (text : List Char) : Bool :=
  match (Text.pieces '-' text) with
  | [year, month, day] =>
    match field? 4 year, field? 2 month, field? 2 day with
    | some y, some m, some d =>
      decide (1 ≤ m) && decide (m ≤ 12) && decide (1 ≤ d) && decide (d ≤ daysOf y m)
    | _, _, _ => false
  | _ => false

/-- Whether a text is a number of so many digits below a limit. -/
def isBelow (limit width : Nat) (text : List Char) : Bool :=
  ((field? width text).map (decide <| · < limit)).getD false

/-- Whether a text is a time of day. -/
def isTime (text : List Char) : Bool :=
  match Text.pieces ':' text with
  | [hour, minute, second] =>
    let fraction := match second.drop 2 with
      | [] => true
      | '.' :: digits => !digits.isEmpty && digits.all Char.isDigit
      | _ => false
    isBelow 24 2 hour && isBelow 60 2 minute && isBelow 61 2 (second.take 2) && fraction
  | _ => false

/-- Whether a text is the offset of a time zone. -/
def isOffset : List Char → Bool
  | [] => true
  | ['Z'] | ['z'] => true
  | c :: rest =>
    (c == '+' || c == '-') &&
      match Text.pieces ':' rest with
      | [hour, minute] => isBelow 24 2 hour && isBelow 60 2 minute
      | _ => false

/-- Whether a text is a date, a time, or a date and a time with or without an offset. -/
def isMoment (text : List Char) : Bool :=
  isDate text || isTime text ||
    (isDate (text.take 10) &&
      match text.drop 10 with
      | c :: rest =>
        let time := rest.takeWhile fun c => c.isDigit || c == ':' || c == '.'
        (c == 'T' || c == 't' || c == ' ') && isTime time && isOffset (rest.drop time.length)
      | [] => false)

/-- Whether a text is a value without quotes. -/
def isWord (text : List Char) : Bool :=
  text == "true".toList || text == "false".toList || isNumber text || isMoment text

/-- Whether a character may stand in a value without quotes. -/
def isWordChar (c : Char) : Bool :=
  c.isAlphanum || c == '+' || c == '-' || c == '_' || c == '.' || c == ':'

/-- Reads a value without quotes. A date may be followed by a space and a time. -/
def readWord (text : List Char) : Option (List Char) :=
  let word := text.takeWhile isWordChar
  let rest := text.dropWhile isWordChar
  match isDate word, rest with
  | true, ' ' :: c :: more =>
    if c.isDigit then
      let time := (c :: more).takeWhile isWordChar
      if isWord (word ++ ' ' :: time) then some (more.drop (time.length - 1)) else none
    else some rest
  | _, _ => if isWord word then some rest else none

end ScriptTree.Toml
