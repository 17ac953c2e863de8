import ScriptTree.Config.Setting
import ScriptTree.Number.Decimal

/-!
# YAML scalars

A scalar stands in double quotes with escapes, in single quotes, or plain. It may go on over several
lines: one line break is a space, and of several all but one stay.
-/
namespace ScriptTree.Yaml

/-- Whether a character is a space or a tab. -/
def isGap (c : Char) : Bool :=
  c == ' ' || c == '\t'

/-- Whether a character is a space, a tab or a line break. -/
def isWhite (c : Char) : Bool :=
  isGap c || c == '\n'

/-- Whether nothing, or something white, comes next. -/
def endsHere : List Char → Bool
  | [] => true
  | c :: _ => isWhite c

/-- The text for a run of white characters inside a scalar. -/
def foldRun (run : List Char) : List Char :=
  let breaks := run.count '\n'
  if breaks = 0 then run
  else if breaks = 1 then [' ']
  else List.replicate (breaks - 1) '\n'

/-- The character that a backslash and one character stand for. -/
def shortEscape? : Char → Option Char
  | '0' => some '\x00'
  | 'a' => some '\x07'
  | 'b' => some '\x08'
  | 't' | '\t' => some '\t'
  | 'n' => some '\n'
  | 'v' => some '\x0b'
  | 'f' => some '\x0c'
  | 'r' => some '\r'
  | 'e' => some '\x1b'
  | ' ' => some ' '
  | '"' => some '"'
  | '/' => some '/'
  | '\\' => some '\\'
  | 'N' => some '\u0085'
  | '_' => some '\u00a0'
  | 'L' => some '\u2028'
  | 'P' => some '\u2029'
  | _ => none

/-- The number of hexadecimal digits after a backslash and a letter. -/
def codeWidth? : Char → Option Nat
  | 'x' => some 2
  | 'u' => some 4
  | 'U' => some 8
  | _ => none

/-- The character of a code in so many hexadecimal digits. -/
def codePoint? (width : Nat) (text : List Char) : Option Char := do
  let ds ← (text.take width).mapM (Decimal.digitValue? 16)
  let n := ds.foldl (fun n d => n * 16 + d) 0
  if ds.length = width ∧ n.isValidChar then some (Char.ofNat n) else none

/-- A reader of one value at the start of a text. -/
abbrev Reader (α : Type) := List Char → Option (α × List Char)

/-- Reads a scalar in double quotes after the first of them. -/
def readDouble : Nat → Reader (List Char)
  | 0, _ | _, [] => none
  | fuel + 1, c :: rest =>
    if c = '"' then some ([], rest)
    else if c = '\\' then
      match rest with
      | [] => none
      | '\n' :: rest => readDouble fuel (rest.dropWhile isGap)
      | e :: rest =>
        match shortEscape? e, codeWidth? e with
        | some x, _ => (readDouble fuel rest).map fun (text, rest) => (x :: text, rest)
        | none, some width => do
          let x ← codePoint? width rest
          let (text, rest) ← readDouble fuel (rest.drop width)
          return (x :: text, rest)
        | none, none => none
    else if isWhite c then
      let run := c :: rest.takeWhile isWhite
      (readDouble fuel (rest.dropWhile isWhite)).map fun (text, rest) =>
        (foldRun run ++ text, rest)
    else (readDouble fuel rest).map fun (text, rest) => (c :: text, rest)

/-- Reads a scalar in single quotes after the first of them; a quote in it is written twice. -/
def readSingle : Nat → Reader (List Char)
  | 0, _ | _, [] => none
  | fuel + 1, c :: rest =>
    if c = '\'' then
      match rest with
      | '\'' :: rest => (readSingle fuel rest).map fun (text, rest) => ('\'' :: text, rest)
      | rest => some ([], rest)
    else if isWhite c then
      let run := c :: rest.takeWhile isWhite
      (readSingle fuel (rest.dropWhile isWhite)).map fun (text, rest) =>
        (foldRun run ++ text, rest)
    else (readSingle fuel rest).map fun (text, rest) => (c :: text, rest)

/-- Whether a character has a meaning in lists and tables in brackets. -/
def isBracket (c : Char) : Bool :=
  c == ',' || c == '[' || c == ']' || c == '\x7b' || c == '\x7d'

/-- Whether a plain scalar can start here. -/
def startsPlain (bracketed : Bool) : List Char → Bool
  | [] => false
  | '-' :: rest => !endsHere rest && !(bracketed && rest.head?.any isBracket)
  | c :: rest =>
    if c = '?' ∨ c = ':' then !bracketed && !endsHere rest
    else !isWhite c && !isBracket c &&
      !(['#', '&', '*', '!', '|', '>', '\'', '"', '%', '@', '\x60'].contains c)

/-- The indentation after the last line break of a run of white characters. -/
def lastIndent (run : List Char) : Nat :=
  (run.reverse.takeWhile (· != '\n')).length

/-- Reads a plain scalar. It goes on over lines that are indented by `min` or more, and ends before
a comment, before a colon with something white after it, and in brackets at any of their signs. -/
def readPlain (bracketed : Bool) (min : Nat) : Nat → List Char → List Char × List Char
  | 0, text => ([], text)
  | _, [] => ([], [])
  | fuel + 1, c :: rest =>
    if c = ':' ∧ endsHere rest ∨ bracketed ∧ isBracket c then ([], c :: rest)
    else if isWhite c then
      let run := c :: rest.takeWhile isWhite
      let after := rest.dropWhile isWhite
      let stays := run.contains '\n' && !bracketed && decide (lastIndent run < min)
      if after.head? = some '#' ∨ stays then ([], c :: rest)
      else
        match readPlain bracketed min fuel after with
        | ([], _) => ([], c :: rest)
        | (text, rest) => (foldRun run ++ text, rest)
    else
      let (text, rest) := readPlain bracketed min fuel rest
      (c :: text, rest)

/-- Reads a scalar of any kind. -/
def readScalar (bracketed : Bool) (min : Nat) : Reader Setting
  | '"' :: rest => (readDouble (rest.length + 1) rest).map fun (s, rest) => (.text false s, rest)
  | '\'' :: rest => (readSingle (rest.length + 1) rest).map fun (s, rest) => (.text false s, rest)
  | text =>
    if startsPlain bracketed text then
      let (s, rest) := readPlain bracketed min (text.length + 1) text
      some (.text true s, rest)
    else none

end ScriptTree.Yaml
