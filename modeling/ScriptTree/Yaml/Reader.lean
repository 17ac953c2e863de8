import ScriptTree.Yaml.Flow

/-!
# Reading YAML

The block form: tables with a name and a colon on each line, lists with a hyphen on each line, and
scalars, nested by their indentation. One document is read; tags, anchors and names of more than a
line are refused.
-/
namespace ScriptTree.Yaml

/-! ## Lines -/

/-- A place in a document: the text from the first character of a line that says something, and the
column in which that stands. -/
structure Cursor where
  column : Nat
  text : List Char
  deriving DecidableEq, Repr

/-- The text after the line that ends here, apart from a comment. -/
def endLine? (text : List Char) : Option (List Char) :=
  match text.dropWhile isGap with
  | [] => some []
  | '\n' :: rest => some rest
  | '#' :: rest =>
    if text.head? = some '#' then none else some ((rest.dropWhile (· != '\n')).drop 1)
  | _ => none

/-- The first line that says something. -/
def next : Nat → List Char → Cursor
  | 0, text => ⟨0, text⟩
  | fuel + 1, text =>
    let body := text.dropWhile (· == ' ')
    match body.dropWhile isGap with
    | [] => ⟨0, []⟩
    | '\n' :: rest => next fuel rest
    | '#' :: rest => next fuel ((rest.dropWhile (· != '\n')).drop 1)
    | _ => ⟨text.length - body.length, body⟩

/-- The first line that says something. -/
def cursor (text : List Char) : Cursor :=
  next (text.length + 1) text

/-- Whether an item of a list starts here. -/
def isItem : List Char → Bool
  | '-' :: rest => endsHere rest
  | _ => false

/-- A name at the start of a line, and the text after its colon. -/
def key? (text : List Char) : Option (List Char × List Char) := do
  let line := text.takeWhile (· != '\n')
  match ← readScalar false 0 line with
  | (.text _ name, rest) =>
    match rest.dropWhile isGap with
    | ':' :: rest =>
      if endsHere rest then some (name, rest ++ text.dropWhile (· != '\n')) else none
    | _ => none
  | _ => none

/-! ## Texts of whole lines -/

/-- The lines of a text without those that are indented less than `min`; blank lines stay. -/
def takeLines (min : Nat) : Nat → List Char → List (List Char) × List Char
  | 0, text => ([], text)
  | _, [] => ([], [])
  | fuel + 1, text =>
    let line := text.takeWhile (· != '\n')
    let rest := (text.dropWhile (· != '\n')).drop 1
    if line.all (· == ' ') then
      let (lines, rest) := takeLines min fuel rest
      ([] :: lines, rest)
    else if (line.takeWhile (· == ' ')).length < min then ([], text)
    else
      let (lines, rest) := takeLines min fuel rest
      (line.drop min :: lines, rest)

/-- Lines with the breaks between them folded; lines that are indented further keep theirs. -/
def foldLines : List (List Char) → List Char
  | [] => []
  | [line] => line
  | line :: following :: rest =>
    let keeps := line = [] ∨ line.head?.any isGap ∨ following = [] ∨ following.head?.any isGap
    line ++ (if keeps then (if following = [] then [] else ['\n']) else [' ']) ++
      foldLines (following :: rest)

/-- Reads a text of whole lines after the sign that opens it. -/
def readBlockText (folded : Bool) (min : Nat) (text : List Char) :
    Option (Setting × List Char) := do
  let marks := text.takeWhile fun c => c == '+' || c == '-' || c.isDigit
  if 2 < marks.length ∨ 1 < (marks.filter Char.isDigit).length then none
  let rest ← endLine? (text.drop marks.length)
  let first := cursor rest
  let own := match marks.find? Char.isDigit with
    | some d => min - 1 + (d.toNat - '0'.toNat)
    | none => max (max first.column min) 1
  let (lines, after) := takeLines own (rest.length + 1) rest
  let body := (lines.reverse.dropWhile (· == [])).reverse
  let joined := if folded then foldLines body else Text.join '\n' body
  let ending :=
    if marks.contains '-' then []
    else if marks.contains '+' then List.replicate (lines.length - body.length + 1) '\n'
    else if body = [] then [] else ['\n']
  return (.text false (joined ++ ending), after)

/-! ## Nodes -/

/-- Reads a node that starts in a line and is no table or list by lines. -/
def readInline (min : Nat) : List Char → Option (Setting × Cursor)
  | '|' :: rest => (readBlockText false min rest).map fun (s, rest) => (s, cursor rest)
  | '>' :: rest => (readBlockText true min rest).map fun (s, rest) => (s, cursor rest)
  | text => do
    let (s, rest) ← match text with
      | '[' :: _ | '\x7b' :: _ => readFlow 128 text
      | _ => readScalar false min text
    return (s, cursor (← endLine? rest))

mutual

/-- Reads the node at a cursor if it is indented by `min` or more. -/
def readNode (min : Nat) : Nat → Cursor → Option (Setting × Cursor)
  | 0, _ => none
  | fuel + 1, c =>
    if c.text = [] ∨ c.column < min then some (vacant, c)
    else if isItem c.text then
      (readBlockList c.column fuel c).map fun (items, c) => (.list items, c)
    else if (key? c.text).isSome then
      (readBlockTable c.column fuel c).map fun (members, c) => (.table members, c)
    else readInline min c.text

/-- Reads the items of a list that stand in a column. -/
def readBlockList (column : Nat) : Nat → Cursor → Option (List Setting × Cursor)
  | 0, _ => none
  | fuel + 1, c =>
    if c.text ≠ [] ∧ column < c.column then none
    else if c.column = column ∧ isItem c.text then do
      let body := c.text.drop 1
      let inner := body.dropWhile isGap
      let start := match endLine? body with
        | some rest => cursor rest
        | none => ⟨column + 1 + (body.length - inner.length), inner⟩
      let (item, c) ← readNode (column + 1) fuel start
      let (items, c) ← readBlockList column fuel c
      return (item :: items, c)
    else some ([], c)

/-- Reads the members of a table whose names stand in a column. A list in the same column may be the
value of a name. -/
def readBlockTable (column : Nat) :
    Nat → Cursor → Option (List (List Char × Setting) × Cursor)
  | 0, _ => none
  | fuel + 1, c =>
    if c.text ≠ [] ∧ column < c.column then none
    else if c.text ≠ [] ∧ c.column = column then do
      let (name, rest) ← key? c.text
      let (value, c) ← match endLine? rest with
        | some rest =>
          let c := cursor rest
          if c.column = column ∧ isItem c.text then
            (readBlockList column fuel c).map fun (items, c) => (Setting.list items, c)
          else readNode (column + 1) fuel c
        | none => readInline (column + 1) (rest.dropWhile isGap)
      let (members, c) ← readBlockTable column fuel c
      return ((name, value) :: members, c)
    else some ([], c)

end

/-! ## Documents -/

/-- Whether a character may stand in a document. -/
def isAllowed (c : Char) : Bool :=
  c == '\t' || c == '\n' || c == '\r' || c == '\u0085' ||
    (decide (0x20 ≤ c.toNat) && decide (c.toNat ≤ 0x7E)) ||
    (decide (0xA0 ≤ c.toNat) && decide (c.toNat ≤ 0xFFFD)) || decide (0x10000 ≤ c.toNat)

/-- A text with a line feed for each line break. -/
def unifyBreaks : List Char → List Char
  | [] => []
  | '\r' :: '\n' :: rest => '\n' :: unifyBreaks rest
  | '\r' :: rest => '\n' :: unifyBreaks rest
  | c :: rest => c :: unifyBreaks rest

/-- Whether a line is a marker between documents. -/
def isMarker (sign : Char) (line : List Char) : Bool :=
  line.take 3 == [sign, sign, sign] && endsHere (line.drop 3)

/-- Whether a line says nothing. -/
def isVacantLine (line : List Char) : Bool :=
  match line.dropWhile isGap with
  | [] => true
  | c :: _ => c == '#'

/-- The lines of a document up to its end; nothing may follow it. -/
def untilEnd? : List (List Char) → Option (List (List Char))
  | [] => some []
  | line :: rest =>
    if isMarker '-' line then none
    else if isMarker '.' line then if rest.all isVacantLine then some [] else none
    else (untilEnd? rest).map (line :: ·)

/-- What follows the marker of a document in its line, and the lines of the document. -/
def document? (text : List Char) : Option (List Char × List (List Char)) := do
  let lines := (Text.pieces '\n' text).dropWhile isVacantLine
  let isDirective (line : List Char) : Bool := line.head? == some '%'
  match lines.dropWhile fun line => isDirective line || isVacantLine line with
  | first :: rest =>
    if isMarker '-' first then
      return ((first.drop 3).dropWhile isGap, ← untilEnd? rest)
    else if lines.any isDirective then none
    else return ([], ← untilEnd? (first :: rest))
  | [] => if lines.any isDirective then none else return ([], [])

/-- Reads a text that holds one document. -/
def parse? (text : List Char) : Option Setting := do
  let text := if text.head? = some '\uFEFF' then text.drop 1 else text
  if !text.all isAllowed then none
  let (start, lines) ← document? (unifyBreaks text)
  let body := Text.join '\n' lines
  let (setting, rest) ←
    if isVacantLine start then readNode 0 (2 * text.length + 2) (cursor body)
    else readInline 0 (start ++ '\n' :: body)
  if rest.text = [] then some setting else none

end ScriptTree.Yaml
