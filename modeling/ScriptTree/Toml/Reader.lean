import ScriptTree.Toml.Basic
import ScriptTree.Toml.Scalar

/-!
# Reading TOML

A document is read line by line: headers, pairs of a key and a value, and comments. Values in
brackets may take several lines, and nest no deeper than a limit.
-/
namespace ScriptTree.Toml

/-- The text after spaces and tabs. -/
def skipGap (text : List Char) : List Char :=
  text.dropWhile isGap

/-- The text after a comment, if its characters are plain. -/
def skipComment? : List Char → Option (List Char)
  | '#' :: rest =>
    let comment := rest.takeWhile isPlain
    let after := rest.dropWhile isPlain
    if after = [] ∨ (lineBreak? after).isSome then some (rest.drop comment.length) else none
  | text => some text

/-- The text after spaces, line breaks and comments. -/
def skipLines : Nat → List Char → Option (List Char)
  | 0, text => some text
  | fuel + 1, text => do
    let text ← skipComment? (skipGap text)
    match lineBreak? text with
    | some rest => skipLines fuel rest
    | none => some text

/-- The text after the line that ends here, apart from a comment. -/
def endLine? (text : List Char) : Option (List Char) := do
  match ← skipComment? (skipGap text) with
  | [] => some []
  | rest => lineBreak? rest

/-! ## Keys -/

/-- Whether a character may stand in a key without quotes. -/
def isKeyChar (c : Char) : Bool :=
  c.isAlphanum || c == '-' || c == '_'

/-- Reads one name of a key. -/
def readName : Reader (List Char)
  | '"' :: rest => readBasic (rest.length + 1) rest
  | '\'' :: rest => readLiteral rest
  | text =>
    let name := text.takeWhile isKeyChar
    if name.isEmpty then none else some (name, text.drop name.length)

/-- Reads a key: names with points between them. -/
def readKey : Nat → Reader KeyPath
  | 0, _ => none
  | fuel + 1, text => do
    let (name, rest) ← readName (skipGap text)
    match skipGap rest with
    | '.' :: rest =>
      let (names, rest) ← readKey fuel rest
      return (name :: names, rest)
    | rest => return ([name], rest)

/-- Reads a key and the equals sign after it. -/
def readAssigned (text : List Char) : Option (KeyPath × List Char) := do
  match ← readKey (text.length + 1) text with
  | (path, '=' :: rest) => return (path, skipGap rest)
  | _ => none

/-! ## Values -/

/-- Reads the items of a list up to its bracket; a comma may follow the last. -/
def readItems (item : Reader Toml) : Nat → Reader (List Toml)
  | 0, _ => none
  | fuel + 1, text => do
    match ← skipLines text.length text with
    | ']' :: rest => return ([], rest)
    | text =>
      let (value, rest) ← item text
      match ← skipLines rest.length rest with
      | ']' :: rest => return ([value], rest)
      | ',' :: rest =>
        let (values, rest) ← readItems item fuel rest
        return (value :: values, rest)
      | _ => none

/-- Reads the pairs of a table in braces, on one line, up to its brace. -/
def readPairs (item : Reader Toml) (t : Toml) : Nat → Reader Toml
  | 0, _ => none
  | fuel + 1, text => do
    let (path, rest) ← readAssigned text
    let (value, rest) ← item rest
    let t ← t.add path value
    match skipGap rest with
    | '\x7d' :: rest => return (t, rest)
    | ',' :: rest => readPairs item t fuel rest
    | _ => none

/-- A table that nothing can be added to. -/
def close : Toml → Toml
  | .table _ _ members => .inline members
  | t => t

/-- Reads a value that nests at most `depth` levels deep. -/
def readValue : Nat → Reader Toml
  | 0, _ => none
  | depth + 1, '[' :: rest =>
    (readItems (readValue depth) (rest.length + 1) rest).map fun (items, rest) =>
      (.list items, rest)
  | depth + 1, '\x7b' :: rest =>
    match skipGap rest with
    | '\x7d' :: rest => some (.inline [], rest)
    | rest =>
      (readPairs (readValue depth) empty (rest.length + 1) rest).map fun (t, rest) =>
        (t.close, rest)
  | _, '"' :: rest => (readString ('"' :: rest)).map fun (s, rest) => (.string s, rest)
  | _, '\'' :: rest => (readString ('\'' :: rest)).map fun (s, rest) => (.string s, rest)
  | _, text => (readWord text).map fun rest => (.other, rest)

/-- The levels to which values may be nested. -/
def depthLimit : Nat := 80

/-! ## Documents -/

/-- Reads a header after its bracket: the path of its table and whether it is one of a list. -/
def readHeader (text : List Char) : Option (KeyPath × Bool × List Char) := do
  match text with
  | '[' :: rest =>
    match ← readKey (rest.length + 1) rest with
    | (path, ']' :: ']' :: rest) => return (path, true, rest)
    | _ => none
  | rest =>
    match ← readKey (rest.length + 1) rest with
    | (path, ']' :: rest) => return (path, false, rest)
    | _ => none

/-- Opens the table of a header. -/
def openTable (path : KeyPath) (isListed : Bool) (t : Toml) : Option Toml := do
  let name ← path.getLast?
  t.within false (if isListed then append name else define name) path.dropLast

/-- Reads the lines of a document; pairs belong to the table at a path. -/
def readBody : Nat → KeyPath → Toml → List Char → Option Toml
  | 0, _, _, _ => none
  | fuel + 1, current, t, text => do
    match ← skipLines text.length text with
    | [] => return t
    | '[' :: rest =>
      let (path, isListed, rest) ← readHeader rest
      readBody fuel path (← openTable path isListed t) (← endLine? rest)
    | text =>
      let (path, rest) ← readAssigned text
      let (value, rest) ← readValue depthLimit rest
      readBody fuel current (← t.within false (·.add path value) current) (← endLine? rest)

/-- Reads a document. -/
def parse? (text : List Char) : Option Toml :=
  let text := if text.head? = some '\uFEFF' then text.drop 1 else text
  readBody (text.length + 1) [] empty text

end ScriptTree.Toml
