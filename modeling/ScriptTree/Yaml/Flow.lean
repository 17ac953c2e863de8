import ScriptTree.Yaml.Scalar

/-!
# YAML in brackets

Lists in square brackets and tables in braces. Items are separated by commas, of which one may
follow the last. A name without a value has an empty one, and a pair in a list is a table of its
own.
-/
namespace ScriptTree.Yaml

/-- The text after white characters and comments. -/
def skipWhite : Nat → List Char → List Char
  | 0, text => text
  | fuel + 1, text =>
    match text.dropWhile isWhite with
    | '#' :: rest =>
      if text.head? = some '#' then '#' :: rest
      else skipWhite fuel (rest.dropWhile (· != '\n'))
    | rest => rest

/-- The text after white characters and comments. -/
def skip (text : List Char) : List Char :=
  skipWhite text.length text

/-- The setting of nothing. -/
def vacant : Setting :=
  .text true []

/-- Reads the value after a colon, which may be missing. -/
def readAfterColon (node : Reader Setting) (text : List Char) : Option (Setting × List Char) :=
  match skip text with
  | [] => none
  | c :: rest =>
    if c = ',' ∨ c = ']' ∨ c = '\x7d' then some (vacant, c :: rest) else node (c :: rest)

/-- Reads the items of a list up to its bracket. -/
def readList (node : Reader Setting) : Nat → Reader (List Setting)
  | 0, _ => none
  | fuel + 1, text =>
    match skip text with
    | ']' :: rest => some ([], rest)
    | text => do
      let (first, rest) ← node text
      let (item, rest) ← match skip rest, first with
        | ':' :: rest, .text _ name =>
          (readAfterColon node rest).map fun (value, rest) =>
            (Setting.table [(name, value)], rest)
        | rest, first => some (first, rest)
      match skip rest with
      | ']' :: rest => return ([item], rest)
      | ',' :: rest =>
        let (items, rest) ← readList node fuel rest
        return (item :: items, rest)
      | _ => none

/-- Reads the pairs of a table up to its brace. -/
def readTable (node : Reader Setting) : Nat → Reader (List (List Char × Setting))
  | 0, _ => none
  | fuel + 1, text =>
    match skip text with
    | '\x7d' :: rest => some ([], rest)
    | text => do
      match ← node text with
      | (.text _ name, rest) =>
        let (value, rest) ← match skip rest with
          | ':' :: rest => readAfterColon node rest
          | rest => some (vacant, rest)
        match skip rest with
        | '\x7d' :: rest => return ([(name, value)], rest)
        | ',' :: rest =>
          let (members, rest) ← readTable node fuel rest
          return ((name, value) :: members, rest)
        | _ => none
      | _ => none

/-- Reads a list, a table or a scalar that stands in brackets. -/
def readFlow : Nat → Reader Setting
  | 0, _ => none
  | depth + 1, '[' :: rest =>
    (readList (readFlow depth) (rest.length + 1) rest).map fun (items, rest) => (.list items, rest)
  | depth + 1, '\x7b' :: rest =>
    (readTable (readFlow depth) (rest.length + 1) rest).map fun (members, rest) =>
      (.table members, rest)
  | _, text => readScalar true 0 text

end ScriptTree.Yaml
