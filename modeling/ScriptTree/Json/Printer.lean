import ScriptTree.Json.Basic

/-!
# Writing JSON

The text of a JSON value on one line, or with one item to a line and two spaces of indentation.
Quotes, backslashes and control characters are escaped; all other characters stand for themselves.
-/
namespace ScriptTree.Json

/-- How the items of a container are laid out. -/
inductive Layout where
  | compact
  | indented
  deriving DecidableEq, Repr

/-- The start of a line at a depth of nesting. -/
def Layout.newline : Layout → Nat → List Char
  | .compact, _ => []
  | .indented, depth => '\n' :: List.replicate (2 * depth) ' '

/-- What stands between a name and its value. -/
def Layout.colon : Layout → List Char
  | .compact => [':']
  | .indented => [':', ' ']

/-- A hexadecimal digit in lower case. -/
def hexDigit (n : Nat) : Char :=
  Nat.digitChar (n % 16)

/-- One character inside quotes. -/
def escapeChar (c : Char) : List Char :=
  if c = '"' then ['\\', '"']
  else if c = '\\' then ['\\', '\\']
  else if 0x20 ≤ c.toNat then [c]
  else if c = '\n' then ['\\', 'n']
  else if c = '\r' then ['\\', 'r']
  else if c = '\t' then ['\\', 't']
  else if c.toNat = 0x08 then ['\\', 'b']
  else if c.toNat = 0x0C then ['\\', 'f']
  else ['\\', 'u', '0', '0', hexDigit (c.toNat / 16), hexDigit c.toNat]

/-- A text in quotes. -/
def quote (text : List Char) : List Char :=
  '"' :: text.flatMap escapeChar ++ ['"']

mutual

/-- The text of a value that stands at a depth of nesting. -/
def render (layout : Layout) (depth : Nat) : Json → List Char
  | .null => "null".toList
  | .bool true => "true".toList
  | .bool false => "false".toList
  | .number spelling => spelling.toList
  | .string s => quote s.toList
  | .array [] => ['[', ']']
  | .array (item :: items) =>
    '[' :: layout.newline (depth + 1) ++ render layout (depth + 1) item ++
      renderItems layout (depth + 1) items ++ layout.newline depth ++ [']']
  | .object [] => ['\x7b', '\x7d']
  | .object ((name, value) :: members) =>
    '\x7b' :: layout.newline (depth + 1) ++ quote name.toList ++ layout.colon ++
      render layout (depth + 1) value ++ renderMembers layout (depth + 1) members ++
      layout.newline depth ++ ['\x7d']

/-- The further items of an array, each after a comma. -/
def renderItems (layout : Layout) (depth : Nat) : List Json → List Char
  | [] => []
  | item :: items =>
    ',' :: layout.newline depth ++ render layout depth item ++ renderItems layout depth items

/-- The further members of an object, each after a comma. -/
def renderMembers (layout : Layout) (depth : Nat) : List (String × Json) → List Char
  | [] => []
  | (name, value) :: members =>
    ',' :: layout.newline depth ++ quote name.toList ++ layout.colon ++ render layout depth value ++
      renderMembers layout depth members

end

/-- The text of a value. -/
def print (layout : Layout) (value : Json) : String :=
  String.ofList (render layout 0 value)

end ScriptTree.Json
