import ScriptTree.Number.Shortest

/-!
# JSON values

A JSON text as a tree. A number keeps its spelling, so that what is written is exactly what is read
back; an object keeps its members in order, repeated names included.
-/
namespace ScriptTree

/-- A JSON value. -/
inductive Json where
  | null
  | bool (value : Bool)
  | number (spelling : String)
  | string (value : String)
  | array (items : List Json)
  | object (members : List (String × Json))
  deriving Repr

namespace Json

/-- A natural number. -/
def ofNat (n : Nat) : Json :=
  .number (toString n)

/-- A double in shortest decimal text; infinities and no number are `null`. -/
def ofBinary64 (x : Binary64) : Json :=
  match x.toText? with
  | some text => .number text
  | none => .null

/-- An optional value, `null` for none. -/
def ofOption : Option Json → Json
  | some value => value
  | none => .null

/-- The value of a member; of several with one name the last counts. -/
def field? (name : String) : Json → Option Json
  | .object members => (members.reverse.find? (·.1 == name)).map (·.2)
  | _ => none

/-- The text of a string value. -/
def string? : Json → Option String
  | .string s => some s
  | _ => none

/-- The value of a natural number in plain digits. -/
def nat? : Json → Option Nat
  | .number spelling => spelling.toNat?
  | _ => none

/-- The items of an array. -/
def items? : Json → Option (List Json)
  | .array items => some items
  | _ => none

end Json

end ScriptTree
