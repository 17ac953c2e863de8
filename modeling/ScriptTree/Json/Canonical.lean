import ScriptTree.Json.Basic
import ScriptTree.Number.Decimal

/-!
# Canonical values

The canonical form of a value has the members of each object in the order of their names, each name
once, and each number in one spelling: an integer of 64 bits in plain digits, any other number as
its double.
-/
namespace ScriptTree.Json

/-- The canonical spelling of a number. -/
def canonicalNumber (spelling : String) : Json :=
  match spelling.toInt? with
  | some n => if isPlain ∧ least ≤ n ∧ n < limit then .number (toString n) else double
  | none => double
where
  /-- Whether the spelling has digits only, and is not that of a negative zero. -/
  isPlain : Bool :=
    spelling.toList.all (fun c => c.isDigit || c == '-') && spelling != "-0"
  /-- The least integer of 64 bits. -/
  least : Int := -0x8000000000000000
  /-- The first number above the integers of 64 bits. -/
  limit : Int := 0x10000000000000000
  /-- The number as a double. -/
  double : Json :=
    match Decimal.read? spelling.toList with
    | some x => .ofBinary64 x
    | none => .number spelling

/-- Whether a member's name comes before another one's or is the same. -/
def isAtMost (a b : String × Json) : Bool :=
  a.1 ≤ b.1

/-- Members of which each name counts once, the last one of it; the list is in order. -/
def lastOfEach : List (String × Json) → List (String × Json)
  | [] => []
  | [member] => [member]
  | member :: next :: rest =>
    if member.1 = next.1 then lastOfEach (next :: rest) else member :: lastOfEach (next :: rest)

mutual

/-- The canonical form of a value. -/
def canonical : Json → Json
  | .null => .null
  | .bool b => .bool b
  | .number spelling => canonicalNumber spelling
  | .string s => .string s
  | .array items => .array (canonicalItems items)
  | .object members => .object (lastOfEach ((canonicalMembers members).mergeSort isAtMost))

/-- The canonical forms of items. -/
def canonicalItems : List Json → List Json
  | [] => []
  | item :: items => canonical item :: canonicalItems items

/-- The canonical forms of members, in their order. -/
def canonicalMembers : List (String × Json) → List (String × Json)
  | [] => []
  | (name, value) :: members => (name, canonical value) :: canonicalMembers members

end

end ScriptTree.Json
