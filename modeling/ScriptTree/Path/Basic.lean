import ScriptTree.Text.Pieces
import ScriptTree.Text.Utf8

/-!
# File paths

A path is a list of octets with a slash between its parts. Empty parts and parts of one dot say
nothing, apart from a dot at the very start; what is left are the components, by which paths are
compared and ordered. `ancestors` lists a path and what is left when components are taken away from
its end one by one.
-/
namespace ScriptTree

/-- A path as its octets. -/
structure Path where
  octets : List UInt8
  deriving DecidableEq, Repr, Inhabited

namespace Path

/-- The octet between the parts of a path. -/
def slash : UInt8 := 0x2F

/-- The octet before an extension. -/
def dot : UInt8 := 0x2E

/-- The path that a text writes. -/
def ofText (text : List Char) : Path :=
  ⟨Utf8.encode text⟩

/-- The text of a path; malformed octets become replacement characters. -/
def toText (p : Path) : List Char :=
  Utf8.decodeLossy p.octets

/-- Whether a path starts at the root. -/
def isAbsolute (p : Path) : Bool :=
  p.octets.head? == some slash

/-- A path taken from another one: an absolute path stays, any other is put after a slash. -/
def join (base p : Path) : Path :=
  if p.isAbsolute then p
  else if base.octets = [] ∨ base.octets.getLast? = some slash then ⟨base.octets ++ p.octets⟩
  else ⟨base.octets ++ slash :: p.octets⟩

/-- A path with octets added to its last part. -/
def extend (p : Path) (octets : List UInt8) : Path :=
  ⟨p.octets ++ octets⟩

/-! ## Components -/

/-- A step of a path. -/
inductive Component where
  | root
  | here
  | up
  | name (octets : List UInt8)
  deriving DecidableEq, Repr

/-- Whether a part says nothing. -/
def isVacant (part : List UInt8) : Bool :=
  part == [] || part == [dot]

/-- The step that a part stands for. -/
def component? (part : List UInt8) : Option Component :=
  if isVacant part then none
  else if part = [dot, dot] then some .up
  else some (.name part)

/-- The steps of a path. -/
def components (p : Path) : List Component :=
  let parts := Text.pieces slash p.octets
  let start : List Component :=
    if p.isAbsolute then [.root] else if parts.head? = some [dot] then [.here] else []
  start ++ parts.filterMap component?

/-- The name of the file or directory at the end of a path. -/
def fileName? (p : Path) : Option (List UInt8) :=
  match p.components.getLast? with
  | some (.name octets) => some octets
  | _ => none

/-- What follows the last dot of the name, unless the name starts with that dot. -/
def extension? (p : Path) : Option (List UInt8) := do
  let parts := Text.pieces dot (← p.fileName?)
  if parts.length < 2 ∨ parts.dropLast = [[]] then none else parts.getLast?

/-! ## Order -/

/-- Two steps in the order of paths: the root, the two kinds of dots, then names by octets. -/
def Component.compare : Component → Component → Ordering
  | .name a, .name b => List.compareLex Ord.compare a b
  | a, b => Ord.compare (rank a) (rank b)
where
  /-- The place of a kind of step. -/
  rank : Component → Nat
    | .root => 0
    | .here => 1
    | .up => 2
    | .name _ => 3

/-- Two paths, step by step; a path comes before those that go on from it. -/
def compare (p q : Path) : Ordering :=
  List.compareLex Component.compare p.components q.components

/-- Whether a path stands before another one or at its place. -/
def isAtMost (p q : Path) : Bool :=
  (compare p q).isLE

/-- Paths in order, each once; of paths with the same steps the first one stays. -/
def sortedSet (paths : List Path) : List Path :=
  distinct (paths.mergeSort isAtMost)
where
  /-- Paths without those that have the steps of the one before. -/
  distinct : List Path → List Path
    | [] => []
    | [p] => [p]
    | p :: q :: rest =>
      match distinct (q :: rest) with
      | [] => [p]
      | next :: others => if p.components = q.components then p :: others else p :: next :: others

/-! ## What lies above a path -/

/-- The parts that are left, from the end, when the parts that say something are taken away one by
one. -/
def shrink : List (List UInt8) → List (List (List UInt8))
  | [] => []
  | part :: rest =>
    if isVacant part then shrink rest else rest.dropWhile isVacant :: shrink rest

/-- A path, its parent, the parent of that, and so on. -/
def ancestors (p : Path) : List Path :=
  let ofParts (start : List (List UInt8)) (reversed : List (List UInt8)) : Path :=
    ⟨Text.join slash (start ++ reversed.reverse)⟩
  match Text.pieces slash p.octets with
  | [] :: body =>
    if p.isAbsolute then p :: (shrink body.reverse).map fun reversed =>
      ⟨slash :: Text.join slash reversed.reverse⟩
    else [p]
  | [0x2E] :: body => p :: (shrink body.reverse).map (ofParts [[dot]]) ++ [⟨[]⟩]
  | parts => p :: (shrink parts.reverse).map (ofParts [])

/-- The path without its last step. -/
def parent? (p : Path) : Option Path :=
  p.ancestors[1]?

end Path

end ScriptTree
