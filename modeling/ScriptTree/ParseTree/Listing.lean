import ScriptTree.Json.Basic
import ScriptTree.ParseTree.Basic

/-!
# Listed parse trees

A parse tree as the list of its nodes in preorder, each with the number of its children. The
identity of a node is its place in the list; positions are left to be counted in the source.
-/
namespace ScriptTree.ParseTree

/-- A node of a listed tree. The marks are added up: 1 for a named node, 2 for an extra one, 4 for
an error, 8 for a missing token, 16 for a subtree with a fault. -/
structure Entry where
  kind : String
  marks : Nat
  start : Nat
  stop : Nat
  childCount : Nat
  field : Option String
  deriving DecidableEq, Repr

/-- The label of an entry at a place of the list. -/
def Entry.label (e : Entry) (id : Nat) : Label :=
  { kind := e.kind
    named := e.marks.testBit 0
    extra := e.marks.testBit 1
    error := e.marks.testBit 2
    missing := e.marks.testBit 3
    faulty := e.marks.testBit 4
    span := ⟨e.start, e.stop⟩
    position := none
    id := id
    field := e.field }

/-- Puts an entry above the trees of the entries after it: the first of them are its children. -/
def Entry.gather (entry : Entry × Nat) (trees : List ParseTree) : List ParseTree :=
  .node (entry.1.label entry.2) (trees.take entry.1.childCount) ::
    trees.drop entry.1.childCount

/-- Reads an entry: its kind, its marks, its two places, the number of its children and, if it has
one, its field. -/
def Entry.ofJson? : Json → Option Entry
  | .array (.string kind :: marks :: start :: stop :: count :: rest) => do
    return ⟨kind, ← marks.nat?, ← start.nat?, ← stop.nat?, ← count.nat?,
      rest.head?.bind Json.string?⟩
  | _ => none

/-- The tree of a list, if the list holds exactly one. -/
def ofListing? (entries : List Entry) : Option ParseTree :=
  match entries.zipIdx.foldr Entry.gather [] with
  | [tree] => some tree
  | _ => none

/-- Reads a listed tree. -/
def ofJson? : Json → Option ParseTree
  | .array entries => (entries.mapM Entry.ofJson?).bind ofListing?
  | _ => none

end ScriptTree.ParseTree
