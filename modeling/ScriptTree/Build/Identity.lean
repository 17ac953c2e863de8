import ScriptTree.Text.Source

/-!
# The identity table

Where each node of the output comes from: an entry for every node, in the order in which their
conversion begins.
-/
namespace ScriptTree

/-- The origin of an output node: the grammar rule, the identity of the parse tree node if there is
one, its place, and the identity of the documentation comment before it. -/
structure Origin where
  kind : String
  treeId : Option Nat
  span : Span
  line : Nat
  doc : Option Nat
  deriving DecidableEq, Repr

/-- What stands in for an entry that is not in the table. -/
def Origin.missing : Origin :=
  ⟨"", none, ⟨0, 0⟩, 0, none⟩

/-- The origins of the nodes of one build. -/
structure IdentityTable where
  origins : Array Origin
  deriving DecidableEq, Repr

namespace IdentityTable

/-- The table of a build that has not started. -/
def empty : IdentityTable := ⟨#[]⟩

/-- The number of entries. -/
def size (t : IdentityTable) : Nat :=
  t.origins.size

/-- Adds an entry: its place, and the table that holds it. -/
def register (t : IdentityTable) (origin : Origin) : Nat × IdentityTable :=
  (t.size, ⟨t.origins.push origin⟩)

/-- The entry at a place. -/
def origin? (t : IdentityTable) (place : Nat) : Option Origin :=
  t.origins[place]?

end IdentityTable

end ScriptTree
