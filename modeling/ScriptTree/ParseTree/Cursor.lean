import ScriptTree.ParseTree.Basic

/-!
# Cursors

A cursor stands at a node of a tree and moves along one edge at a time: down to the first child, on
to the next sibling, or up. It never leaves the tree in which it has started. A walk goes from node
to node with `Cursor.next?`, into a subtree or past it; what lies ahead of it (`Cursor.ahead`)
shrinks with each step, so it comes to an end.
-/
namespace ScriptTree.ParseTree

theorem length_preorder_pos (t : ParseTree) : 0 < t.preorder.length := by
  cases t
  exact Nat.succ_pos _

/-- A place in a tree: the node there with its subtree, the siblings after it, and the nodes above
it, nearest first, each with the siblings after it. -/
structure Cursor where
  tree : ParseTree
  after : List ParseTree
  above : List (ParseTree × List ParseTree)

namespace Cursor

/-- The cursor at the root of a tree. -/
def start (root : ParseTree) : Cursor :=
  ⟨root, [], []⟩

/-- Goes to the first child. -/
def firstChild? (c : Cursor) : Option Cursor :=
  match c.tree.children with
  | [] => none
  | child :: others => some ⟨child, others, (c.tree, c.after) :: c.above⟩

/-- Goes to the next sibling. -/
def nextSibling? (c : Cursor) : Option Cursor :=
  match c.after with
  | [] => none
  | sibling :: others => some ⟨sibling, others, c.above⟩

/-- Goes to the parent. -/
def parent? (c : Cursor) : Option Cursor :=
  match c.above with
  | [] => none
  | (tree, after) :: above => some ⟨tree, after, above⟩

theorem length_above_of_parent? {c up : Cursor} (h : c.parent? = some up) :
    up.above.length < c.above.length := by
  unfold parent? at h
  split at h
  · cases h
  · next above =>
    cases h
    rw [above]
    exact Nat.lt_succ_self _

/-- Goes past the subtree: to the next sibling of the node or else, climbing, to that of the nearest
node above that has one. -/
def past? (c : Cursor) : Option Cursor :=
  match c.nextSibling? with
  | some sibling => some sibling
  | none =>
    match _ : c.parent? with
    | some up => up.past?
    | none => none
termination_by c.above.length
decreasing_by exact length_above_of_parent? ‹_›

/-- Goes to the next node, which is in the subtree if the cursor is to enter it and can. -/
def next? (enters : Bool) (c : Cursor) : Option Cursor :=
  (if enters then c.firstChild? else none).or c.past?

/-! ## What lies ahead -/

/-- The nodes after the subtree in preorder. -/
def beyond (c : Cursor) : List ParseTree :=
  forestPreorder c.after ++ c.above.flatMap fun up => forestPreorder up.2

/-- The nodes from the cursor on in preorder. -/
def ahead (c : Cursor) : List ParseTree :=
  c.tree.preorder ++ c.beyond

theorem ahead_start (root : ParseTree) : (start root).ahead = root.preorder := by
  simp [ahead, beyond, start, forestPreorder]

theorem ahead_of_firstChild? {c child : Cursor} (h : c.firstChild? = some child) :
    c.ahead = c.tree :: child.ahead := by
  obtain ⟨⟨label, children⟩, after, above⟩ := c
  cases children with
  | nil => cases h
  | cons first others =>
    cases h
    simp [ahead, beyond, preorder, forestPreorder]

theorem preorder_of_firstChild? {c : Cursor} (h : c.firstChild? = none) :
    c.tree.preorder = [c.tree] := by
  obtain ⟨⟨label, children⟩, after, above⟩ := c
  cases children with
  | nil => rfl
  | cons first others => cases h

/-- Past a subtree is what lies beyond it. -/
theorem beyond_eq (c : Cursor) : c.beyond = (c.past?.map ahead).getD [] := by
  fun_induction past? c with
  | case1 c sibling h =>
    obtain ⟨tree, after, above⟩ := c
    cases after with
    | nil => cases h
    | cons first others =>
      cases h
      simp [ahead, beyond, forestPreorder]
  | case2 c h up hup ih =>
    obtain ⟨tree, after, above⟩ := c
    cases after with
    | cons first others => cases h
    | nil =>
      cases above with
      | nil => cases hup
      | cons parent above =>
        cases hup
        rw [← ih]
        simp [beyond, forestPreorder]
  | case3 c h hup =>
    obtain ⟨tree, after, above⟩ := c
    cases after with
    | cons first others => cases h
    | nil =>
      cases above with
      | nil => rfl
      | cons parent above => cases hup

/-- A walk that enters every subtree leaves behind one node with each step. -/
theorem ahead_eq (c : Cursor) : c.ahead = c.tree :: ((c.next? true).map ahead).getD [] := by
  rw [next?, if_pos rfl]
  cases child : c.firstChild? with
  | some first => exact ahead_of_firstChild? child
  | none =>
    rw [Option.none_or, ← beyond_eq, ahead, preorder_of_firstChild? child]
    rfl

/-- A step leaves behind the node alone or its whole subtree. -/
theorem ahead_of_next? {enters : Bool} {c next : Cursor} (h : c.next? enters = some next) :
    c.ahead = c.tree :: next.ahead ∨ c.ahead = c.tree.preorder ++ next.ahead := by
  rcases Option.or_eq_some_iff.1 h with h | ⟨-, h⟩
  · split at h
    · exact .inl (ahead_of_firstChild? h)
    · cases h
  · exact .inr (by rw [ahead, beyond_eq, h, Option.map_some, Option.getD_some])

theorem length_ahead_of_next? {enters : Bool} {c next : Cursor} (h : c.next? enters = some next) :
    next.ahead.length < c.ahead.length := by
  rcases ahead_of_next? h with left | left <;> rw [left]
  · exact Nat.lt_succ_self _
  · rw [List.length_append]
    exact Nat.lt_add_of_pos_left c.tree.length_preorder_pos

end Cursor

/-! ## The first fault -/

/-- Whether the parser marked a node itself, as an error or as a missing token. -/
def isFault (t : ParseTree) : Bool :=
  t.label.error || t.label.missing

/-- The first error or missing token from a cursor on. Subtrees without a fault are not entered. -/
def Cursor.firstFault? (c : Cursor) : Option ParseTree :=
  if c.tree.isFault then some c.tree
  else
    match _ : c.next? c.tree.label.faulty with
    | some next => next.firstFault?
    | none => none
termination_by c.ahead.length
decreasing_by exact length_ahead_of_next? ‹_›

/-- The first error or missing token of a whole tree, which holds one only if it is marked so. -/
def fault? (root : ParseTree) : Option ParseTree :=
  if root.label.faulty then (Cursor.start root).firstFault? else none

end ScriptTree.ParseTree
