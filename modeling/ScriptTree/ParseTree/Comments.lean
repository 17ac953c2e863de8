import ScriptTree.Comment.Basic
import ScriptTree.ParseTree.Cursor
import ScriptTree.ParseTree.Kind

/-!
# Comments in parse trees

The comment nodes of a tree in source order, as a walk through the whole tree meets them, the
documentation comment directly before a node, and the start of the first construct of a program.
-/
namespace ScriptTree.ParseTree

/-- Whether a node is a comment. -/
def isComment (t : ParseTree) : Bool :=
  (GrammarKind.ofName? t.label.kind).any GrammarKind.isComment

/-- All comments of a tree in source order. -/
def comments (t : ParseTree) : List ParseTree :=
  t.preorder.filter isComment

/-- The comments that a walk from a cursor on meets if it enters every subtree. -/
def Cursor.collect (c : Cursor) : List ParseTree :=
  match _ : c.next? true with
  | some next => [c.tree].filter isComment ++ next.collect
  | none => [c.tree].filter isComment
termination_by c.ahead.length
decreasing_by exact Cursor.length_ahead_of_next? ‹_›

/-- A walk meets all comments that lie ahead. -/
theorem Cursor.collect_eq (c : Cursor) : c.collect = c.ahead.filter isComment := by
  fun_induction collect c with
  | case1 c next step ih =>
    rw [ih, ahead_eq c, step, ← List.filter_append]
    rfl
  | case2 c step =>
    rw [ahead_eq c, step]
    rfl

/-- The comments that a walk through a whole tree meets. -/
def collectComments (root : ParseTree) : List ParseTree :=
  (Cursor.start root).collect

theorem collectComments_eq (root : ParseTree) : root.collectComments = root.comments := by
  rw [collectComments, Cursor.collect_eq, Cursor.ahead_start, comments]

/-- The comment that a node stands for. -/
def Label.comment (source : Source) (label : Label) : Comment :=
  { raw := String.ofList (source.slice label.span)
    span := label.span
    line := source.lineOf label }

/-- The comment of a node. -/
def toComment (source : Source) (t : ParseTree) : Comment :=
  t.label.comment source

/-- The documentation comment that stands directly before a node. -/
def Site.docComment? (source : Source) (s : Site) : Option ParseTree :=
  s.previous.filter fun p => p.isComment && Comment.isDocText (source.slice p.label.span)

/-- Where the first construct of a program starts. -/
def programStart? (root : ParseTree) : Option Nat :=
  (rootSite root).firstMember?.map fun s => s.span.start

end ScriptTree.ParseTree
