import ScriptTree.Comment.Basic

/-!
# The comment registry

The comments of one build, each under the identity of its node in the parse tree. A documentation
comment is handed out once at most, to the node that it documents; those never handed out remain
with the root.
-/
namespace ScriptTree

/-- A recorded comment, and whether a node has taken it. -/
structure CommentEntry where
  id : Nat
  comment : Comment
  attached : Bool
  deriving DecidableEq, Repr

/-- Whether a comment may still be handed out. -/
def CommentEntry.isFree (e : CommentEntry) : Bool :=
  e.comment.isDoc && !e.attached

/-- The comments recorded so far, in order; no two entries have one identity. -/
structure CommentRegistry where
  entries : List CommentEntry
  deriving DecidableEq, Repr

namespace CommentRegistry

/-- The registry of a build that has not started. -/
def empty : CommentRegistry := ⟨[]⟩

/-- The number of recorded comments. -/
def size (r : CommentRegistry) : Nat :=
  r.entries.length

/-- The place of an identity in the order of recording. -/
def index? (r : CommentRegistry) (id : Nat) : Option Nat :=
  r.entries.findIdx? (·.id == id)

/-- The entry of an identity. -/
def find? (r : CommentRegistry) (id : Nat) : Option CommentEntry :=
  r.entries.find? (·.id == id)

/-- Records a comment: its place, and the registry that holds it. A known identity keeps its first
comment and its place. -/
def record (r : CommentRegistry) (id : Nat) (comment : Comment) : Nat × CommentRegistry :=
  match r.index? id with
  | some index => (index, r)
  | none => (r.size, ⟨r.entries ++ [⟨id, comment, false⟩]⟩)

/-- The registry in which the comment of an identity has been taken. -/
def mark (r : CommentRegistry) (id : Nat) : CommentRegistry :=
  ⟨r.entries.map fun e => if e.id == id then { e with attached := true } else e⟩

/-- Hands out the documentation comment of an identity, the first time it is asked for. -/
def attach (r : CommentRegistry) (id : Nat) : Option Comment × CommentRegistry :=
  match r.find? id with
  | some e => if e.isFree then (some e.comment, r.mark id) else (none, r)
  | none => (none, r)

/-- All comments in the order of recording. -/
def all (r : CommentRegistry) : List Comment :=
  r.entries.map (·.comment)

/-- The documentation comments that no node has taken. -/
def free (r : CommentRegistry) : List Comment :=
  (r.entries.filter CommentEntry.isFree).map (·.comment)

/-- Whether a comment stands before a place; none does if there is no place. -/
def leads (start : Option Nat) (c : Comment) : Bool :=
  start.any (fun s => decide (c.span.start < s))

/-- The documentation comments that no node has taken: those before the start of the program's first
construct, and the others. -/
def unattached (r : CommentRegistry) (start : Option Nat) : List Comment × List Comment :=
  r.free.partition (leads start)

end CommentRegistry

end ScriptTree
