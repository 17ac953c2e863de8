import ScriptTree.Text.Source

/-!
# Parse trees

The tree that a parser makes of a source text: every token and every phrase is a node with the name
of its grammar rule. A node is looked at together with the sibling before it (`ParseTree.Site`); the
ways to its children are filters of one list, `Site.children`.
-/
namespace ScriptTree

/-- What is known of a node of a parse tree apart from its children. A named node is a phrase or a
word with a rule of its own, an anonymous one a fixed token; extra nodes are comments, which may
stand anywhere; `faulty` tells that the subtree holds an error or a missing token. The position is
where the node starts, as the parser has counted it; a tree may do without. -/
structure ParseTree.Label where
  kind : String
  named : Bool
  extra : Bool
  error : Bool
  missing : Bool
  faulty : Bool
  span : Span
  position : Option Position
  id : Nat
  field : Option String
  deriving DecidableEq, Repr

/-- A node of a parse tree with its subtree. -/
inductive ParseTree where
  | node (label : ParseTree.Label) (children : List ParseTree)

namespace ParseTree

/-- The label of the root. -/
def label : ParseTree → Label
  | node label _ => label

/-- The children of the root in source order. -/
def children : ParseTree → List ParseTree
  | node _ children => children

mutual

/-- The number of levels of a tree. -/
def height : ParseTree → Nat
  | node _ children => forestHeight children + 1

/-- The number of levels of the highest tree of a list. -/
def forestHeight : List ParseTree → Nat
  | [] => 0
  | tree :: trees => max (height tree) (forestHeight trees)

end

mutual

/-- All nodes of a tree, parents before their children and those from left to right. -/
def preorder : ParseTree → List ParseTree
  | node label children => node label children :: forestPreorder children

/-- All nodes of the trees of a list. -/
def forestPreorder : List ParseTree → List ParseTree
  | [] => []
  | tree :: trees => preorder tree ++ forestPreorder trees

end

/-- A node where it stands: with the sibling directly before it, if there is one. -/
structure Site where
  tree : ParseTree
  previous : Option ParseTree

/-- The trees of a list, each with the one before it. -/
def sitesAfter : Option ParseTree → List ParseTree → List Site
  | _, [] => []
  | previous, tree :: trees => ⟨tree, previous⟩ :: sitesAfter (some tree) trees

/-- The site of a root. -/
def rootSite (tree : ParseTree) : Site :=
  ⟨tree, none⟩

namespace Site

/-- The label of the node. -/
def label (s : Site) : Label := s.tree.label

/-- The name of the node's grammar rule, or the text of a fixed token. -/
def kind (s : Site) : String := s.label.kind

/-- The place of the node. -/
def span (s : Site) : Span := s.label.span

/-- The identity of the node. -/
def id (s : Site) : Nat := s.label.id

/-- The children where they stand. -/
def children (s : Site) : List Site :=
  sitesAfter none s.tree.children

/-- The named children that take part in the phrase: neither comments nor an interpreter line. -/
def members (s : Site) : List Site :=
  s.children.filter fun c => c.label.named && !c.label.extra && c.kind != "hash_bang_line"

/-- All children but comments. -/
def tokens (s : Site) : List Site :=
  s.children.filter fun c => !c.label.extra

/-- The first member. -/
def firstMember? (s : Site) : Option Site :=
  s.members.head?

/-- The first child in a field. -/
def field? (s : Site) (name : String) : Option Site :=
  s.children.find? fun c => c.label.field == some name

/-- The named children in a field, without comments. -/
def fieldMembers (s : Site) (name : String) : List Site :=
  s.children.filter fun c => c.label.field == some name && c.label.named && !c.label.extra

/-- Whether a fixed token is among the children. -/
def hasToken (s : Site) (token : String) : Bool :=
  s.tokens.any fun c => !c.label.named && c.kind == token

end Site

mutual

/-- All nodes of a tree where they stand, in preorder. -/
def preorderSites (previous : Option ParseTree) : ParseTree → List Site
  | node label children =>
    ⟨node label children, previous⟩ :: forestSites none children

/-- All nodes of the trees of a list where they stand. -/
def forestSites (previous : Option ParseTree) : List ParseTree → List Site
  | [] => []
  | tree :: trees => preorderSites previous tree ++ forestSites (some tree) trees

end

end ParseTree

namespace Source

variable (source : Source) (label : ParseTree.Label)

/-- Where a node starts: the position that the tree has, or else the one that its place has in the
source. -/
def positionOf : Position :=
  label.position.getD (source.position label.span.start)

/-- The line on which a node starts, counted from one. -/
def lineOf : Nat :=
  1 + (source.positionOf label).row

/-- The column at which a node starts, counted from one. -/
def columnOf : Nat :=
  1 + (source.positionOf label).column

end Source

end ScriptTree
