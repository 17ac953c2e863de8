import ScriptTree.Proofs.Plan
import ScriptTree.Proofs.Sites

/-!
# Conforming trees

A parse tree conforms to the grammar if every phrase stands where the conversion of its parent reads
it (`ParseTree.Conforming`). Phrases are named nodes other than comments; what is below a leaf does
not count. A node is looked at together with the nodes above it (`Lineage`), which tell how many
entries of the identity table it is to have: one, or more for the short forms of properties.
-/
namespace ScriptTree

open ParseTree (Site)

/-! ## Kinds of nodes -/

namespace GrammarKind

/-- Names, keywords, numbers, strings and regular expressions. -/
def isLeaf : GrammarKind → Bool
  | keywordLiteral | identifier | propertyIdentifier | shorthandPropertyIdentifier
  | shorthandPropertyIdentifierPattern | statementIdentifier | undefined | number | string
  | regex => true
  | _ => false

/-- Kinds all of whose members are read. -/
def isList : GrammarKind → Bool
  | program | statementBlock | switchBody | arguments | formalParameters | object | objectPattern
  | array | arrayPattern | sequenceExpression => true
  | _ => false

/-- Kinds of which the declarators are read. -/
def isDeclaration : GrammarKind → Bool
  | variableDeclaration | lexicalDeclaration => true
  | _ => false

/-- Kinds with one part. -/
def isSingle : GrammarKind → Bool
  | expressionStatement | throwStatement | returnStatement | yieldExpression => true
  | kind => kind.isTransparent

/-- Lists that belong to the construct around them. -/
def isPassedThrough : GrammarKind → Bool
  | switchBody | formalParameters | arguments => true
  | _ => false

end GrammarKind

namespace ParseTree.Site

variable (s : Site)

/-- Whether the kind of a node is one of some kinds. -/
def hasKind (kinds : GrammarKind → Bool) : Bool :=
  (GrammarKind.ofName? s.kind).any kinds

/-- Whether a node is a phrase: named, and no comment. -/
def isPhrase : Bool :=
  s.label.named && !s.label.extra

/-- Whether a phrase has output nodes of its own. An interpreter line has none, and neither have
wrappers and the lists that belong to the construct around them. -/
def isEntered : Bool :=
  s.isPhrase && s.kind != "hash_bang_line" && !s.hasKind GrammarKind.isTransparent &&
    !s.hasKind GrammarKind.isPassedThrough

/-- The phrases among the children. -/
def phrases : List Site :=
  s.children.filter isPhrase

/-! ## Where phrases may stand -/

/-- The fields that the conversion of a node reads. The value in the head of a loop is read with its
declaration, and the function of a method from its parameters to its body. -/
def readFields : GrammarKind → List (String × FieldUse)
  | .forInStatement =>
    if (s.field? "left").isSome && (s.field? "kind").isSome then
      [("left", .first), ("value", .first), ("right", .first), ("body", .first)]
    else [("left", .first), ("right", .first), ("body", .first)]
  | .methodDefinition =>
    if (s.field? "parameters").isSome && (s.field? "body").isSome then
      [("name", .first), ("parameters", .inside), ("body", .first)]
    else [("name", .first)]
  | kind => kind.reads

/-- Whether the phrases in a field are read: there is one of them, which comes first, unless all are
read. A field that is read through holds a list. -/
def readsField : String × FieldUse → Bool
  | (_, .members) => true
  | (name, .firstMember) => decide ((s.fieldMembers name).length ≤ 1)
  | (name, .first) =>
    decide ((s.fieldMembers name).length ≤ 1) &&
      ((s.fieldMembers name).isEmpty || (s.field? name).any isPhrase)
  | (name, .inside) =>
    decide ((s.fieldMembers name).length ≤ 1) &&
      ((s.fieldMembers name).isEmpty || (s.field? name).any isPhrase) &&
      (s.field? name).all fun list =>
        list.hasKind GrammarKind.isPassedThrough || (!list.isPhrase && list.phrases.isEmpty)

/-- Whether the phrases in a node of a kind stand in the fields that its conversion reads. -/
def readsPhrases (kind : GrammarKind) : Bool :=
  (s.phrases.all fun c => (s.readFields kind).any fun read => c.label.field == some read.1) &&
    (s.readFields kind).all s.readsField

/-- Whether the phrases in a node of a kind stand where its conversion reads them. -/
def conformsAs (kind : GrammarKind) : Bool :=
  if kind.isLeaf || kind.isList then true
  else if kind.isDeclaration then s.phrases.all fun c => c.kind == "variable_declarator"
  else if kind.isSingle then decide (s.phrases.length ≤ 1)
  else s.readsPhrases kind

/-- Whether the phrases in a node stand where its conversion reads them. There are none in tokens and
comments. -/
def conforms : Bool :=
  (match GrammarKind.ofName? s.kind with
    | some kind => s.conformsAs kind
    | none => s.phrases.isEmpty) &&
  (s.isPhrase || s.hasKind GrammarKind.isLeaf || s.phrases.isEmpty)

end ParseTree.Site

/-! ## Nodes and the nodes above them -/

/-- A node with the nodes above it, nearest first. -/
structure Lineage where
  site : Site
  above : List Site

namespace ParseTree

mutual

/-- The nodes of a tree with the nodes above them, without those below a leaf. -/
def lineagesFrom (previous : Option ParseTree) (above : List Site) : ParseTree → List Lineage
  | node label children =>
    let s : Site := ⟨node label children, previous⟩
    ⟨s, above⟩ :: if s.hasKind GrammarKind.isLeaf then [] else forestLineages none (s :: above) children

/-- The nodes of the trees of a list with the nodes above them, without those below a leaf. -/
def forestLineages (previous : Option ParseTree) (above : List Site) :
    List ParseTree → List Lineage
  | [] => []
  | tree :: trees => lineagesFrom previous above tree ++ forestLineages (some tree) above trees

end

/-- A site and the sites below it with those above them, without those below a leaf. -/
def Site.lineages (s : Site) (above : List Site) : List Lineage :=
  lineagesFrom s.previous above s.tree

/-- The nodes below the root of a program with the nodes above them, without those below a leaf. -/
def lineages (root : ParseTree) : List Lineage :=
  forestLineages none [rootSite root] root.children

/-- Whether all phrases of a program stand where the conversion reads them. -/
def Conforming (root : ParseTree) : Prop :=
  root.label.kind = "program" ∧ ∀ l ∈ root.lineages, l.site.conforms

instance (root : ParseTree) : Decidable root.Conforming :=
  inferInstanceAs (Decidable (_ ∧ _))

theorem forestLineages_eq (previous : Option ParseTree) (above : List Site)
    (trees : List ParseTree) :
    forestLineages previous above trees =
      (sitesAfter previous trees).flatMap (·.lineages above) := by
  induction trees generalizing previous with
  | nil => rfl
  | cons tree trees ih => rw [forestLineages, ih, sitesAfter, List.flatMap_cons, Site.lineages]

theorem Site.lineages_eq (s : Site) (above : List Site) :
    s.lineages above =
      ⟨s, above⟩ :: if s.hasKind GrammarKind.isLeaf then [] else
        s.children.flatMap (·.lineages (s :: above)) := by
  obtain ⟨⟨label, children⟩, previous⟩ := s
  rw [lineages, lineagesFrom, forestLineages_eq]
  rfl

end ParseTree

/-! ## Short forms of properties -/

namespace Lineage

/-- Whether a name stands for a whole property of an object or of a pattern. -/
def isShorthand : Lineage → Bool
  | ⟨s, parent :: _⟩ =>
    parent.kind == "object" && s.kind == "shorthand_property_identifier" ||
      parent.kind == "object_pattern" && s.kind == "shorthand_property_identifier_pattern"
  | ⟨_, []⟩ => false

/-- Whether a name with a default value stands for a whole property of a pattern. -/
def isShorthandDefault : Lineage → Bool
  | ⟨s, parent :: _⟩ =>
    parent.kind == "object_pattern" && s.kind == "object_assignment_pattern" &&
      (s.field? "left").any fun left => left.kind == "shorthand_property_identifier_pattern"
  | ⟨_, []⟩ => false

/-- Whether a node is the name that stands with its default value for a property. -/
def isDefaultName : Lineage → Bool
  | ⟨s, parent :: above⟩ => s.label.field == some "left" && isShorthandDefault ⟨parent, above⟩
  | ⟨_, []⟩ => false

/-- The number of entries of the identity table for a node: a property, its key and its value for a
name that stands for a property. With a default value there are the property and the pattern that is
its value for the whole, and the key and the target of the pattern for the name. -/
def entries (l : Lineage) : Nat :=
  if l.isShorthand then 3 else if l.isShorthandDefault || l.isDefaultName then 2 else 1

/-- The entries of a node as the node itself, once for each of them. -/
def share (l : Lineage) : List Site :=
  (List.replicate l.entries l.site).filter Site.isEntered

end Lineage

end ScriptTree
