import ScriptTree.Proofs.Extras
import ScriptTree.Proofs.Faults

/-!
# Redundant parentheses

An expression can be put into any number of parentheses (`ParseTree.Parenthesized`). No construct
looks at an expression before it hands it on to be converted, and the conversion opens wrappers, so
the two trees are converted in parallel: they make the same nodes apart from spans and lines, or
fail in the same way (`parentheses_never_change_the_tree`). Where a construct does look at a child,
at its kind, its members or its text, no expression stands (`all_operandFields`).
-/
namespace ScriptTree

open ParseTree (Site Label)

/-! ## Where expressions stand -/

namespace GrammarKind

/-- The fields of a construct in which expressions stand. -/
def operandFields : GrammarKind → List String
  | variableDeclarator | switchStatement | switchCase | pair | pairPattern => ["value"]
  | ifStatement | whileStatement | doStatement => ["condition"]
  | forStatement => ["initializer", "condition", "increment"]
  | forInStatement => ["value", "right"]
  | withStatement => ["object"]
  | assignmentPattern | objectAssignmentPattern => ["right"]
  | assignmentExpression | augmentedAssignmentExpression | binaryExpression => ["left", "right"]
  | unaryExpression | updateExpression => ["argument"]
  | ternaryExpression => ["condition", "consequence", "alternative"]
  | callExpression => ["function"]
  | newExpression => ["constructor"]
  | memberExpression => ["object"]
  | subscriptExpression => ["object", "index"]
  | _ => []

/-- The constructs whose members are expressions. What is in a construct beyond the language level
never matters. -/
def holdsOperands : GrammarKind → Bool
  | expressionStatement | returnStatement | throwStatement | yieldExpression | arguments | array
  | sequenceExpression | parenthesizedExpression | computedPropertyName | unsupported => true
  | _ => false

/-- Whether an expression stands in a construct as a child in a field, or in none. -/
def isOperandPosition (kind : GrammarKind) (field : Option String) : Bool :=
  kind.holdsOperands || field.any kind.operandFields.contains

/-- Constructs hand on their expressions without looking at them. -/
theorem all_operandFields (kind : GrammarKind) :
    (kind.holdsOperands → kind.looksAt = [] ∧ kind.looksAtMembers = false) ∧
      (kind.looksAtMembers → kind.operandFields = []) ∧
      kind.operandFields.all (fun name => !kind.looksAt.contains name) = true := by
  cases kind <;> decide

theorem looksAt_of_isOperandPosition {kind : GrammarKind} {name : String}
    (h : kind.isOperandPosition (some name) = true) : kind.looksAt.contains name = false := by
  obtain ⟨holds, -, fields⟩ := kind.all_operandFields
  rcases Bool.or_eq_true_iff.1 h with h | h
  · rw [(holds h).1]
    rfl
  · rw [Option.any_some, List.contains_iff_mem] at h
    simpa using List.all_eq_true.1 fields name h

theorem looksAtMembers_of_isOperandPosition {kind : GrammarKind} {field : Option String}
    (h : kind.isOperandPosition field = true) : kind.looksAtMembers = false := by
  obtain ⟨holds, members, -⟩ := kind.all_operandFields
  rcases Bool.or_eq_true_iff.1 h with h | h
  · exact (holds h).2
  · by_contra looks
    rw [members (by simpa using looks)] at h
    cases field <;> cases h

end GrammarKind

/-! ## Parentheses -/

/-- A pair of parentheses: where they stand and where the parser has counted them, with the
identities of their nodes. -/
structure Parens where
  id : Nat
  span : Span
  opening : Nat
  closing : Nat
  first : Option Position
  last : Option Position
  deriving DecidableEq, Repr

/-- The opening parenthesis of a pair. -/
def Parens.openingToken (p : Parens) : ParseTree :=
  .node ⟨"(", false, false, false, false, false, ⟨p.span.start, p.span.start + 1⟩, p.first,
    p.opening, none⟩ []

/-- The closing parenthesis of a pair. -/
def Parens.closingToken (p : Parens) : ParseTree :=
  .node ⟨")", false, false, false, false, false, ⟨p.span.stop - 1, p.span.stop⟩, p.last,
    p.closing, none⟩ []

namespace ParseTree

/-- A tree that stands in a field, or in none. -/
def inField (field : Option String) : ParseTree → ParseTree
  | node label children => node { label with field } children

/-- A tree in a pair of parentheses. -/
def inParens (p : Parens) (t : ParseTree) : ParseTree :=
  .node ⟨"parenthesized_expression", true, false, false, false, false, p.span, p.first, p.id, none⟩
    [p.openingToken, t, p.closingToken]

/-- A tree in nested parentheses, the outermost first. -/
def nested (ps : List Parens) (t : ParseTree) : ParseTree :=
  ps.foldr inParens t

/-- An expression in nested parentheses, which stand in the field of the expression. -/
def parenthesize (ps : List Parens) (e : ParseTree) : ParseTree :=
  (nested ps (e.inField none)).inField e.label.field

/-- Each pair of parentheses holds what is in it. -/
def Enclosed (e : ParseTree) : List Parens → Prop
  | [] => True
  | p :: ps => p.span.contains (nested ps (e.inField none)).label.span = true ∧ Enclosed e ps

/-- Whether a node may be an expression: it takes part in the phrase, and is not a comment. -/
def isOperand (t : ParseTree) : Bool :=
  t.label.named && !t.label.extra && t.label.kind != "hash_bang_line" && !t.isComment

/-- An expression between its siblings in a construct, with parentheses that have room there. There
is no documentation comment directly before the expression. -/
structure Enclosable (source : Source) (label : Label) (before : List ParseTree) (e : ParseTree)
    (after : List ParseTree) (ps : List Parens) : Prop where
  position : (GrammarKind.ofName? label.kind).any (·.isOperandPosition e.label.field) = true
  operand : e.isOperand = true
  undocumented : Site.docComment? source ⟨e, before.getLast?⟩ = none
  range : e.label.span.start ≤ e.label.span.stop
  enclosed : e.Enclosed ps
  left : ∀ t ∈ before, t.label.span.stop ≤ (parenthesize ps e).label.span.start
  right : ∀ t ∈ after, (parenthesize ps e).label.span.stop ≤ t.label.span.start

/-- The second tree is the first one with one expression, at any depth, in any number of
parentheses. -/
inductive Parenthesized (source : Source) : ParseTree → ParseTree → Prop
  | here {label : Label} (before : List ParseTree) {e : ParseTree} (after : List ParseTree)
      {ps : List Parens} (h : Enclosable source label before e after ps) :
      Parenthesized source (node label (before ++ e :: after))
        (node label (before ++ parenthesize ps e :: after))
  | inside {label : Label} (before : List ParseTree) {t t' : ParseTree} (after : List ParseTree)
      (h : Parenthesized source t t') :
      Parenthesized source (node label (before ++ t :: after)) (node label (before ++ t' :: after))

theorem inField_label (field : Option String) (t : ParseTree) :
    (t.inField field).label = { t.label with field } := by
  cases t
  rfl

@[simp] theorem inField_children (field : Option String) (t : ParseTree) :
    (t.inField field).children = t.children := by
  cases t
  rfl

@[simp] theorem inField_self (t : ParseTree) : t.inField t.label.field = t := by
  cases t
  rfl

theorem isOperand_iff {t : ParseTree} : t.isOperand = true ↔
    t.label.named = true ∧ t.label.extra = false ∧ t.label.kind ≠ "hash_bang_line" ∧
      t.isComment = false := by
  simp [isOperand, and_assoc]

@[simp] theorem isOperand_inField (field : Option String) (t : ParseTree) :
    (t.inField field).isOperand = t.isOperand := by
  cases t
  rfl

/-- What is in parentheses may be an expression again. -/
theorem isOperand_nested (ps : List Parens) {t : ParseTree} (h : t.isOperand = true) :
    (nested ps t).isOperand = true := by
  cases ps with
  | nil => exact h
  | cons p ps =>
    have parens : (inParens ⟨0, ⟨0, 0⟩, 0, 0, none, none⟩ (token 0 0 0 "")).isOperand = true := by
      decide
    exact parens

theorem isOperand_parenthesize (ps : List Parens) {e : ParseTree} (h : e.isOperand = true) :
    (parenthesize ps e).isOperand = true := by
  rw [parenthesize, isOperand_inField]
  exact isOperand_nested ps ((isOperand_inField none e).trans h)

@[simp] theorem parenthesize_field (ps : List Parens) (e : ParseTree) :
    (parenthesize ps e).label.field = e.label.field := by
  rw [parenthesize, inField_label]

theorem Enclosed.contains {e : ParseTree} {ps : List Parens} (h : e.Enclosed ps) :
    (parenthesize ps e).label.span.contains e.label.span = true := by
  rw [parenthesize, inField_label]
  show (nested ps (e.inField none)).label.span.contains e.label.span = true
  induction ps with
  | nil =>
    rw [nested, List.foldr_nil, inField_label]
    simp [Span.contains]
  | cons p ps ih =>
    have inner := ih h.2
    have outer := h.1
    simp only [Span.contains, Bool.and_eq_true, decide_eq_true_eq] at inner outer ⊢
    exact ⟨Nat.le_trans outer.1 inner.1, Nat.le_trans inner.2 outer.2⟩

/-- A node with a text of its own stands before an expression if and only if it stands before the
parentheses around it. -/
theorem Enclosable.leading {source : Source} {label : Label} {before after : List ParseTree}
    {e : ParseTree} {ps : List Parens} (h : Enclosable source label before e after ps)
    {b : ParseTree} (hb : b ∈ before ++ e :: after) (other : b.label.field ≠ e.label.field)
    (long : b.label.span.start < b.label.span.stop) :
    b.label.span.start < e.label.span.start ↔
      b.label.span.start < (parenthesize ps e).label.span.start := by
  have inner := h.enclosed.contains
  have range := h.range
  simp only [Span.contains, Bool.and_eq_true, decide_eq_true_eq] at inner
  rcases List.mem_append.1 hb with hb | hb
  · have := h.left b hb
    omega
  rcases List.mem_cons.1 hb with rfl | hb
  · exact absurd rfl other
  · have := h.right b hb
    omega

theorem Parenthesized.label {source : Source} {t t' : ParseTree} (h : t.Parenthesized source t') :
    t.label = t'.label := by
  cases h <;> rfl

/-! ## Sites that differ in parentheses -/

namespace Site

/-- The identity of the documentation comment directly before a node. -/
def docId? (source : Source) (s : Site) : Option Nat :=
  (s.docComment? source).map (·.label.id)

/-- Only the label of the node before a site matters for its comment. -/
theorem docId?_congr (source : Source) (t t' : ParseTree) {p p' : ParseTree}
    (h : p.label = p'.label) :
    docId? source ⟨t, some p⟩ = docId? source ⟨t', some p'⟩ := by
  simp only [docId?, docComment?, Option.filter_some, isComment, h]
  split
  · exact congrArg (fun label : Label => some label.id) h
  · rfl

/-- Nothing is documented by what is not a comment. -/
theorem docId?_of_not_comment (source : Source) (t : ParseTree) {p : ParseTree}
    (h : p.isComment = false) : docId? source ⟨t, some p⟩ = none := by
  simp [docId?, docComment?, h]

/-- Two sites below which one expression at most has been put into parentheses. -/
structure Same (source : Source) (s s' : Site) : Prop where
  label : s.label.outOfField = s'.label.outOfField
  doc : s.docId? source = s'.docId? source
  tree : s.tree.children = s'.tree.children ∨ s.tree.Parenthesized source s'.tree

/-- An expression without a documentation comment, and the same expression in parentheses. -/
structure Wrapped (source : Source) (s s' : Site) (ps : List Parens) : Prop where
  tree : s'.tree = parenthesize ps s.tree
  operand : s.tree.isOperand = true
  doc : s.docId? source = none
  doc' : s'.docId? source = none

/-- Two sites that are handed on to be converted. -/
def HandedOn (source : Source) (s s' : Site) : Prop :=
  s.Same source s' ∨ ∃ ps, s.Wrapped source s' ps

/-- Children of a site, and of the site with parentheses below it. -/
inductive Beside (source : Source) (s : Site) : Site → Site → Prop
  | same {c c' : Site} (label : c.label = c'.label) (h : c.Same source c') : Beside source s c c'
  | wrapped {c c' : Site} {ps : List Parens}
      (position : (GrammarKind.ofName? s.kind).any (·.isOperandPosition c.label.field) = true)
      (h : c.Wrapped source c' ps)
      (leading : ∀ b ∈ s.children, b.label.field ≠ c.label.field → b.span.start < b.span.stop →
        (b.span.start < c.span.start ↔ b.span.start < c'.span.start)) : Beside source s c c'

variable {source : Source} {s s' : Site}

theorem Same.refl (source : Source) (s : Site) : s.Same source s :=
  ⟨rfl, rfl, .inl rfl⟩

/-- What is in a pair of parentheses is their only member. -/
theorem members_inParens (p : Parens) {t : ParseTree} (operand : t.isOperand = true)
    (field : Option String) (previous : Option ParseTree) :
    members ⟨(inParens p t).inField field, previous⟩ =
      [⟨t, some p.openingToken⟩] := by
  obtain ⟨named, extra, kind, -⟩ := isOperand_iff.1 operand
  have opening : p.openingToken.label.named = false := rfl
  have closing : p.closingToken.label.named = false := rfl
  show List.filter _ (sitesAfter none [p.openingToken, t, p.closingToken]) = _
  simp [sitesAfter, Site.label, Site.kind, opening, closing, named, extra, kind]

/-- Parentheses are opened until the expression is left. -/
theorem nested_unwraps (source : Source) (ps : List Parens) {t : ParseTree}
    (operand : t.isOperand = true) (field : Option String) (previous : Option ParseTree)
    (doc : docId? source ⟨(nested ps t).inField field, previous⟩ = none) :
    ∃ c : Site, Unwraps ⟨(nested ps t).inField field, previous⟩ c ∧
      c.label.outOfField = t.label.outOfField ∧ c.tree.children = t.children ∧
      c.docId? source = none := by
  induction ps generalizing field previous with
  | nil =>
    refine ⟨_, .here _, ?_, inField_children field t, doc⟩
    rw [Site.label, nested, List.foldr_nil, inField_label]
    rfl
  | cons p ps ih =>
    have undocumented : docId? source ⟨nested ps t, some p.openingToken⟩ = none :=
      docId?_of_not_comment source _ rfl
    obtain ⟨c, unwraps, rest⟩ := ih (nested ps t).label.field (some p.openingToken)
      (by rwa [inField_self])
    rw [inField_self] at unwraps
    refine ⟨c, @Unwraps.wrapper _ _ c .parenthesizedExpression rfl rfl ?_ unwraps, rest⟩
    rw [firstMember?]
    exact congrArg List.head? (members_inParens p (isOperand_nested ps operand) field previous)

/-- What is left of an expression in parentheses differs from the expression in its field only. -/
theorem HandedOn.inner (h : s.HandedOn source s') : ∃ c, s.Same source c ∧ s'.Unwraps c := by
  rcases h with same | ⟨ps, tree, operand, doc, doc'⟩
  · exact ⟨s', same, .here s'⟩
  · obtain ⟨t', previous⟩ := s'
    obtain rfl : t' = parenthesize ps s.tree := tree
    have operand' : (s.tree.inField Option.none).isOperand = true := by rwa [isOperand_inField]
    obtain ⟨c, unwraps, label, children, none⟩ :=
      nested_unwraps source ps operand' s.tree.label.field previous doc'
    refine ⟨c, ⟨?_, doc.trans none.symm, .inl ?_⟩, unwraps⟩
    · rw [label, inField_label]
      rfl
    · rw [children, inField_children]

namespace Beside

variable {c c' : Site}

theorem field (h : Beside source s c c') : c.label.field = c'.label.field := by
  cases h with
  | same label => rw [label]
  | wrapped _ h => rw [Site.label, Site.label, h.tree, parenthesize_field]

theorem handedOn (h : Beside source s c c') : c.HandedOn source c' := by
  cases h with
  | same _ h => exact .inl h
  | wrapped _ h => exact .inr ⟨_, h⟩

/-- Parts of a construct are picked in the same way. -/
theorem picked (h : Beside source s c c') :
    c.label.named = c'.label.named ∧ c.label.extra = c'.label.extra ∧
      (c.kind != "hash_bang_line") = (c'.kind != "hash_bang_line") := by
  cases h with
  | same label => rw [Site.kind, Site.kind, label]; exact ⟨rfl, rfl, rfl⟩
  | wrapped _ h =>
    obtain ⟨named, extra, kind, -⟩ := isOperand_iff.1 h.operand
    obtain ⟨named', extra', kind', -⟩ := isOperand_iff.1 (isOperand_parenthesize _ h.operand)
    rw [Site.kind, Site.kind, Site.label, Site.label, h.tree, named, named', extra, extra']
    exact ⟨rfl, rfl, (bne_iff_ne.2 kind).trans (bne_iff_ne.2 kind').symm⟩

end Beside

theorem HandedOn.token (h : s.HandedOn source s') :
    s.label.named = s'.label.named ∧ (s.label.named = false → s.kind = s'.kind) := by
  rcases h with same | ⟨ps, tree, operand, -, -⟩
  · have named := congrArg Label.named same.label
    have kind := congrArg Label.kind same.label
    exact ⟨named, fun _ => kind⟩
  · have named := (isOperand_iff.1 operand).1
    have named' := (isOperand_iff.1 (isOperand_parenthesize ps operand)).1
    rw [Site.label, Site.label, tree, named, named']
    exact ⟨rfl, fun h => absurd h (by decide)⟩

/-- The sites of two lists that differ in one tree. -/
theorem forall₂_sitesAfter {T : Site → Site → Prop} {x x' : ParseTree} (refl : ∀ c, T c c)
    (next : ∀ t, T ⟨t, some x⟩ ⟨t, some x'⟩) (before after : List ParseTree)
    (previous : Option ParseTree)
    (here : T ⟨x, before.getLast?.or previous⟩ ⟨x', before.getLast?.or previous⟩) :
    List.Forall₂ T (sitesAfter previous (before ++ x :: after))
      (sitesAfter previous (before ++ x' :: after)) := by
  have same (sites : List Site) : List.Forall₂ T sites sites :=
    List.forall₂_same.2 fun c _ => refl c
  induction before generalizing previous with
  | nil =>
    rw [List.nil_append, List.nil_append, sitesAfter, sitesAfter]
    refine .cons here ?_
    cases after with
    | nil => exact .nil
    | cons t after => exact .cons (next t) (same _)
  | cons b before ih =>
    rw [List.cons_append, List.cons_append, sitesAfter, sitesAfter]
    refine .cons (refl _) (ih (some b) ?_)
    rw [List.getLast?_cons, Option.some_or] at here
    cases hb : before.getLast? with
    | none => rwa [hb] at here
    | some last => rwa [hb] at here

/-- Below two sites that differ in parentheses, the children go together one by one. -/
theorem Same.children (h : s.Same source s') :
    List.Forall₂ (Beside source s) s.children s'.children := by
  have refl (c : Site) : Beside source s c c := .same rfl (.refl source c)
  rcases h.tree with same | parens
  · rw [Site.children, Site.children, same]
    exact List.forall₂_same.2 fun c _ => refl c
  obtain ⟨t, previous⟩ := s
  obtain ⟨t', previous'⟩ := s'
  cases parens with
  | @here label before e after ps fits =>
    have next (t : ParseTree) : Beside source ⟨node label (before ++ e :: after), previous⟩
        ⟨t, some e⟩ ⟨t, some (parenthesize ps e)⟩ := by
      have plain := (isOperand_iff.1 fits.operand).2.2.2
      have plain' := (isOperand_iff.1 (isOperand_parenthesize ps fits.operand)).2.2.2
      refine .same rfl ⟨rfl, ?_, .inl rfl⟩
      rw [docId?_of_not_comment source t plain, docId?_of_not_comment source t plain']
    refine forall₂_sitesAfter refl next before after none ?_
    rw [Option.or_none]
    have undocumented : docId? source ⟨e, before.getLast?⟩ = none := by
      rw [docId?, fits.undocumented, Option.map_none]
    refine .wrapped fits.position ⟨rfl, fits.operand, undocumented, undocumented⟩
      fun b hb other long => fits.leading ?_ other long
    have tree : b.tree ∈ (sitesAfter none (before ++ e :: after)).map Site.tree :=
      List.mem_map_of_mem hb
    rwa [map_tree_sitesAfter] at tree
  | @inside label before t t' after deeper =>
    have next (u : ParseTree) : Beside source ⟨node label (before ++ t :: after), previous⟩
        ⟨u, some t⟩ ⟨u, some t'⟩ :=
      .same rfl ⟨rfl, docId?_congr source u u deeper.label, .inl rfl⟩
    exact forall₂_sitesAfter refl next before after none
      (.same deeper.label ⟨congrArg Label.outOfField deeper.label, rfl, .inr deeper⟩)

/-- Children that are picked in the same way from both sides. -/
theorem forall₂_picked {T : Site → Site → Prop} {p : Site → Bool}
    (hp : ∀ c c', T c c' → p c = p c') {l l' : List Site} (h : List.Forall₂ T l l') :
    List.Forall₂ T (l.filter p) (l'.filter p) := by
  refine List.rel_filter (fun c c' related => ?_) h
  show p c = true ↔ p c' = true
  rw [hp c c' related]

/-- Children in one field, found in both trees. -/
theorem Same.field? (h : s.Same source s') (name : String) :
    Option.Rel (Beside source s) (s.field? name) (s'.field? name) := by
  rw [Site.field?, Site.field?, ← List.head?_filter, ← List.head?_filter]
  exact head?_rel (forall₂_picked (fun c c' related => by rw [related.field]) h.children)

theorem Same.members (h : s.Same source s') :
    List.Forall₂ (Beside source s) s.members s'.members := by
  refine forall₂_picked (fun c c' related => ?_) h.children
  obtain ⟨named, extra, kind⟩ := related.picked
  rw [named, extra, kind]

theorem Same.tokens (h : s.Same source s') :
    List.Forall₂ (Beside source s) s.tokens s'.tokens :=
  forall₂_picked (fun c c' related => by rw [related.picked.2.1]) h.children

theorem Same.fieldMembers (h : s.Same source s') (name : String) :
    List.Forall₂ (Beside source s) (s.fieldMembers name) (s'.fieldMembers name) := by
  refine forall₂_picked (fun c c' related => ?_) h.children
  obtain ⟨named, extra, -⟩ := related.picked
  rw [related.field, named, extra]

/-- A child that the construct looks at is not in parentheses. -/
theorem Beside.same_of_looksAt {c c' : Site} {name : String} (h : Beside source s c c')
    (field : c.label.field = some name) (looks : s.looksAt name = true) : c.Same source c' := by
  cases h with
  | same _ h => exact h
  | wrapped position =>
    rw [looksAt, Option.any_eq_true] at looks
    obtain ⟨kind, hk, looks⟩ := looks
    rw [hk, Option.any_some, field] at position
    rw [GrammarKind.looksAt_of_isOperandPosition position] at looks
    cases looks

theorem Beside.same_of_looksAtMembers {c c' : Site} (h : Beside source s c c')
    (looks : s.looksAtMembers = true) : c.Same source c' := by
  cases h with
  | same _ h => exact h
  | wrapped position =>
    rw [looksAtMembers, Option.any_eq_true] at looks
    obtain ⟨kind, hk, looks⟩ := looks
    rw [hk, Option.any_some] at position
    rw [GrammarKind.looksAtMembers_of_isOperandPosition position] at looks
    cases looks

theorem Same.alike (h : s.Same source s') :
    s.Alike source source (Same source) (HandedOn source) s' where
  read := .refl source s.label
  label := h.label
  members := h.members.imp fun _ _ => Beside.handedOn
  tokens := h.tokens.imp fun _ _ => Beside.handedOn
  field name := rel_mono (fun _ _ => Beside.handedOn) (h.field? name)
  fieldMembers name := (h.fieldMembers name).imp fun _ _ => Beside.handedOn
  seen name looks := by
    have field : ∀ c, s.field? name = some c → c.label.field = some name := fun c hc => by
      simpa using List.find?_some hc
    have related := h.field? name
    generalize s.field? name = found, s'.field? name = found' at field related ⊢
    cases related with
    | none => exact .none
    | some related => exact .some (related.same_of_looksAt (field _ rfl) looks)
  seenMembers looks := h.members.imp fun _ _ related => related.same_of_looksAtMembers looks
  leading looks c d c' d' hc hd hc' hd' long := by
    have sign := h.field? "operator"
    have target := h.field? "argument"
    rw [hc, hc', Option.rel_some_some] at sign
    rw [hd, hd', Option.rel_some_some] at target
    have operator : c.label.field = some "operator" := by simpa using List.find?_some hc
    have argument : d.label.field = some "argument" := by simpa using List.find?_some hd
    have span : c.span = c'.span := by
      have same := congrArg Label.span (sign.same_of_looksAt operator looks).label
      exact same
    rw [← span]
    cases target with
    | same label => rw [Site.span, Site.span, Site.span, label]
    | wrapped _ _ leading =>
      refine leading c (mem_children_of_field? hc) ?_ long
      rw [operator, argument]
      decide

end Site

/-! ## Faults and comments -/

/-- What a question finds at the nodes of a tree, in order. -/
def answers {β : Type} (question : Label → Option β) (t : ParseTree) : List β :=
  t.preorder.filterMap fun u => question u.label

/-- A question that does not ask for fields, and that finds nothing at parentheses. -/
structure Overlooks {β : Type} (question : Label → Option β) : Prop where
  field : ∀ label field, question { label with field } = question label
  parens : ∀ p t, question (inParens p t).label = none
  opening : ∀ p : Parens, question p.openingToken.label = none
  closing : ∀ p : Parens, question p.closingToken.label = none

section

variable {β : Type} {question : Label → Option β}

theorem answers_node (label : Label) (children : List ParseTree) :
    (node label children).answers question =
      (question label).toList ++ children.flatMap (answers question) := by
  have forest (trees : List ParseTree) :
      (forestPreorder trees).filterMap (fun u => question u.label) =
        trees.flatMap (answers question) := by
    induction trees with
    | nil => rfl
    | cons tree trees ih =>
      rw [forestPreorder, List.filterMap_append, ih, List.flatMap_cons, answers]
  rw [answers, preorder, List.filterMap_cons, forest, ParseTree.label]
  cases question label <;> rfl

theorem Overlooks.answers_inField (h : Overlooks question) (field : Option String) (t : ParseTree) :
    (t.inField field).answers question = t.answers question := by
  obtain ⟨label, children⟩ := t
  rw [inField, answers_node, answers_node, h.field]

theorem Overlooks.answers_parenthesize (h : Overlooks question) (ps : List Parens)
    (e : ParseTree) : (parenthesize ps e).answers question = e.answers question := by
  rw [parenthesize, h.answers_inField]
  induction ps with
  | nil => exact h.answers_inField none e
  | cons p ps ih =>
    have outer : question _ = none := h.parens p (nested ps (e.inField none))
    have opening := h.opening p
    have closing := h.closing p
    rw [Parens.openingToken, ParseTree.label] at opening
    rw [Parens.closingToken, ParseTree.label] at closing
    rw [inParens, ParseTree.label] at outer
    rw [nested, List.foldr_cons, ← nested, inParens, answers_node, outer, Parens.openingToken,
      Parens.closingToken, List.flatMap_cons, List.flatMap_cons, List.flatMap_cons, answers_node,
      answers_node, opening, closing, ih]
    simp

/-- Parentheses around an expression change no answer. -/
theorem Overlooks.answers_eq (h : Overlooks question) {source : Source} {t t' : ParseTree}
    (parens : t.Parenthesized source t') : t'.answers question = t.answers question := by
  induction parens with
  | here => simp [answers_node, h.answers_parenthesize]
  | inside _ _ _ ih => simp [answers_node, ih]

end

/-- The comments of a tree are where they were. -/
theorem Parenthesized.recordAll_comments {source : Source} {t t' : ParseTree}
    (h : t.Parenthesized source t') (r : CommentRegistry) :
    r.recordAll source t'.comments = r.recordAll source t.comments := by
  let remark (label : Label) : Option (Nat × Comment) :=
    if (GrammarKind.ofName? label.kind).any GrammarKind.isComment then
      some (label.id, label.comment source)
    else none
  have overlooks : Overlooks remark :=
    ⟨fun _ _ => rfl, fun _ _ => rfl, fun _ => rfl, fun _ => rfl⟩
  have recorded (t : ParseTree) : r.recordAll source t.comments =
      (t.answers remark).foldl (fun r (id, comment) => (r.record id comment).2) r := by
    have remarks : t.answers remark =
        t.comments.map fun u => (u.label.id, u.label.comment source) := by
      rw [answers, comments, ← List.filterMap_eq_map, List.filterMap_filter]
      rfl
    rw [remarks, List.foldl_map]
    rfl
  rw [recorded, recorded, overlooks.answers_eq h]

/-- A tree with parentheses is as free of faults as without them. -/
theorem Parenthesized.faultless {source : Source} {t t' : ParseTree}
    (h : t.Parenthesized source t') (faultless : ∀ u ∈ t.preorder, u.isFault = false) :
    ∀ u ∈ t'.preorder, u.isFault = false := by
  let fault (label : Label) : Option Unit := if label.error || label.missing then some () else none
  have overlooks : Overlooks fault :=
    ⟨fun _ _ => rfl, fun _ _ => rfl, fun _ => rfl, fun _ => rfl⟩
  have no_answer (t : ParseTree) :
      t.answers fault = [] ↔ ∀ u ∈ t.preorder, u.isFault = false := by
    simp [answers, List.filterMap_eq_nil_iff, fault, isFault]
  rw [← no_answer, overlooks.answers_eq h, no_answer]
  exact faultless

end ParseTree

/-! ## Nodes without places -/

/-- A node whose subtree has lost all spans and lines. -/
def Node.unplaced : Node → Node :=
  fold fun node parts => .mk parts ⟨0, 0⟩ 0 node.doc

@[simp] theorem Node.unplaced_mk (c : Construct Node) (span : Span) (line : Nat)
    (doc : Option Comment) :
    (Node.mk c span line doc).unplaced = .mk (c.map unplaced) ⟨0, 0⟩ 0 doc := by
  rw [unplaced, fold_eq]
  rfl

/-- Two nodes that differ at most in the spans and lines of their subtrees. -/
def Node.SameUnplaced (n n' : Node) : Prop :=
  n.unplaced = n'.unplaced

namespace BuildState

/-- Two states with the same comments, whose identity tables list the same documentation. -/
structure SameDocs (st st' : BuildState) : Prop where
  comments : st.comments = st'.comments
  docs : st.table.origins.toList.map (·.doc) = st'.table.origins.toList.map (·.doc)

variable {st st' : BuildState}

theorem SameDocs.size (h : st.SameDocs st') : st.table.size = st'.table.size := by
  have := congrArg List.length h.docs
  rwa [List.length_map, List.length_map, Array.length_toList, Array.length_toList] at this

theorem SameDocs.doc (h : st.SameDocs st') (place : Nat) :
    ((st.table.origin? place).getD .missing).doc =
      ((st'.table.origin? place).getD .missing).doc := by
  have entries := congrArg (fun l : List (Option Nat) => l[place]?) h.docs
  simp only [List.getElem?_map, Array.getElem?_toList] at entries
  rw [IdentityTable.origin?, IdentityTable.origin?]
  revert entries
  cases st.table.origins[place]? <;> cases st'.table.origins[place]? <;> intro entries <;>
    first | rfl | exact Option.some.inj entries | cases entries

end BuildState

namespace Conversion

open BuildState (SameDocs)

/-- Entries may differ in where they are. -/
theorem enter_sameDocs {o o' : Origin} (same : o.doc = o'.doc) :
    Parallel SameDocs (id : Nat → Nat) id (enter o) (enter o') := by
  intro st st' h
  have entered : SameDocs { st with table := (st.table.register o).2 }
      { st' with table := (st'.table.register o').2 } := by
    refine ⟨h.comments, ?_⟩
    simp only [IdentityTable.register, Array.toList_push, List.map_append, List.map_cons,
      List.map_nil, same, h.docs]
  refine .inl ⟨st.table.size, _, _, rfl, ?_, entered⟩
  rw [h.size]
  rfl

theorem finish_sameDocs (ctx : BuildContext) (place : Nat)
    (c : Construct (Pair Node.SameUnplaced)) :
    Parallel SameDocs (Pair.left (R := Node.SameUnplaced)) Pair.right
      (finish place (viewed ctx Pair.left c)) (finish place (viewed ctx Pair.right c)) := by
  intro st st' h
  have parts : Node.unplaced ∘ Pair.left (R := Node.SameUnplaced) = Node.unplaced ∘ Pair.right :=
    funext Pair.related
  rw [finish_run, finish_run]
  dsimp only
  rw [← h.doc place, ← h.comments]
  refine .inl ⟨⟨.mk _ _ _ _, .mk _ _ _ _, ?_⟩, _, _, rfl, rfl, ⟨rfl, h.docs⟩⟩
  rw [Node.SameUnplaced, Node.unplaced_mk, Node.unplaced_mk, viewed, viewed,
    Construct.inStyle_map, Construct.inStyle_map, Construct.map_map, Construct.map_map, parts]

/-- Conversions with and without parentheses go in parallel. -/
theorem parentheses_correspond (ctx : BuildContext) :
    Correspondence ctx ctx SameDocs id Node.SameUnplaced (Site.Same ctx.source)
      (Site.HandedOn ctx.source) where
  alike _ _ h := h.alike
  handOn _ _ h := .inl h
  inner _ _ h := h.inner
  token _ _ h := h.token
  register _ _ h := enter_sameDocs h.doc
  enter _ := enter_sameDocs rfl
  registerSpan _ _ _ _ _ _ := enter_sameDocs rfl
  finish := finish_sameDocs ctx

end Conversion

/-- Two builds that go on from one state end alike, with and without parentheses. -/
theorem BuildContext.run_parentheses (ctx : BuildContext) (state : BuildState)
    {root root' : ParseTree} (faultless : ∀ t ∈ root.preorder, t.isFault = false)
    (h : root.Parenthesized ctx.source root') :
    ((∃ p p', (ctx.run root state).result = .ok p ∧ (ctx.run root' state).result = .ok p' ∧
        p.body.map Node.unplaced = p'.body.map Node.unplaced ∧ p.comments = p'.comments) ∨
      ∃ e, (ctx.run root state).result = .error e ∧ (ctx.run root' state).result = .error e) ∧
      (ctx.run root state).state.SameDocs (ctx.run root' state).state := by
  have sites : (ParseTree.rootSite root).Same ctx.source (ParseTree.rootSite root') :=
    ⟨congrArg Label.outOfField h.label, rfl, .inr h⟩
  have start : BuildState.SameDocs (ctx.recorded root state) (ctx.recorded root' state) :=
    ⟨by simpa only [recorded, ParseTree.collectComments_eq] using (h.recordAll_comments _).symm, rfl⟩
  simp only [run, ParseTree.fault?_eq_none faultless,
    ParseTree.fault?_eq_none (h.faultless faultless)]
  rcases Conversion.convertBody_parallel (Conversion.parentheses_correspond ctx) sites start with
    ⟨pairs, st, st', left, right, same⟩ | ⟨e, st, st', -, left, right, same⟩
  · rw [left, right]
    refine ⟨.inl ⟨_, _, rfl, rfl, ?_, congrArg CommentRegistry.all same.comments⟩, same⟩
    show (pairs.map _).map _ = (pairs.map _).map _
    rw [List.map_map, List.map_map]
    exact List.map_congr_left fun pair _ => pair.related
  · rw [left, right]
    exact ⟨.inr ⟨e, rfl, rfl⟩, same⟩

/-- Redundant parentheses never change the tree. Take a parse tree without faults, and put an
expression that stands anywhere in it into any number of parentheses, if no documentation comment
stands directly before the expression. Then the builds of both trees fail with the same error, or
both give programs with the same statements, apart from spans and lines, and the same comments.
Their identity tables have one length. -/
theorem parentheses_never_change_the_tree (session : BuildSession) (source : Source)
    {root root' : ParseTree} (faultless : ∀ t ∈ root.preorder, t.isFault = false)
    (h : root.Parenthesized source root') :
    let built := session.build source root
    let built' := session.build source root'
    ((∃ p p', built.1 = .ok p ∧ built'.1 = .ok p' ∧
        p.body.map Node.unplaced = p'.body.map Node.unplaced ∧ p.comments = p'.comments) ∨
      ∃ e, built.1 = .error e ∧ built'.1 = .error e) ∧
      built.2.nodeCount = built'.2.nodeCount := by
  obtain ⟨results, states⟩ := BuildContext.run_parentheses ⟨source, session.reset.style⟩
    session.reset.state faultless h
  exact ⟨results, states.size⟩

/-- An assignment of an increment. -/
def incrementTree (argument : ParseTree) : ParseTree :=
  .phrase 0 0 10 "program"
    [.phrase 1 0 10 "expression_statement"
      [.phrase 2 0 9 "assignment_expression"
        [(ParseTree.phrase 3 0 1 "identifier" []).within "left", .token 4 1 2 "=",
          (ParseTree.phrase 5 2 9 "update_expression"
            [argument, (ParseTree.token 6 7 9 "++").within "operator"]).within "right"],
        .token 7 9 10 ";"]]

/-- A name that is incremented may stand in two pairs of parentheses. -/
theorem increment_in_parentheses :
    let source : Source := ⟨"increment.js", "x=((y))++;".toList⟩
    let name := (ParseTree.phrase 8 4 5 "identifier" []).within "argument"
    let root := incrementTree name
    let outer : Parens := ⟨9, ⟨2, 7⟩, 10, 11, some ⟨0, 2⟩, some ⟨0, 6⟩⟩
    let inner : Parens := ⟨12, ⟨3, 6⟩, 13, 14, some ⟨0, 3⟩, some ⟨0, 5⟩⟩
    let root' := incrementTree (.parenthesize [outer, inner] name)
    (∀ t ∈ root.preorder, t.isFault = false) ∧ root.Parenthesized source root' ∧
      ∃ p p', ((BuildSession.start .list).build source root).1 = .ok p ∧
        ((BuildSession.start .list).build source root').1 = .ok p' ∧
        p.body.map Node.unplaced = p'.body.map Node.unplaced := by
  intro source name root outer inner root'
  have faultless : ∀ t ∈ root.preorder, t.isFault = false := by decide
  have fits : ParseTree.Enclosable source
      ⟨"update_expression", true, false, false, false, false, ⟨2, 9⟩, some ⟨0, 2⟩, 5, some "right"⟩
      [] name [(ParseTree.token 6 7 9 "++").within "operator"] [outer, inner] :=
    ⟨by decide, by decide, rfl, by decide, ⟨by decide, by decide, trivial⟩, by decide, by decide⟩
  have parens : root.Parenthesized source root' :=
    .inside [] _ (.inside [] _ (.inside [_, _] [] (.here [] _ fits)))
  have built : ((BuildSession.start .list).build source root).1.toOption.isSome = true := by
    decide +kernel
  obtain ⟨both | ⟨e, failed, -⟩, -⟩ :=
    parentheses_never_change_the_tree (.start .list) source faultless parens
  · obtain ⟨p, p', hp, hp', same, -⟩ := both
    exact ⟨faultless, parens, p, p', hp, hp', same⟩
  · rw [failed] at built
    cases built

end ScriptTree
