import Mathlib.Data.List.Forall2
import ScriptTree.Proofs.HandlerStyles
import ScriptTree.Proofs.Success

/-!
# Types of nodes in their places

The lists and fields of a construct hold nodes of any type; that they hold nodes of the types which
readers of the output expect is an invariant of the conversion. It depends on what the grammar puts
into the members and fields of a parse tree (`ParseTree.ObeysGrammar`). What a conversion gives if
it succeeds is said by `Conversion.Yields`; one step passes on what holds of the parts
(`Conversion.construct_yields`), so it holds of all nodes (`nodes_fit_their_places`).
-/
namespace ScriptTree

open ParseTree (Site)

/-! ## What the grammar puts where -/

namespace GrammarKind

/-- The rules that stand among the members of a construct. -/
def memberKinds? : GrammarKind → Option (List String)
  | object =>
    some ["pair", "method_definition", "shorthand_property_identifier", "spread_element"]
  | objectPattern =>
    some ["pair_pattern", "shorthand_property_identifier_pattern", "object_assignment_pattern",
      "rest_pattern"]
  | switchBody => some ["switch_case", "switch_default"]
  | finallyClause => some ["statement_block"]
  | _ => none

/-- The rules that stand in a field of a construct. -/
def fieldKinds : GrammarKind → List (String × List String)
  | functionDeclaration | generatorFunctionDeclaration | functionExpression | generatorFunction
  | methodDefinition | catchClause => [("body", ["statement_block"])]
  | tryStatement =>
    [("body", ["statement_block"]), ("handler", ["catch_clause"]),
      ("finalizer", ["finally_clause"])]
  | switchStatement => [("body", ["switch_body"])]
  | objectAssignmentPattern =>
    [("left", ["shorthand_property_identifier_pattern", "array_pattern", "object_pattern"])]
  | _ => []

/-- The type of the nodes that a construct is turned into, where it matters to what holds them. -/
def nodeType? : GrammarKind → Option String
  | variableDeclarator => some "VariableDeclarator"
  | switchCase | switchDefault => some "SwitchCase"
  | catchClause => some "CatchClause"
  | statementBlock | finallyClause => some "BlockStatement"
  | pair | pairPattern | methodDefinition => some "Property"
  | arrayPattern => some "ArrayPattern"
  | objectPattern => some "ObjectPattern"
  | _ => none

end GrammarKind

namespace ParseTree

/-- Whether the members and fields of a construct hold what the grammar puts there. -/
def Site.obeysGrammar (s : Site) : Bool :=
  (GrammarKind.ofName? s.kind).all fun kind =>
    (kind.memberKinds?.all fun kinds => s.members.all fun c => kinds.contains c.kind) &&
      kind.fieldKinds.all fun (name, kinds) => (s.field? name).all fun c => kinds.contains c.kind

/-- The members and fields of all constructs hold what the grammar puts there. -/
def ObeysGrammar (root : ParseTree) : Prop :=
  ∀ s ∈ root.preorderSites none, s.obeysGrammar = true

instance (root : ParseTree) : Decidable root.ObeysGrammar :=
  inferInstanceAs (Decidable (∀ _ ∈ _, _))

/-- A default value for a pattern, directly among the members of another pattern. -/
def Site.isNestedDefault (s : Site) : Bool :=
  s.kind == "object_assignment_pattern" &&
    (s.field? "left").any fun left => left.kind != "shorthand_property_identifier_pattern"

end ParseTree

/-! ## What the output holds where -/

/-- The type of a node in the output. -/
def Node.type (n : Node) : String :=
  n.construct.typeName

/-- What an object pattern holds for one of its members: a property, or the plain default value of a
nested pattern. -/
def Node.StandsFor (n : Node) (member : Site) : Prop :=
  if member.isNestedDefault then
    ∃ left right, n.construct = .assignmentPattern left right ∧
      (left.type = "ArrayPattern" ∨ left.type = "ObjectPattern")
  else n.type = "Property"

/-- The parts of a construct that is made from a span have the types that belong into their places.
What an object pattern holds goes with the members of the pattern that has its span. -/
def Construct.FitsPlaces (sites : List Site) (span : Span) : Construct Node → Prop
  | .variableDeclaration declarations _ => ∀ d ∈ declarations, d.type = "VariableDeclarator"
  | .switchStatement _ cases => ∀ c ∈ cases, c.type = "SwitchCase"
  | .objectExpression properties => ∀ p ∈ properties, p.type = "Property"
  | .objectPattern properties =>
    ∃ s ∈ sites, s.span = span ∧ GrammarKind.ofName? s.kind = some .objectPattern ∧
      List.Forall₂ (fun member p => p.StandsFor member) s.members properties
  | .tryStatement block handlers finalizer =>
    block.type = "BlockStatement" ∧ (∀ h ∈ handlers.toList, h.type = "CatchClause") ∧
      ∀ f ∈ finalizer, f.type = "BlockStatement"
  | .catchClause _ body => body.type = "BlockStatement"
  | .functionDeclaration f => f.body.type = "BlockStatement"
  | .functionExpression f => f.body.type = "BlockStatement"
  | _ => True

/-- All nodes of a subtree have parts that fit. -/
def Node.Fits (sites : List Site) (n : Node) : Prop :=
  ∀ m ∈ n.preorder, m.construct.FitsPlaces sites m.span

theorem Node.fits_iff {sites : List Site} {n : Node} :
    n.Fits sites ↔ n.construct.FitsPlaces sites n.span ∧ ∀ m ∈ n.parts, m.Fits sites := by
  rw [Fits, preorder_eq, List.forall_mem_cons, List.forall_mem_flatMap]
  rfl

/-- What a site may be turned into. -/
structure ParseTree.Site.Makes (sites : List Site) (s : Site) (n : Node) : Prop where
  fits : n.Fits sites
  type : ∀ kind type, GrammarKind.ofName? s.kind = some kind → kind.nodeType? = some type →
    n.type = type
  supported : GrammarKind.ofName? s.kind ≠ some .unsupported
  default : s.isNestedDefault = true →
    ∃ left right, n.construct = .assignmentPattern left right ∧
      (left.type = "ArrayPattern" ∨ left.type = "ObjectPattern")

/-- A node of a rule whose nodes have one type. -/
theorem ParseTree.Site.Makes.type_of {sites : List Site} {s : Site} {name type : String} {n : Node}
    (h : s.Makes sites n) (hkind : s.kind = name)
    (known : (GrammarKind.ofName? name).bind GrammarKind.nodeType? = some type) :
    n.type = type := by
  obtain ⟨kind, hk, ht⟩ := Option.bind_eq_some_iff.1 known
  exact h.type kind type (hkind ▸ hk) ht

namespace Conversion

/-! ## What a conversion gives -/

/-- If a computation succeeds, something holds of its result. -/
def Yields {α : Type} (P : α → Prop) (x : Conversion α) : Prop :=
  ∀ ⦃st a st'⦄, x st = .ok a st' → P a

namespace Yields

variable {α β : Type} {P : α → Prop} {Q : β → Prop}

theorem pure {a : α} (h : P a) : Yields P (Pure.pure a) := by
  intro st b st' hb
  obtain ⟨rfl, -⟩ := pure_ok.1 hb
  exact h

theorem throw {e : BuildError} : Yields P (MonadExcept.throw e) :=
  fun _ _ _ h => (throw_ok.1 h).elim

theorem bind {x : Conversion α} {f : α → Conversion β} (h : Yields P x)
    (hf : ∀ a, P a → Yields Q (f a)) : Yields Q (x >>= f) := by
  intro st b st' hb
  obtain ⟨a, st₁, ha, hb⟩ := bind_ok.1 hb
  exact hf a (h ha) hb

/-- Of the first step nothing has to be known. -/
theorem skip {x : Conversion α} {f : α → Conversion β} (hf : ∀ a, Yields Q (f a)) :
    Yields Q (x >>= f) :=
  bind (P := fun _ => True) (fun _ _ _ _ => trivial) fun a _ => hf a

theorem mono {P' : α → Prop} {x : Conversion α} (h : Yields P x) (imp : ∀ a, P a → P' a) :
    Yields P' x :=
  fun _ a _ ha => imp a (h ha)

theorem and {P' : α → Prop} {x : Conversion α} (h : Yields P x) (h' : Yields P' x) :
    Yields (fun a => P a ∧ P' a) x :=
  fun _ _ _ ha => ⟨h ha, h' ha⟩

/-- What comes after a refusal matters only if there is no reason for it. -/
theorem unlessRefused {p : Prop} [Decidable p] {ctx : BuildContext} {feature : String} {s : Site}
    {refused : β → Conversion α} {x : Conversion α} (h : Yields P x) :
    Yields P (if p then ctx.refuse feature s >>= refused else x) :=
  fun _ _ _ ha => h (unless_refused.1 ha).2

end Yields

theorem finish_yields (place : Nat) (c : Construct Node) :
    Yields (fun n => n.construct = c) (finish place c) :=
  .skip fun _ => .skip fun _ => .pure rfl

theorem all_yields {Q : Site → Node → Prop} {f : Converter} {list : List Site}
    (h : ∀ s ∈ list, Yields (Q s) (f s)) : Yields (List.Forall₂ Q list) (all f list) := by
  induction list with
  | nil => exact .pure .nil
  | cons s rest ih =>
    rw [List.forall_mem_cons] at h
    exact .bind h.1 fun node hn => .bind (ih h.2) fun nodes hns => .pure (.cons hn hns)

theorem all_nodes_yield {P : Node → Prop} {f : Converter} {list : List Site}
    (h : ∀ s ∈ list, Yields P (f s)) : Yields (fun nodes => ∀ n ∈ nodes, P n) (all f list) := by
  induction list with
  | nil => exact .pure fun _ hn => nomatch hn
  | cons s rest ih =>
    rw [List.forall_mem_cons] at h
    exact .bind h.1 fun node hn => .bind (ih h.2) fun nodes hns =>
      .pure (List.forall_mem_cons.2 ⟨hn, hns⟩)

theorem ctxField_yields (ctx : BuildContext) (s : Site) (name : String) :
    Yields (fun c => s.field? name = some c) (ctx.field s name) :=
  fun _ _ _ h => (ctx_field_ok.1 h).1

theorem ctxFirstMember_yields (ctx : BuildContext) (s : Site) :
    Yields (fun c => s.firstMember? = some c) (ctx.firstMember s) :=
  fun _ _ _ h => (ctx_firstMember_ok.1 h).1

/-! ## Parts -/

/-- Sites that hold what the grammar puts there, together with their children. -/
structure Lawful (sites : List Site) : Prop where
  closed : ∀ s ∈ sites, s.children ⊆ sites
  obeys : ∀ s ∈ sites, s.obeysGrammar = true

section

variable {ctx : BuildContext} {sites : List Site} (lawful : Lawful sites) {s : Site}
  (hs : s ∈ sites) {kind : GrammarKind} (hk : GrammarKind.ofName? s.kind = some kind)

section

include lawful hs hk

theorem kind_of_mem_members {kinds : List String} (h : kind.memberKinds? = some kinds) {c : Site}
    (hc : c ∈ s.members) : c.kind ∈ kinds := by
  have obeys := lawful.obeys s hs
  rw [Site.obeysGrammar, hk, Option.all_some, h, Option.all_some, Bool.and_eq_true,
    List.all_eq_true] at obeys
  exact List.contains_iff_mem.1 (obeys.1 c hc)

theorem kind_of_field? {name : String} {kinds : List String} (h : (name, kinds) ∈ kind.fieldKinds)
    {c : Site} (hc : s.field? name = some c) : c.kind ∈ kinds := by
  have obeys := lawful.obeys s hs
  rw [Site.obeysGrammar, hk, Option.all_some, Bool.and_eq_true] at obeys
  have field := List.all_eq_true.1 obeys.2 (name, kinds) h
  dsimp only at field
  rw [hc, Option.all_some] at field
  exact List.contains_iff_mem.1 field

end

section

include lawful hs

theorem mem_of_field? {name : String} {c : Site} (hc : s.field? name = some c) : c ∈ sites :=
  lawful.closed s hs (Site.mem_children_of_field? hc)

theorem members_subset : s.members ⊆ sites :=
  List.Subset.trans s.members_sublist.subset (lawful.closed s hs)

theorem tokens_subset : s.tokens ⊆ sites :=
  List.Subset.trans s.tokens_sublist.subset (lawful.closed s hs)

theorem fieldMembers_subset (name : String) : s.fieldMembers name ⊆ sites :=
  List.Subset.trans ((s.fieldMembers_sublist name).trans List.filter_sublist).subset
    (lawful.closed s hs)

end

omit hk in
theorem not_nestedDefault (hk : GrammarKind.ofName? s.kind = some kind)
    (plain : kind ≠ .objectAssignmentPattern) : s.isNestedDefault ≠ true := by
  intro default
  simp only [Site.isNestedDefault, Bool.and_eq_true, beq_iff_eq] at default
  rw [default.1] at hk
  exact plain (Option.some.inj hk).symm

/-- The node of a construct is what its site may be turned into. -/
theorem makes (hk : GrammarKind.ofName? s.kind = some kind) {c : Construct Node}
    (plain : kind ∉ [GrammarKind.objectAssignmentPattern, .unsupported])
    (type : ∀ type, kind.nodeType? = some type → c.typeName = type)
    (fits : c.FitsPlaces sites s.span) (parts : ∀ n ∈ c.parts, n.Fits sites) :
    ∀ n : Node, n.construct = c → n.span = s.span → s.Makes sites n := by
  rintro n rfl own
  simp only [List.mem_cons, List.not_mem_nil, or_false, not_or] at plain
  refine ⟨Node.fits_iff.2 ⟨own ▸ fits, parts⟩, fun kind' type' hk' ht => ?_, fun hk' => ?_,
    fun default => ?_⟩
  · rw [hk, Option.some.injEq] at hk'
    subst hk'
    exact type type' ht
  · exact plain.2 (Option.some.inj (hk.symm.trans hk'))
  · exact absurd default (not_nestedDefault hk plain.1)

/-- The node of a construct that may stand anywhere and hold anything. -/
theorem makes_any (hk : GrammarKind.ofName? s.kind = some kind) {c : Construct Node}
    (plain : kind ∉ [GrammarKind.objectAssignmentPattern, .unsupported])
    (none : kind.nodeType? = none) (fits : c.FitsPlaces sites s.span)
    (parts : ∀ n ∈ c.parts, n.Fits sites) :
    ∀ n : Node, n.construct = c → n.span = s.span → s.Makes sites n :=
  makes hk plain (fun _ h => nomatch none.symm.trans h) fits parts

variable {convert : Converter} (hc : ∀ c ∈ sites, Yields (c.Makes sites) (convert c))
include lawful hs hc

theorem field_yields (name : String) :
    Yields (fun n => ∃ c, s.field? name = some c ∧ c.Makes sites n) (field ctx convert s name) :=
  .bind (ctxField_yields ctx s name) fun c found =>
    (hc c (mem_of_field? lawful hs found)).mono fun _ hn => ⟨c, found, hn⟩

theorem field_fits (name : String) : Yields (Node.Fits sites) (field ctx convert s name) :=
  (field_yields lawful hs hc name).mono fun _ ⟨_, _, hn⟩ => hn.fits

theorem optionalField_yields (name : String) :
    Yields (fun n => ∀ m ∈ n, ∃ c, s.field? name = some c ∧ c.Makes sites m)
      (optionalField convert s name) := by
  unfold optionalField optional
  cases found : s.field? name with
  | none => exact .pure fun _ h => nomatch h
  | some c =>
    refine .bind (hc c (mem_of_field? lawful hs found)) fun node hn => .pure ?_
    rintro _ ⟨⟩
    exact ⟨c, rfl, hn⟩

theorem optionalField_fits (name : String) :
    Yields (fun n => ∀ m ∈ n, m.Fits sites) (optionalField convert s name) :=
  (optionalField_yields lawful hs hc name).mono fun _ h m hm =>
    let ⟨_, _, made⟩ := h m hm
    made.fits

theorem firstMember_yields :
    Yields (fun n => ∃ c ∈ s.members, c.Makes sites n) (firstMember ctx convert s) := by
  refine .bind (ctxFirstMember_yields ctx s) fun c found => ?_
  have member : c ∈ s.members := List.mem_of_mem_head? found
  exact (hc c (members_subset lawful hs member)).mono fun _ hn => ⟨c, member, hn⟩

theorem firstMember_fits : Yields (Node.Fits sites) (firstMember ctx convert s) :=
  (firstMember_yields lawful hs hc).mono fun _ ⟨_, _, hn⟩ => hn.fits

theorem optionalMember_fits :
    Yields (fun n => ∀ m ∈ n, m.Fits sites) (optional convert s.firstMember?) := by
  unfold optional
  cases found : s.firstMember? with
  | none => exact .pure fun _ h => nomatch h
  | some c =>
    have member : c ∈ sites := members_subset lawful hs (List.mem_of_mem_head? found)
    refine .bind (hc c member) fun node hn => .pure ?_
    rintro _ ⟨⟩
    exact hn.fits

omit lawful hs in
theorem all_fits {list : List Site} (sub : list ⊆ sites) :
    Yields (fun nodes => ∀ n ∈ nodes, n.Fits sites) (all convert list) :=
  all_nodes_yield fun c hm => (hc c (sub hm)).mono fun _ hn => hn.fits

omit hs in
theorem inside_fits {c : Site} (member : c ∈ sites) :
    Yields (fun nodes => ∀ n ∈ nodes, n.Fits sites) (all convert c.members) :=
  all_fits hc (members_subset lawful member)

omit lawful hs in
theorem elements_fits (awaiting : Bool) {list : List Site} (sub : list ⊆ sites) :
    Yields (fun nodes => ∀ n ∈ nodes.filterMap id, n.Fits sites)
      (elements convert awaiting list) := by
  induction list generalizing awaiting with
  | nil => exact .pure fun _ h => nomatch h
  | cons c rest ih =>
    rw [List.cons_subset] at sub
    rw [elements]
    split
    · exact .bind (hc c sub.1) fun node hn => .bind (ih false sub.2) fun nodes hns =>
        .pure (List.forall_mem_cons.2 ⟨hn.fits, hns⟩)
    split
    · refine .bind (ih true sub.2) fun nodes hns => .pure ?_
      cases awaiting with
      | true => exact hns
      | false => exact hns
    · exact ih awaiting sub.2

/-! ## Declarations, functions and `try` -/

theorem variableDeclaration_yields (kind : VariableKind) :
    Yields (fun c => ∃ declarations, c = .variableDeclaration declarations kind ∧
      ∀ d ∈ declarations, d.Fits sites ∧ d.type = "VariableDeclarator")
      (variableDeclaration convert s kind) := by
  refine .bind (all_nodes_yield fun declarator hm => ?_) fun declarations hd => .pure ⟨_, rfl, hd⟩
  obtain ⟨member, rule⟩ := List.mem_filter.1 hm
  exact (hc declarator (members_subset lawful hs member)).mono fun _ hn =>
    ⟨hn.fits, hn.type_of (eq_of_beq rule) rfl⟩

/-- A body in braces. -/
theorem body_yields (hk : GrammarKind.ofName? s.kind = some kind) {name : String}
    (block : (name, ["statement_block"]) ∈ kind.fieldKinds) :
    Yields (fun n => n.Fits sites ∧ n.type = "BlockStatement") (field ctx convert s name) :=
  (field_yields lawful hs hc name).mono fun _ ⟨_, found, hn⟩ =>
    ⟨hn.fits, hn.type_of (List.mem_singleton.1 (kind_of_field? lawful hs hk block found)) rfl⟩

theorem function_yields (hk : GrammarKind.ofName? s.kind = some kind)
    (block : ("body", ["statement_block"]) ∈ kind.fieldKinds) (generator : Bool) :
    Yields (fun f => f.body.type = "BlockStatement" ∧ ∀ n ∈ f.parts, n.Fits sites)
      (function ctx convert s generator) := by
  refine .unlessRefused (.bind (optionalField_fits lawful hs hc "name") fun id hid => ?_)
  refine .bind (ctxField_yields ctx s "parameters") fun parameters found => ?_
  refine .bind (inside_fits lawful hc (mem_of_field? lawful hs found)) fun params hp => ?_
  refine .bind (body_yields lawful hs hc hk block) fun body hb => .pure ⟨hb.2, fun n hn => ?_⟩
  simp only [Function.parts, List.mem_append, Option.mem_toList, List.mem_singleton] at hn
  rcases hn with (hn | hn) | rfl
  · exact hid n hn
  · exact hp n hn
  · exact hb.1

theorem tryStatement_yields (hk : GrammarKind.ofName? s.kind = some .tryStatement) :
    Yields (fun c => c.FitsPlaces sites s.span ∧ ∀ n ∈ c.parts, n.Fits sites)
      (tryStatement ctx convert s) := by
  refine .bind (body_yields lawful hs hc hk (List.mem_cons_self)) fun block hb => ?_
  refine .bind (optionalField_yields lawful hs hc "handler") fun handler hh => ?_
  refine .bind (optionalField_yields lawful hs hc "finalizer") fun finalizer hf => .pure ?_
  have handlers : (CatchHandlers.ofOption ctx.style handler).toList = handler.toList := by
    cases ctx.style <;> rfl
  refine ⟨⟨hb.2, fun n hn => ?_, fun n hn => ?_⟩, fun n hn => ?_⟩
  · rw [handlers, Option.mem_toList] at hn
    obtain ⟨c, found, made⟩ := hh n hn
    have rule := kind_of_field? lawful hs hk (List.mem_cons_of_mem _ List.mem_cons_self) found
    exact made.type_of (List.mem_singleton.1 rule) rfl
  · obtain ⟨c, found, made⟩ := hf n hn
    have rule := kind_of_field? lawful hs hk
      (List.mem_cons_of_mem _ (List.mem_cons_of_mem _ List.mem_cons_self)) found
    exact made.type_of (List.mem_singleton.1 rule) rfl
  · simp only [Construct.parts, handlers, List.mem_append, List.mem_cons, Option.mem_toList] at hn
    rcases hn with (rfl | hn) | hn
    · exact hb.1
    · obtain ⟨_, -, made⟩ := hh n hn
      exact made.fits
    · obtain ⟨_, -, made⟩ := hf n hn
      exact made.fits

theorem switchStatement_yields (hk : GrammarKind.ofName? s.kind = some .switchStatement) :
    Yields (fun c => ∃ discriminant cases, c = .switchStatement discriminant cases ∧
      discriminant.Fits sites ∧ ∀ n ∈ cases, n.Fits sites ∧ n.type = "SwitchCase")
      (switchStatement ctx convert s) := by
  refine .bind (field_fits lawful hs hc "value") fun discriminant hd => ?_
  refine .bind (ctxField_yields ctx s "body") fun body found => ?_
  have member := mem_of_field? lawful hs found
  have rule := kind_of_field? lawful hs hk List.mem_cons_self found
  have known : GrammarKind.ofName? body.kind = some .switchBody := by
    rw [List.mem_singleton.1 rule]
    rfl
  refine .bind (all_nodes_yield fun c hm => ?_) fun cases hcs => .pure ⟨_, _, rfl, hd, hcs⟩
  refine (hc c (members_subset lawful member hm)).mono fun n hn => ⟨hn.fits, ?_⟩
  have rule := kind_of_mem_members lawful member known rfl hm
  simp only [List.mem_cons, List.not_mem_nil, or_false] at rule
  rcases rule with rule | rule <;> exact hn.type_of rule rfl

/-! ## Loops over objects -/

omit lawful hs in
theorem headDeclaration_fits {keyword left : Site} {value : Option Site} (hl : left ∈ sites)
    (hv : ∀ c ∈ value, c ∈ sites) :
    Yields (Node.Fits sites) (headDeclaration ctx convert keyword left value) := by
  refine .skip fun kind => .skip fun declaration => .skip fun declarator => ?_
  refine .bind (hc left hl) fun id hid => ?_
  have initial : Yields (fun n => ∀ m ∈ n, m.Fits sites) (optional convert value) := by
    cases value with
    | none => exact .pure fun _ h => nomatch h
    | some c =>
      refine .bind (hc c (hv c rfl)) fun node hn => .pure ?_
      rintro _ ⟨⟩
      exact hn.fits
  refine .bind initial fun init hi => ?_
  refine .bind (finish_yields declarator _) fun node hn => ?_
  have fits : node.Fits sites := by
    rw [Node.fits_iff, Node.parts, hn]
    refine ⟨trivial, fun n h => ?_⟩
    simp only [Construct.parts, List.mem_cons, Option.mem_toList] at h
    rcases h with rfl | h
    · exact hid.fits
    · exact hi n h
  refine (finish_yields declaration _).mono fun n hd => ?_
  rw [Node.fits_iff, Node.parts, hd]
  refine ⟨fun d h => ?_, fun d h => ?_⟩
  · rw [List.mem_singleton.1 h, Node.type, hn]
    rfl
  · rw [List.mem_singleton.1 h]
    exact fits

theorem forInStatement_yields :
    Yields (fun c => c.FitsPlaces sites s.span ∧ ∀ n ∈ c.parts, n.Fits sites)
      (forInStatement ctx convert s) := by
  refine .unlessRefused (.bind (ctxField_yields ctx s "left") fun target found => ?_)
  have member := mem_of_field? lawful hs found
  have going : Yields (Node.Fits sites) (loopTarget ctx convert s target) := by
    unfold loopTarget
    split
    · exact headDeclaration_fits hc member fun _ => mem_of_field? lawful hs
    · exact (hc target member).mono fun _ hn => hn.fits
  refine .bind going fun left hl => .bind (field_fits lawful hs hc "right") fun right hr => ?_
  refine .bind (field_fits lawful hs hc "body") fun body hb => .skip fun operator => ?_
  have parts : ∀ n ∈ [left, right, body], n.Fits sites := by simp [hl, hr, hb]
  dsimp only
  split
  · exact .pure ⟨trivial, parts⟩
  split
  · exact .pure ⟨trivial, parts⟩
  · exact .throw

/-! ## Objects -/

omit lawful hs hc in
theorem bareIdentifier_fits : Yields (Node.Fits sites) (bareIdentifier ctx s) :=
  .skip fun place => (finish_yields place _).mono fun n hn => by
    rw [Node.fits_iff, Node.parts, hn]
    exact ⟨trivial, List.forall_mem_nil _⟩

omit lawful hs hc in
/-- A property that is made of its parts. -/
theorem finish_property_yields {key value : Node} (hkey : key.Fits sites)
    (hvalue : value.Fits sites) (place : Nat) (kind : PropertyKind)
    (computed shorthand method : Bool) :
    Yields (fun n => n.Fits sites ∧ n.type = "Property")
      (finish place (.property key value kind computed shorthand method)) := by
  refine (finish_yields place _).mono fun n hn => ?_
  rw [Node.fits_iff, Node.parts, Node.type, hn]
  refine ⟨⟨trivial, ?_⟩, rfl⟩
  simp [Construct.parts, hkey, hvalue]

omit lawful hs hc in
theorem shorthandProperty_yields :
    Yields (fun n => n.Fits sites ∧ n.type = "Property") (shorthandProperty ctx s) :=
  .skip fun place => .bind bareIdentifier_fits fun _ hkey => .bind bareIdentifier_fits
    fun _ hvalue => finish_property_yields hkey hvalue place .init false true false

theorem shorthandDefault_yields (name : s.kind = "object_assignment_pattern") :
    Yields (fun n => n.Fits sites ∧ n.StandsFor s) (shorthandDefault ctx convert s) := by
  refine .bind (ctxField_yields ctx s "left") fun left found => ?_
  by_cases short : left.kind = "shorthand_property_identifier_pattern"
  · rw [if_pos short]
    have plain : s.isNestedDefault ≠ true := by simp [Site.isNestedDefault, found, short]
    have stands (n : Node) : n.StandsFor s ↔ n.type = "Property" := by
      rw [Node.StandsFor, if_neg plain]
    simp only [stands]
    refine .skip fun place => .bind bareIdentifier_fits fun key (hkey : key.Fits sites) => ?_
    refine .skip fun pattern => .bind bareIdentifier_fits fun target (ht : target.Fits sites) => ?_
    refine .bind (field_fits lawful hs hc "right") fun right hr => ?_
    refine .bind (finish_yields pattern _) fun value hv => ?_
    have hvalue : value.Fits sites := by
      rw [Node.fits_iff, Node.parts, hv]
      refine ⟨trivial, ?_⟩
      simp [Construct.parts, ht, hr]
    exact finish_property_yields hkey hvalue place .init false true false
  · rw [if_neg short]
    have nested : s.isNestedDefault = true := by simp [Site.isNestedDefault, name, found, short]
    refine (hc s hs).mono fun n hn => ⟨hn.fits, ?_⟩
    rw [Node.StandsFor, if_pos nested]
    exact hn.default nested

omit lawful in
theorem objectMember_yields (rule : s.kind ∈ ["pair", "method_definition",
      "shorthand_property_identifier", "spread_element"]) :
    Yields (fun n => n.Fits sites ∧ n.type = "Property") (objectMember ctx convert s) := by
  unfold objectMember
  split
  · exact shorthandProperty_yields
  next other =>
    refine (hc s hs).mono fun n hn => ⟨hn.fits, ?_⟩
    simp only [List.mem_cons, List.not_mem_nil, or_false] at rule
    rcases rule with rule | rule | rule | rule
    · exact hn.type_of rule rfl
    · exact hn.type_of rule rfl
    · exact absurd rule other
    · exact absurd (by rw [rule]; rfl) hn.supported

omit lawful hs hc in
/-- A member that is no default value has a property. -/
theorem standsFor_of_property {n : Node} (other : s.kind ≠ "object_assignment_pattern")
    (property : n.type = "Property") : n.StandsFor s := by
  have plain : ¬s.isNestedDefault = true := fun default =>
    other (eq_of_beq (Bool.and_eq_true_iff.1 default).1)
  rwa [Node.StandsFor, if_neg plain]

theorem patternMember_yields (rule : s.kind ∈ ["pair_pattern",
      "shorthand_property_identifier_pattern", "object_assignment_pattern", "rest_pattern"]) :
    Yields (fun n => n.Fits sites ∧ n.StandsFor s) (patternMember ctx convert s) := by
  unfold patternMember
  split
  next name =>
    exact shorthandProperty_yields.mono fun n hn =>
      ⟨hn.1, standsFor_of_property (by rw [name]; decide) hn.2⟩
  next other =>
    split
    next name => exact shorthandDefault_yields lawful hs hc name
    next other' =>
      refine (hc s hs).mono fun n hn => ⟨hn.fits, ?_⟩
      simp only [List.mem_cons, List.not_mem_nil, or_false] at rule
      rcases rule with rule | rule | rule | rule
      · exact standsFor_of_property other' (hn.type_of rule rfl)
      · exact absurd rule other
      · exact absurd rule other'
      · exact absurd (by rw [rule]; rfl) hn.supported

theorem pair_yields :
    Yields
      (fun c => c.typeName = "Property" ∧ c.FitsPlaces sites s.span ∧ ∀ n ∈ c.parts, n.Fits sites)
      (pair ctx convert s) := by
  refine .bind (ctxField_yields ctx s "key") fun name found => ?_
  refine .bind (hc name (mem_of_field? lawful hs found)) fun key hkey => ?_
  refine .bind (field_fits lawful hs hc "value") fun value hvalue => .pure ⟨rfl, trivial, ?_⟩
  simp [Construct.parts, hkey.fits, hvalue]

theorem methodFunction_fits (hk : GrammarKind.ofName? s.kind = some .methodDefinition) :
    Yields (Node.Fits sites) (methodFunction ctx convert s) := by
  refine .bind (ctxField_yields ctx s "parameters") fun parameters hp => ?_
  refine .bind (ctxField_yields ctx s "body") fun block hb => .skip fun place => ?_
  refine .bind (inside_fits lawful hc (mem_of_field? lawful hs hp)) fun params hparams => ?_
  refine .bind (hc block (mem_of_field? lawful hs hb)) fun body hbody => ?_
  refine (finish_yields place _).mono fun n hn => ?_
  have rule := kind_of_field? lawful hs hk List.mem_cons_self hb
  rw [Node.fits_iff, Node.parts, hn]
  refine ⟨hbody.type_of (List.mem_singleton.1 rule) rfl, ?_⟩
  simpa [Construct.parts, Function.parts, hbody.fits, or_imp, forall_and] using hparams

theorem method_yields (hk : GrammarKind.ofName? s.kind = some .methodDefinition) :
    Yields
      (fun c => c.typeName = "Property" ∧ c.FitsPlaces sites s.span ∧ ∀ n ∈ c.parts, n.Fits sites)
      (method ctx convert s) := by
  refine .skip fun _ => .bind (ctxField_yields ctx s "name") fun name found => ?_
  refine .bind (hc name (mem_of_field? lawful hs found)) fun key hkey => ?_
  refine .bind (methodFunction_fits lawful hs hc hk) fun value hvalue => .pure ⟨rfl, trivial, ?_⟩
  simp [Construct.parts, hkey.fits, hvalue]

/-! ## Operations, and what is read of leaves -/

theorem loopCondition_fits : Yields (Node.Fits sites) (loopCondition ctx convert s) := by
  unfold loopCondition
  split
  next condition found =>
    have below := fieldMembers_subset lawful hs "condition" (List.mem_of_mem_head? found)
    exact (hc condition below).mono fun _ hn => hn.fits
  next => exact .throw

theorem binaryExpression_yields :
    Yields (fun c => c.FitsPlaces sites s.span ∧ ∀ n ∈ c.parts, n.Fits sites)
      (binaryExpression ctx convert s) := by
  refine .skip fun token => .bind (field_fits lawful hs hc "left") fun left hl => ?_
  refine .bind (field_fits lawful hs hc "right") fun right hr => ?_
  have parts : ∀ n ∈ [left, right], n.Fits sites := by simp [hl, hr]
  split
  · exact .pure ⟨trivial, parts⟩
  · exact .skip fun operator => .pure ⟨trivial, parts⟩

theorem callExpression_yields :
    Yields (fun c => c.FitsPlaces sites s.span ∧ ∀ n ∈ c.parts, n.Fits sites)
      (callExpression ctx convert s) := by
  refine .skip fun _ => .bind (field_fits lawful hs hc "function") fun callee hcallee => ?_
  refine .bind (ctxField_yields ctx s "arguments") fun list found => .unlessRefused ?_
  exact .bind (inside_fits lawful hc (mem_of_field? lawful hs found)) fun arguments ha =>
    .pure ⟨trivial, List.forall_mem_cons.2 ⟨hcallee, ha⟩⟩

theorem newExpression_arguments_fit :
    Yields (fun nodes => ∀ n ∈ nodes, n.Fits sites)
      (all convert ((s.field? "arguments").toList.flatMap Site.members)) := by
  cases found : s.field? "arguments" with
  | none => exact .pure fun _ h => nomatch h
  | some list =>
    rw [Option.toList_some, List.flatMap_singleton]
    exact inside_fits lawful hc (mem_of_field? lawful hs found)

theorem memberExpression_yields (member : String) (computed : Bool) :
    Yields (fun c => c.FitsPlaces sites s.span ∧ ∀ n ∈ c.parts, n.Fits sites)
      (memberExpression ctx convert s member computed) := by
  refine .skip fun _ => .bind (field_fits lawful hs hc "object") fun object ho => ?_
  exact .bind (field_fits lawful hs hc member) fun property hp =>
    .pure ⟨trivial, by simp [Construct.parts, ho, hp]⟩

omit lawful hs hc in
theorem keyword_yields :
    Yields (fun c => c.FitsPlaces sites s.span ∧ ∀ n ∈ c.parts, n.Fits sites) (keyword ctx s) := by
  unfold keyword
  split
  case h_6 => exact .throw
  all_goals exact .pure ⟨trivial, List.forall_mem_nil _⟩

/-! ## All constructs -/

/-- If all parts are turned into nodes that fit, so is the construct, and its own parts have the
types that belong into their places. -/
theorem construct_yields (hk : GrammarKind.ofName? s.kind = some kind) :
    Yields (fun c => ∀ n : Node, n.construct = c → n.span = s.span → s.Makes sites n)
      (construct ctx convert kind s) := by
  have field (name : String) : Yields (Node.Fits sites) (Conversion.field ctx convert s name) :=
    field_fits lawful hs hc name
  have optionalField := optionalField_fits lawful hs hc
  have members := all_fits hc (members_subset lawful hs)
  have fieldMembers (name : String) := all_fits hc (fieldMembers_subset lawful hs name)
  cases kind with
  | expressionStatement | throwStatement =>
    exact .bind (firstMember_fits lawful hs hc) fun e he =>
      .pure (makes_any hk (by decide) rfl trivial (by simpa [Construct.parts] using he))
  | returnStatement | yieldExpression =>
    exact .bind (optionalMember_fits lawful hs hc) fun e he =>
      .pure (makes_any hk (by decide) rfl trivial (by simpa [Construct.parts] using he))
  | variableDeclaration =>
    refine (variableDeclaration_yields lawful hs hc .var).mono ?_
    rintro _ ⟨declarations, rfl, hd⟩
    exact makes_any hk (by decide) rfl (fun d h => (hd d h).2) fun d h => (hd d h).1
  | lexicalDeclaration =>
    refine .skip fun keyword => .skip fun kind =>
      (variableDeclaration_yields lawful hs hc kind).mono ?_
    rintro _ ⟨declarations, rfl, hd⟩
    exact makes_any hk (by decide) rfl (fun d h => (hd d h).2) fun d h => (hd d h).1
  | variableDeclarator =>
    exact .bind (field "name") fun id hid => .bind (optionalField "value") fun init hi =>
      .pure (makes hk (by decide) (fun _ h => Option.some.inj h) trivial
        (by simpa [Construct.parts, hid] using hi))
  | statementBlock =>
    exact .bind members fun body hb =>
      .pure (makes hk (by decide) (fun _ h => Option.some.inj h) trivial hb)
  | sequenceExpression =>
    exact .bind members fun expressions he => .pure (makes_any hk (by decide) rfl trivial he)
  | ifStatement =>
    exact .bind (field "condition") fun test ht => .bind (field "consequence") fun consequent hcq =>
      .bind (optionalField "alternative") fun alternate ha =>
        .pure (makes_any hk (by decide) rfl trivial (by simpa [Construct.parts, ht, hcq] using ha))
  | switchStatement =>
    refine (switchStatement_yields lawful hs hc hk).mono ?_
    rintro _ ⟨discriminant, cases, rfl, hd, hcs⟩
    exact makes_any hk (by decide) rfl (fun c h => (hcs c h).2)
      (List.forall_mem_cons.2 ⟨hd, fun c h => (hcs c h).1⟩)
  | switchCase =>
    exact .bind (field "value") fun test ht => .bind (fieldMembers "body") fun consequent hb =>
      .pure (makes hk (by decide) (fun _ h => Option.some.inj h) trivial
        (by simpa [Construct.parts, ht] using hb))
  | switchDefault =>
    exact .bind (fieldMembers "body") fun consequent hb =>
      .pure (makes hk (by decide) (fun _ h => Option.some.inj h) trivial
        (by simpa [Construct.parts] using hb))
  | forStatement =>
    exact .bind (field "initializer") fun init hi =>
      .bind (loopCondition_fits lawful hs hc) fun test ht =>
        .bind (optionalField "increment") fun update hu => .bind (field "body") fun body hb =>
          .pure (makes_any hk (by decide) rfl trivial
            (by simpa [Construct.parts, hi, ht, hb, or_imp, forall_and] using hu))
  | forInStatement =>
    exact (forInStatement_yields lawful hs hc).mono fun c h => makes_any hk (by decide) rfl h.1 h.2
  | whileStatement =>
    exact .bind (field "condition") fun test ht => .bind (field "body") fun body hb =>
      .pure (makes_any hk (by decide) rfl trivial (by simp [Construct.parts, ht, hb]))
  | doStatement =>
    exact .bind (field "body") fun body hb => .bind (field "condition") fun test ht =>
      .pure (makes_any hk (by decide) rfl trivial (by simp [Construct.parts, ht, hb]))
  | tryStatement =>
    exact (tryStatement_yields lawful hs hc hk).mono fun c h =>
      makes_any hk (by decide) rfl h.1 h.2
  | catchClause =>
    exact .bind (optionalField "parameter") fun param hp =>
      .bind (body_yields lawful hs hc hk List.mem_cons_self) fun body hb =>
        .pure (makes hk (by decide) (fun _ h => Option.some.inj h) hb.2
          (by simpa [Construct.parts, hb.1, or_imp, forall_and] using hp))
  | withStatement =>
    exact .bind (field "object") fun object ho => .bind (field "body") fun body hb =>
      .pure (makes_any hk (by decide) rfl trivial (by simp [Construct.parts, ho, hb]))
  | breakStatement | continueStatement =>
    exact .bind (optionalField "label") fun label hl =>
      .pure (makes_any hk (by decide) rfl trivial (by simpa [Construct.parts] using hl))
  | labeledStatement =>
    exact .bind (field "label") fun label hl => .bind (field "body") fun body hb =>
      .pure (makes_any hk (by decide) rfl trivial (by simp [Construct.parts, hl, hb]))
  | functionDeclaration | generatorFunctionDeclaration | functionExpression | generatorFunction =>
    exact .bind (function_yields lawful hs hc hk List.mem_cons_self _) fun f hf =>
      .pure (makes_any hk (by decide) rfl hf.1 hf.2)
  | keywordLiteral =>
    exact keyword_yields.mono fun c h => makes_any hk (by decide) rfl h.1 h.2
  | number =>
    simp only [construct, number]
    split
    · exact .pure (makes_any hk (by decide) rfl trivial (List.forall_mem_nil _))
    · exact .throw
  | emptyStatement | identifier | propertyIdentifier | shorthandPropertyIdentifier
  | shorthandPropertyIdentifierPattern | statementIdentifier | undefined | string | regex =>
    exact .pure (makes_any hk (by decide) rfl trivial (List.forall_mem_nil _))
  | array =>
    exact .bind (elements_fits hc true (tokens_subset lawful hs)) fun nodes hn =>
      .pure (makes_any hk (by decide) rfl trivial hn)
  | arrayPattern =>
    exact .bind (elements_fits hc true (tokens_subset lawful hs)) fun nodes hn =>
      .pure (makes hk (by decide) (fun _ h => Option.some.inj h) trivial hn)
  | object =>
    have each : ∀ c ∈ s.members, Yields (fun n => n.Fits sites ∧ n.type = "Property")
        (objectMember ctx convert c) := fun c hm =>
      objectMember_yields (members_subset lawful hs hm) hc (kind_of_mem_members lawful hs hk rfl hm)
    exact .bind (all_nodes_yield each) fun nodes hn =>
      .pure (makes_any hk (by decide) rfl (fun n h => (hn n h).2) fun n h => (hn n h).1)
  | objectPattern =>
    have each : ∀ c ∈ s.members, Yields (fun n => n.Fits sites ∧ n.StandsFor c)
        (patternMember ctx convert c) := fun c hm =>
      patternMember_yields lawful (members_subset lawful hs hm) hc
        (kind_of_mem_members lawful hs hk rfl hm)
    have fits : ∀ c ∈ s.members, Yields (Node.Fits sites) (patternMember ctx convert c) :=
      fun c hm => (each c hm).mono fun _ hn => hn.1
    exact .bind ((all_yields each).and (all_nodes_yield fits)) fun nodes hn =>
      .pure (makes hk (by decide) (fun _ h => Option.some.inj h)
        ⟨s, hs, rfl, hk, hn.1.imp fun _ _ h => h.2⟩ hn.2)
  | pair | pairPattern =>
    exact (pair_yields lawful hs hc).mono fun c h =>
      makes hk (by decide) (fun _ ht => h.1.trans (Option.some.inj ht)) h.2.1 h.2.2
  | methodDefinition =>
    exact (method_yields lawful hs hc hk).mono fun c h =>
      makes hk (by decide) (fun _ ht => h.1.trans (Option.some.inj ht)) h.2.1 h.2.2
  | assignmentPattern =>
    exact .bind (field "left") fun left hl => .bind (field "right") fun right hr =>
      .pure (makes_any hk (by decide) rfl trivial (by simp [Construct.parts, hl, hr]))
  | objectAssignmentPattern =>
    refine .bind (field_yields lawful hs hc "left") fun left hl => ?_
    obtain ⟨target, found, hl⟩ := hl
    refine .bind (field "right") fun right hr => .pure ?_
    rintro n hn -
    refine ⟨?_, fun kind type hk' ht => ?_, fun hk' => ?_, fun default => ⟨left, right, hn, ?_⟩⟩
    · rw [Node.fits_iff, Node.parts, hn]
      exact ⟨trivial, by simp [Construct.parts, hl.fits, hr]⟩
    · rw [hk, Option.some.injEq] at hk'
      subst hk'
      cases ht
    · cases hk.symm.trans hk'
    · have rule := kind_of_field? lawful hs hk List.mem_cons_self found
      have pattern : target.kind ≠ "shorthand_property_identifier_pattern" := by
        simpa [Site.isNestedDefault, found] using (Bool.and_eq_true_iff.1 default).2
      simp only [List.mem_cons, List.not_mem_nil, or_false] at rule
      rcases rule with rule | rule | rule
      · exact absurd rule pattern
      · exact .inl (hl.type_of rule rfl)
      · exact .inr (hl.type_of rule rfl)
  | assignmentExpression =>
    exact .bind (field "left") fun left hl => .bind (field "right") fun right hr =>
      .pure (makes_any hk (by decide) rfl trivial (by simp [Construct.parts, hl, hr]))
  | augmentedAssignmentExpression =>
    exact .skip fun token => .skip fun operator => .bind (field "left") fun left hl =>
      .bind (field "right") fun right hr =>
        .pure (makes_any hk (by decide) rfl trivial (by simp [Construct.parts, hl, hr]))
  | binaryExpression =>
    exact (binaryExpression_yields lawful hs hc).mono fun c h =>
      makes_any hk (by decide) rfl h.1 h.2
  | unaryExpression =>
    exact .skip fun token => .skip fun operator => .bind (field "argument") fun argument ha =>
      .pure (makes_any hk (by decide) rfl trivial (by simpa [Construct.parts] using ha))
  | updateExpression =>
    exact .skip fun sign => .bind (ctxField_yields ctx s "argument") fun target found =>
      .skip fun operator => .bind (hc target (mem_of_field? lawful hs found)) fun argument ha =>
        .pure (makes_any hk (by decide) rfl trivial (by simpa [Construct.parts] using ha.fits))
  | ternaryExpression =>
    exact .bind (field "condition") fun test ht => .bind (field "consequence") fun consequent hcq =>
      .bind (field "alternative") fun alternate ha =>
        .pure (makes_any hk (by decide) rfl trivial (by simp [Construct.parts, ht, hcq, ha]))
  | callExpression =>
    exact (callExpression_yields lawful hs hc).mono fun c h => makes_any hk (by decide) rfl h.1 h.2
  | newExpression =>
    exact .bind (field "constructor") fun callee hcallee =>
      .bind (newExpression_arguments_fit lawful hs hc) fun arguments ha =>
        .pure (makes_any hk (by decide) rfl trivial (List.forall_mem_cons.2 ⟨hcallee, ha⟩))
  | memberExpression =>
    exact (memberExpression_yields lawful hs hc "property" false).mono fun c h =>
      makes_any hk (by decide) rfl h.1 h.2
  | subscriptExpression =>
    exact (memberExpression_yields lawful hs hc "index" true).mono fun c h =>
      makes_any hk (by decide) rfl h.1 h.2
  | unsupported | program | hashBangLine | comment | htmlComment | elseClause | finallyClause
  | parenthesizedExpression | computedPropertyName | switchBody | formalParameters | arguments
  | lexicalPart => exact .throw

omit lawful hs hc in
/-- A node that is made for a site which is no wrapper has the span of the site. -/
theorem step_span (follows : Follows ctx convert .convert)
    (hk : GrammarKind.ofName? s.kind = some kind) (plain : ¬kind.isTransparent) :
    Yields (fun n => n.span = s.span) (step ctx convert s) := by
  intro st n st' h
  have converts := step_converts follows h
  rw [frame, hk] at converts
  simp only [if_neg plain] at converts
  cases converts
  rfl

theorem step_yields (follows : Follows ctx convert .convert) :
    Yields (s.Makes sites) (step ctx convert s) := by
  unfold step
  split
  next => exact .throw
  next kind hk =>
    split
    next transparent =>
      refine (firstMember_yields lawful hs hc).mono fun n made => ?_
      obtain ⟨c, member, made⟩ := made
      have plain : kind ≠ .objectAssignmentPattern := by rintro rfl; cases transparent
      refine ⟨made.fits, fun kind' type hk' ht => ?_, fun hk' => ?_, fun default => ?_⟩
      · rw [hk, Option.some.injEq] at hk'
        subst hk'
        -- Of all wrappers, only a `finally` clause has nodes of one type, those of its block.
        cases kind with
        | finallyClause =>
          have rule := kind_of_mem_members lawful hs hk rfl member
          rw [made.type_of (List.mem_singleton.1 rule) rfl]
          exact Option.some.inj ht
        | parenthesizedExpression | elseClause | computedPropertyName => cases ht
        | _ => cases transparent
      · rw [hk, Option.some.injEq] at hk'
        rw [hk'] at transparent
        cases transparent
      · exact absurd default (not_nestedDefault hk plain)
    next plain =>
      have made : Yields (fun n => n.span = s.span → s.Makes sites n)
          (register ctx s >>= fun place => construct ctx convert kind s >>= finish place) :=
        .skip fun place => .bind (construct_yields lawful hs hc hk) fun c hcon =>
          (finish_yields place c).mono hcon
      have own := step_span follows hk plain
      simp only [step, hk, if_neg plain] at own
      exact (made.and own).mono fun n h => h.1 h.2

end

/-- Whatever a site is turned into fits, at any depth. -/
theorem upTo_yields (ctx : BuildContext) {sites : List Site} (lawful : Lawful sites) (levels : Nat)
    {s : Site} (hs : s ∈ sites) : Yields (s.Makes sites) (upTo ctx levels s) := by
  induction levels generalizing s with
  | zero => exact .throw
  | succ levels ih =>
    exact step_yields lawful hs (fun c hm => ih hm) (upTo_follows ctx levels)

end Conversion

/-! ## Programs -/

theorem ParseTree.ObeysGrammar.lawful {root : ParseTree} (h : root.ObeysGrammar) :
    Conversion.Lawful (root.preorderSites none) where
  obeys := h
  closed s hs c hc := by
    rw [preorderSites_eq] at hs ⊢
    refine List.mem_cons_of_mem _ ?_
    have below : c ∈ s.below := Site.mem_below.2 ⟨c, hc, c.mem_subtree_self⟩
    rcases List.mem_cons.1 hs with rfl | hs
    · exact below
    · exact Site.below_subset hs below

/-- A program has the statements that its body has been converted to. -/
theorem BuildContext.run_ok {ctx : BuildContext} {root : ParseTree} {state : BuildState}
    {p : Program} (h : (ctx.run root state).result = .ok p) :
    ∃ st, ctx.convertBody root (ctx.recorded root state) = .ok p.body st := by
  unfold run at h
  split at h
  · cases h
  split at h
  next body st converted =>
    cases h
    exact ⟨st, converted⟩
  next => cases h

/-- Nodes stand where their types belong. If the members and fields of a parse tree hold what the
grammar puts there, then in the program that is built from it, at every depth, declarations hold
declarators, `switch` statements hold cases, and object expressions hold properties; handlers are
catch clauses, and the bodies of functions, `try` statements and their clauses are blocks. Object
patterns hold a property for each member of the pattern in their place, except that a default value
for a nested pattern stands there by itself. -/
theorem nodes_fit_their_places (session : BuildSession) (source : Source) {root : ParseTree}
    (obeys : root.ObeysGrammar) {p : Program} (h : (session.build source root).1 = .ok p) :
    ∀ n ∈ p.nodes, n.construct.FitsPlaces (root.preorderSites none) n.span := by
  have lawful := obeys.lawful
  have here : ParseTree.rootSite root ∈ root.preorderSites none := by
    rw [ParseTree.preorderSites_eq]
    exact List.mem_cons_self
  have body : Conversion.Yields (fun nodes => ∀ n ∈ nodes, n.Fits (root.preorderSites none))
      (BuildContext.convertBody ⟨source, session.reset.style⟩ root) :=
    Conversion.all_nodes_yield fun c hm =>
      (Conversion.upTo_yields _ lawful c.tree.height
        (Conversion.members_subset lawful here hm)).mono fun _ made => made.fits
  obtain ⟨st, converted⟩ := BuildContext.run_ok h
  intro n hn
  obtain ⟨statement, hs, hn⟩ := List.mem_flatMap.1 hn
  exact body converted statement hs n hn

/-- All nodes of the nested `try` statements fit. -/
theorem nested_try_fits :
    let source : Source :=
      ⟨"try.js", "try\x7b\x7dcatch(e)\x7btry\x7b\x7dfinally\x7b\x7d\x7d".toList⟩
    nestedTryTree.ObeysGrammar ∧
      ∃ p, ((BuildSession.start .list).build source nestedTryTree).1 = .ok p ∧
        ∀ n ∈ p.nodes,
          n.construct.FitsPlaces (nestedTryTree.preorderSites none) n.span := by
  intro source
  have obeys : nestedTryTree.ObeysGrammar := by decide
  obtain ⟨p, hp, -⟩ := exists_ok_of_map (f := fun p : Program => p.body.length) (b := 1)
    (r := ((BuildSession.start .list).build source nestedTryTree).1) (by decide +kernel)
  exact ⟨obeys, p, hp, nodes_fit_their_places (.start .list) source obeys hp⟩

/-- A pattern with a default value for a pattern in it. -/
def nestedDefaultTree : ParseTree :=
  .phrase 0 0 19 "program"
    [.phrase 1 0 19 "variable_declaration"
      [.token 2 0 3 "var",
        .phrase 3 4 18 "variable_declarator"
          [(ParseTree.phrase 4 4 14 "object_pattern"
            [.token 5 4 5 "\x7b",
              .phrase 6 5 13 "object_assignment_pattern"
                [(ParseTree.phrase 7 5 8 "array_pattern"
                  [.token 8 5 6 "[", .phrase 9 6 7 "identifier" [], .token 10 7 8 "]"]).within
                    "left",
                  .token 11 9 10 "=",
                  (ParseTree.phrase 12 11 13 "array"
                    [.token 13 11 12 "[", .token 14 12 13 "]"]).within "right"],
              .token 15 13 14 "\x7d"]).within "name",
            .token 16 15 16 "=", (ParseTree.phrase 17 17 18 "identifier" []).within "value"],
        .token 18 18 19 ";"]]

/-- The default value stands in the pattern as it is, not as a property. -/
theorem nested_default_is_no_property :
    let source : Source := ⟨"test.js", "var \x7b[a] = []\x7d = x;".toList⟩
    nestedDefaultTree.ObeysGrammar ∧
      ∃ p, ((BuildSession.start .list).build source nestedDefaultTree).1 = .ok p ∧
        ∃ n ∈ p.nodes, ∃ properties, n.construct = .objectPattern properties ∧
          ∃ m ∈ properties, m.type ≠ "Property" := by
  intro source
  let other (n : Node) : Bool :=
    match n.construct with
    | .objectPattern properties => properties.any fun m => m.type != "Property"
    | _ => false
  obtain ⟨p, hp, found⟩ := exists_ok_of_map (f := fun p : Program => p.nodes.any other) (b := true)
    (r := ((BuildSession.start .list).build source nestedDefaultTree).1) (by decide +kernel)
  obtain ⟨n, hn, hother⟩ := List.any_eq_true.1 found
  refine ⟨by decide, p, hp, n, hn, ?_⟩
  dsimp only [other] at hother
  split at hother
  next properties hc =>
    obtain ⟨m, hm, type⟩ := List.any_eq_true.1 hother
    exact ⟨properties, hc, m, hm, bne_iff_ne.1 type⟩
  next => cases hother

end ScriptTree
