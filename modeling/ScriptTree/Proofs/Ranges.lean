import ScriptTree.Proofs.IdentityTable

/-!
# Ranges

The syntax tree lies over the source as the parse tree does. If the nodes of a parse tree lie inside
their parents, one after another and with their fields in the order of conversion (`WellPlaced`),
then so do the parts of every plan (`frame_placed`), and so do the nodes that they are converted to.
-/
namespace ScriptTree

open ParseTree (Site)

/-! ## Spans -/

theorem Span.contains_iff {outer inner : Span} :
    outer.contains inner = true ↔ outer.start ≤ inner.start ∧ inner.stop ≤ outer.stop := by
  simp [contains]

theorem Span.contains_refl (s : Span) : s.contains s = true :=
  contains_iff.2 ⟨Nat.le_refl _, Nat.le_refl _⟩

theorem Span.contains_trans {a b c : Span} (h : a.contains b = true) (h' : b.contains c = true) :
    a.contains c = true := by
  rw [contains_iff] at *
  omega

/-! ## Parse trees over a source -/

/-- The fields of a construct in the order of conversion. A loop over an object begins with its
keyword, which is no part of it but the start of a declaration. -/
def GrammarKind.fieldOrder : GrammarKind → List String
  | forInStatement => ["kind", "left", "value", "right", "body"]
  | methodDefinition => ["name", "parameters", "body"]
  | kind => kind.reads.map Prod.fst

/-- A node of a parse tree has its children inside it, one after another, and those in different
fields in the order of conversion. -/
structure ParseTree.WellPlaced (t : ParseTree) : Prop where
  range : t.label.span.start ≤ t.label.span.stop
  inside : ∀ c ∈ t.children, t.label.span.contains c.label.span = true
  apart : t.children.Pairwise fun a b => a.label.span.stop ≤ b.label.span.start
  fields : ∀ kind ∈ GrammarKind.ofName? t.label.kind,
    kind.fieldOrder.Pairwise fun f g => ∀ a ∈ t.children, ∀ b ∈ t.children,
      a.label.field = some f → b.label.field = some g → a.label.span.stop ≤ b.label.span.start

instance (t : ParseTree) : Decidable t.WellPlaced :=
  decidable_of_iff
    (t.label.span.start ≤ t.label.span.stop ∧
      (∀ c ∈ t.children, t.label.span.contains c.label.span = true) ∧
      (t.children.Pairwise fun a b => a.label.span.stop ≤ b.label.span.start) ∧
      ∀ kind ∈ GrammarKind.ofName? t.label.kind,
        kind.fieldOrder.Pairwise fun f g => ∀ a ∈ t.children, ∀ b ∈ t.children,
          a.label.field = some f → b.label.field = some g → a.label.span.stop ≤ b.label.span.start)
    ⟨fun ⟨range, inside, apart, fields⟩ => ⟨range, inside, apart, fields⟩,
      fun h => ⟨h.range, h.inside, h.apart, h.fields⟩⟩

/-- All nodes of a subtree are well placed. -/
def ParseTree.Site.Sound (s : Site) : Prop :=
  ∀ d ∈ s.subtree, d.tree.WellPlaced

/-- Sites inside a span, one after another. -/
structure Spread (outer : Span) (sites : List Site) : Prop where
  inside : ∀ c ∈ sites, outer.contains c.span = true
  sound : ∀ c ∈ sites, c.Sound
  apart : sites.Pairwise fun a b => a.span.stop ≤ b.span.start

namespace Spread

variable {outer : Span} {sites : List Site}

theorem sublist {sub : List Site} (h : Spread outer sites) (hs : sub.Sublist sites) :
    Spread outer sub :=
  ⟨fun c hc => h.inside c (hs.subset hc), fun c hc => h.sound c (hs.subset hc), h.apart.sublist hs⟩

theorem singleton {c : Site} (h : outer.contains c.span = true) (hc : c.Sound) :
    Spread outer [c] :=
  ⟨by simpa using h, by simpa using hc, List.pairwise_singleton _ _⟩

theorem append {others : List Site} (h : Spread outer sites) (h' : Spread outer others)
    (apart : ∀ a ∈ sites, ∀ b ∈ others, a.span.stop ≤ b.span.start) :
    Spread outer (sites ++ others) :=
  ⟨List.forall_mem_append.2 ⟨h.inside, h'.inside⟩, List.forall_mem_append.2 ⟨h.sound, h'.sound⟩,
    List.pairwise_append.2 ⟨h.apart, h'.apart, apart⟩⟩

theorem widen {inner : Span} (h : Spread inner sites) (ho : outer.contains inner = true) :
    Spread outer sites :=
  ⟨fun c hc => Span.contains_trans ho (h.inside c hc), h.sound, h.apart⟩

end Spread

namespace ParseTree.Site

variable {s c : Site}

theorem Sound.own (h : s.Sound) : s.tree.WellPlaced :=
  h s s.mem_subtree_self

theorem Sound.range (h : s.Sound) : s.span.start ≤ s.span.stop :=
  h.own.range

theorem mem_children_tree (h : c ∈ s.children) : c.tree ∈ s.tree.children := by
  rw [← map_tree_sitesAfter none s.tree.children]
  exact List.mem_map_of_mem h

theorem Sound.child (h : s.Sound) (hc : c ∈ s.children) : c.Sound := fun d hd =>
  h d (List.mem_cons_of_mem _ (mem_below.2 ⟨c, hc, hd⟩))

/-- The children of a well placed node. -/
theorem Sound.children (h : s.Sound) : Spread s.span s.children := by
  refine ⟨fun c hc => h.own.inside c.tree (mem_children_tree hc), fun c hc => h.child hc, ?_⟩
  have apart := h.own.apart
  rw [← map_tree_sitesAfter none s.tree.children, List.pairwise_map] at apart
  exact apart

/-- All children in one field come before all children in another. -/
def FieldsApart (s : Site) (f g : String) : Prop :=
  ∀ a ∈ s.fieldChildren f, ∀ b ∈ s.fieldChildren g, a.span.stop ≤ b.span.start

theorem Sound.fields (h : s.Sound) {kind : GrammarKind} (hk : GrammarKind.ofName? s.kind = some kind) :
    kind.fieldOrder.Pairwise s.FieldsApart := by
  refine (h.own.fields kind hk).imp fun {f g} before a ha b hb => ?_
  obtain ⟨ha, hf⟩ := List.mem_filter.1 ha
  obtain ⟨hb, hg⟩ := List.mem_filter.1 hb
  exact before a.tree (mem_children_tree ha) b.tree (mem_children_tree hb) (beq_iff_eq.1 hf)
    (beq_iff_eq.1 hg)

theorem mem_fieldChildren {name : String} (h : s.field? name = some c) :
    c ∈ s.fieldChildren name :=
  (s.field?_sublist name).subset (by simp [h])

/-- What is read through a field lies one after another, inside children in that field. -/
theorem Sound.reading (h : s.Sound) (name : String) (use : FieldUse) :
    Spread s.span (s.reading (name, use)) ∧
      ∀ c ∈ s.reading (name, use), ∃ d ∈ s.fieldChildren name, d.span.contains c.span = true := by
  have ofSublist {sites : List Site} (hs : sites.Sublist (s.fieldChildren name)) :
      Spread s.span sites ∧ ∀ c ∈ sites, ∃ d ∈ s.fieldChildren name, d.span.contains c.span = true :=
    ⟨h.children.sublist (hs.trans List.filter_sublist), fun c hc =>
      ⟨c, hs.subset hc, c.span.contains_refl⟩⟩
  cases use with
  | first => exact ofSublist (s.field?_sublist name)
  | firstMember =>
    refine ofSublist (List.Sublist.trans ?_ (s.fieldMembers_sublist name))
    cases hm : s.fieldMembers name <;> simp [Site.reading, hm]
  | members => exact ofSublist (s.fieldMembers_sublist name)
  | inside =>
    rw [Site.reading]
    cases hd : s.field? name with
    | none => exact ofSublist (List.nil_sublist _)
    | some d =>
      have hmem := mem_fieldChildren hd
      have inner := (h.child (List.mem_filter.1 hmem).1).children.sublist d.members_sublist
      rw [Option.toList_some, List.flatMap_singleton]
      exact ⟨inner.widen (h.children.inside d (List.mem_filter.1 hmem).1), fun c hc =>
        ⟨d, hmem, inner.inside c hc⟩⟩

/-- What is read through fields in order lies one after another. -/
theorem Sound.readings (h : s.Sound) (reads : List (String × FieldUse))
    (order : (reads.map Prod.fst).Pairwise s.FieldsApart) : Spread s.span (reads.flatMap s.reading) := by
  refine ⟨fun c hc => ?_, fun c hc => ?_, ?_⟩
  · obtain ⟨⟨name, use⟩, -, hc⟩ := List.mem_flatMap.1 hc
    exact (h.reading name use).1.inside c hc
  · obtain ⟨⟨name, use⟩, -, hc⟩ := List.mem_flatMap.1 hc
    exact (h.reading name use).1.sound c hc
  · refine List.pairwise_flatMap.2 ⟨fun ⟨name, use⟩ _ => (h.reading name use).1.apart, ?_⟩
    refine (List.pairwise_map.1 order).imp fun {f g} before a ha b hb => ?_
    obtain ⟨d, hd, hda⟩ := (h.reading f.1 f.2).2 a ha
    obtain ⟨e, he, heb⟩ := (h.reading g.1 g.2).2 b hb
    have := before d hd e he
    rw [Span.contains_iff] at hda heb
    omega

end ParseTree.Site

/-! ## Plans over a source -/

/-- The piece of source that a plan is about. -/
def Plan.extent : Plan → Span
  | .convert s => s.span
  | .node entry _ _ => entry.span

mutual

/-- The parts of a plan lie inside it, one after another. -/
def Plan.Placed : Plan → Prop
  | .convert s => s.Sound
  | .node entry _ parts => PlacedIn entry.span parts

/-- Plans lie inside a span, one after another. -/
def PlacedIn (outer : Span) : List Plan → Prop
  | [] => True
  | plan :: plans =>
    (outer.contains plan.extent = true ∧ plan.Placed ∧
      ∀ q ∈ plans, plan.extent.stop ≤ q.extent.start) ∧ PlacedIn outer plans

end

namespace PlacedIn

variable {outer : Span} {as bs : List Plan}

theorem singleton {plan : Plan} (h : outer.contains plan.extent = true) (hp : plan.Placed) :
    PlacedIn outer [plan] :=
  ⟨⟨h, hp, fun _ hq => (List.not_mem_nil hq).elim⟩, trivial⟩

theorem append (ha : PlacedIn outer as) (hb : PlacedIn outer bs)
    (apart : ∀ a ∈ as, ∀ b ∈ bs, a.extent.stop ≤ b.extent.start) : PlacedIn outer (as ++ bs) := by
  induction as with
  | nil => exact hb
  | cons a as ih =>
    refine ⟨⟨ha.1.1, ha.1.2.1, fun q hq => ?_⟩, ih ha.2 fun x hx => apart x (List.mem_cons_of_mem _ hx)⟩
    rcases List.mem_append.1 hq with hq | hq
    · exact ha.1.2.2 q hq
    · exact apart a List.mem_cons_self q hq

/-- Plans that keep to the sites that they are for. -/
theorem map {sites : List Site} {f : Site → Plan} (h : Spread outer sites)
    (hf : ∀ c, c.Sound → PlacedIn c.span [f c]) : PlacedIn outer (sites.map f) := by
  induction sites with
  | nil => trivial
  | cons c sites ih =>
    have rest := h.sublist (List.sublist_cons_self c sites)
    have own := hf c (h.sound c List.mem_cons_self)
    refine ⟨⟨Span.contains_trans (h.inside c List.mem_cons_self) own.1.1, own.1.2.1,
      fun q hq => ?_⟩, ih rest⟩
    obtain ⟨d, hd, rfl⟩ := List.mem_map.1 hq
    have before := (List.pairwise_cons.1 h.apart).1 d hd
    have mine := Span.contains_iff.1 own.1.1
    have other := Span.contains_iff.1 (hf d (rest.sound d hd)).1.1
    omega

theorem convert {c : Site} (h : c.Sound) : PlacedIn c.span [.convert c] :=
  singleton c.span.contains_refl h

theorem map_convert {sites : List Site} (h : Spread outer sites) :
    PlacedIn outer (sites.map .convert) :=
  map h fun _ => convert

end PlacedIn

section

variable {s : Site}

theorem shorthandProperty_placed (s : Site) : PlacedIn s.span [Plan.shorthandProperty s] :=
  .singleton s.span.contains_refl (.singleton s.span.contains_refl trivial)

theorem objectMember_placed (h : s.Sound) : PlacedIn s.span [Plan.objectMember s] := by
  unfold Plan.objectMember
  split
  · exact shorthandProperty_placed s
  · exact .convert h

theorem shorthandDefault_placed {left : Site} (h : s.Sound)
    (hk : s.kind = "object_assignment_pattern") (hl : s.field? "left" = some left) :
    PlacedIn s.span [Plan.shorthandDefault s left] := by
  have kind : GrammarKind.ofName? s.kind = some .objectAssignmentPattern := by
    rw [hk]
    rfl
  have spread : Spread s.span (left :: (s.field? "right").toList) := by
    have := h.readings [("left", .first), ("right", .first)] (h.fields kind)
    simpa [Site.reading, hl] using this
  have target : PlacedIn s.span [.node (.bare left) none []] :=
    .singleton (spread.inside left List.mem_cons_self) trivial
  have default : PlacedIn s.span ((s.field? "right").toList.map .convert) :=
    .map_convert (spread.sublist (List.sublist_cons_self _ _))
  have parts := target.append default (by
    simpa [Plan.extent, Registration.span] using (List.pairwise_cons.1 spread.apart).1)
  exact .singleton s.span.contains_refl (.singleton s.span.contains_refl parts)

theorem patternMember_placed (h : s.Sound) : PlacedIn s.span [Plan.patternMember s] := by
  unfold Plan.patternMember
  split
  · exact shorthandProperty_placed s
  split
  · split
    · split
      · exact shorthandDefault_placed h ‹_› ‹_›
      · exact .convert h
    · exact .convert h
  · exact .convert h

/-- The last part of a declaration in the head of a loop. -/
theorem getD_mem (left : Site) (value : Option Site) :
    value.getD left ∈ left :: value.toList := by
  cases value <;> simp

/-- The declaration in the head of a loop begins with its keyword and ends with its last part. -/
theorem headDeclaration_placed {keyword left : Site} {value : Option Site} (hk : keyword.Sound)
    (spread : Spread s.span (left :: value.toList)) (hs : s.span.contains keyword.span = true)
    (order : keyword.span.stop ≤ left.span.start) :
    PlacedIn s.span [Plan.headDeclaration keyword left value] := by
  have hl := (spread.sound left List.mem_cons_self).range
  have last := Span.contains_iff.1 (spread.inside _ (getD_mem left value))
  have first := Span.contains_iff.1 hs
  have hrange := hk.range
  have parts : Spread ⟨left.span.start, (value.getD left).span.stop⟩ (left :: value.toList) := by
    refine ⟨fun c hc => Span.contains_iff.2 ?_, spread.sound, spread.apart⟩
    cases value with
    | none =>
      cases List.mem_singleton.1 hc
      exact ⟨Nat.le_refl _, Nat.le_refl _⟩
    | some v =>
      have before := (List.pairwise_cons.1 spread.apart).1 v (by simp)
      have hv := (spread.sound v (by simp)).range
      rcases List.mem_cons.1 hc with rfl | hc
      · exact ⟨Nat.le_refl _, by show c.span.stop ≤ v.span.stop; omega⟩
      · cases List.mem_singleton.1 hc
        exact ⟨by show left.span.start ≤ c.span.start; omega, Nat.le_refl _⟩
  refine .singleton (Span.contains_iff.2 ⟨first.1, last.2⟩)
    (.singleton (Span.contains_iff.2 ⟨?_, Nat.le_refl _⟩) (.map_convert parts))
  show keyword.span.start ≤ left.span.start
  omega

/-- What a loop goes through ends with the target, or with its value. -/
theorem headTarget_placed {left : Site} (h : s.Sound) (order : s.FieldsApart "kind" "left")
    (hl : s.field? "left" = some left)
    (spread : Spread s.span (left :: (s.field? "value").toList)) :
    PlacedIn s.span [Plan.headTarget s left] ∧
      ∃ last ∈ left :: (s.field? "value").toList,
        (Plan.headTarget s left).extent.stop = last.span.stop := by
  unfold Plan.headTarget
  cases hk : s.field? "kind" with
  | none =>
    exact ⟨.singleton (spread.inside left List.mem_cons_self) (spread.sound left List.mem_cons_self),
      left, List.mem_cons_self, rfl⟩
  | some keyword =>
    have child := ParseTree.Site.mem_children_of_field? hk
    have before := order keyword (Site.mem_fieldChildren hk) left (Site.mem_fieldChildren hl)
    exact ⟨headDeclaration_placed (h.child child) spread (h.children.inside keyword child) before,
      _, getD_mem left (s.field? "value"), rfl⟩

theorem forInStatement_placed (h : s.Sound)
    (hk : GrammarKind.ofName? s.kind = some .forInStatement) :
    PlacedIn s.span (plan s .forInStatement) := by
  have order : ["kind", "left", "value", "right", "body"].Pairwise s.FieldsApart := h.fields hk
  obtain ⟨keywordFirst, order⟩ := List.pairwise_cons.1 order
  have all := h.readings [("left", .first), ("value", .first), ("right", .first), ("body", .first)]
    order
  simp only [List.flatMap_cons, List.flatMap_nil, List.append_nil] at all
  rw [← List.append_assoc] at all
  show PlacedIn s.span ((s.field? "left").toList.map (Plan.headTarget s) ++
    (s.reading ("right", .first) ++ s.reading ("body", .first)).map .convert)
  have rest : PlacedIn s.span ((s.reading ("right", .first) ++ s.reading ("body", .first)).map
      .convert) := .map_convert (all.sublist (List.sublist_append_right _ _))
  cases hl : s.field? "left" with
  | none => exact rest
  | some left =>
    have head : s.reading ("left", .first) ++ s.reading ("value", .first) =
        left :: (s.field? "value").toList := by
      rw [Site.reading, hl]
      rfl
    rw [head] at all
    obtain ⟨placed, last, hlast, stop⟩ := headTarget_placed h (keywordFirst "left" (by simp)) hl
      (all.sublist (List.sublist_append_left _ _))
    refine placed.append rest fun a ha b hb => ?_
    cases List.mem_singleton.1 ha
    obtain ⟨c, hc, rfl⟩ := List.mem_map.1 hb
    rw [stop]
    exact (List.pairwise_append.1 all.apart).2.2 last hlast c hc

/-- The function of a method begins with its parameters and ends with its body. -/
theorem methodFunction_placed {parameters body : Site} (hp : parameters.Sound) (hb : body.Sound)
    (inside : s.span.contains parameters.span = true) (inside' : s.span.contains body.span = true)
    (order : parameters.span.stop ≤ body.span.start) :
    PlacedIn s.span [Plan.methodFunction s parameters body] := by
  have first := Span.contains_iff.1 inside
  have last := Span.contains_iff.1 inside'
  have hpr := hp.range
  have hbr := hb.range
  have members := hp.children.sublist parameters.members_sublist
  have inner : Spread ⟨parameters.span.start, body.span.stop⟩ parameters.members := by
    refine members.widen (Span.contains_iff.2 ⟨Nat.le_refl _, ?_⟩)
    show parameters.span.stop ≤ body.span.stop
    omega
  have block : Spread ⟨parameters.span.start, body.span.stop⟩ [body] := by
    refine .singleton (Span.contains_iff.2 ⟨?_, Nat.le_refl _⟩) hb
    show parameters.span.start ≤ body.span.start
    omega
  have parts := inner.append block fun a ha b hb => by
    cases List.mem_singleton.1 hb
    have := Span.contains_iff.1 (members.inside a ha)
    omega
  exact .singleton (Span.contains_iff.2 ⟨first.1, last.2⟩) (.map_convert parts)

theorem methodDefinition_placed (h : s.Sound)
    (hk : GrammarKind.ofName? s.kind = some .methodDefinition) :
    PlacedIn s.span (plan s .methodDefinition) := by
  have order : ["name", "parameters", "body"].Pairwise s.FieldsApart := h.fields hk
  obtain ⟨nameFirst, order⟩ := List.pairwise_cons.1 order
  obtain ⟨parametersFirst, -⟩ := List.pairwise_cons.1 order
  have name : PlacedIn s.span ((s.reading ("name", .first)).map .convert) :=
    .map_convert (h.reading "name" .first).1
  rw [plan]
  refine name.append ?_ ?_
  · cases hp : s.field? "parameters" with
    | none => trivial
    | some parameters =>
      cases hb : s.field? "body" with
      | none => trivial
      | some body =>
        have hp' := ParseTree.Site.mem_children_of_field? hp
        have hb' := ParseTree.Site.mem_children_of_field? hb
        exact methodFunction_placed (h.child hp') (h.child hb') (h.children.inside _ hp')
          (h.children.inside _ hb')
          (parametersFirst "body" (by simp) _ (Site.mem_fieldChildren hp) _
            (Site.mem_fieldChildren hb))
  · intro a ha b hb
    obtain ⟨c, hc, rfl⟩ := List.mem_map.1 ha
    cases hp : s.field? "parameters" with
    | none => simp [hp] at hb
    | some parameters =>
      cases hb' : s.field? "body" with
      | none => simp [hp, hb'] at hb
      | some body =>
        simp only [hp, hb', List.mem_singleton] at hb
        subst hb
        exact nameFirst "parameters" (by simp) c ((s.field?_sublist "name").subset hc) parameters
          (Site.mem_fieldChildren hp)

theorem reads_placed (h : s.Sound) {kind : GrammarKind}
    (order : (kind.reads.map Prod.fst).Pairwise s.FieldsApart) :
    PlacedIn s.span ((kind.reads.flatMap s.reading).map .convert) :=
  .map_convert (h.readings kind.reads order)

/-- The parts of a construct lie inside it, one after another. -/
theorem plan_placed (h : s.Sound) {kind : GrammarKind}
    (hk : GrammarKind.ofName? s.kind = some kind) : PlacedIn s.span (plan s kind) := by
  have sublist {sites : List Site} (hs : sites.Sublist s.children) :
      PlacedIn s.span (sites.map .convert) := .map_convert (h.children.sublist hs)
  have members := h.children.sublist s.members_sublist
  have order := h.fields hk
  cases kind with
  | expressionStatement | throwStatement | returnStatement | yieldExpression =>
    exact sublist s.firstMember?_sublist
  | variableDeclaration | lexicalDeclaration =>
    exact sublist (List.filter_sublist.trans s.members_sublist)
  | statementBlock | sequenceExpression => exact sublist s.members_sublist
  | array | arrayPattern => exact sublist (List.filter_sublist.trans s.tokens_sublist)
  | object => exact .map members fun _ => objectMember_placed
  | objectPattern => exact .map members fun _ => patternMember_placed
  | forInStatement => exact forInStatement_placed h hk
  | methodDefinition => exact methodDefinition_placed h hk
  | _ => exact reads_placed h order

theorem frame_placed (h : s.Sound) : PlacedIn s.span (frame s) := by
  unfold frame
  cases hk : GrammarKind.ofName? s.kind with
  | none => trivial
  | some kind =>
    by_cases transparent : kind.isTransparent
    · simp only [transparent, if_true]
      exact .map_convert (h.children.sublist s.firstMember?_sublist)
    · simp only [transparent, Bool.false_eq_true, if_false]
      exact .singleton s.span.contains_refl (plan_placed h hk)

end

/-! ## Syntax trees over a source -/

/-- A node has its children inside it, one after another. -/
structure Node.ChildrenPlaced (n : Node) : Prop where
  inside : ∀ c ∈ n.children, n.span.contains c.span = true
  apart : n.children.Pairwise fun a b => a.span.stop ≤ b.span.start

/-- Nodes lie inside a span where the plans lie that they come from, each with its children placed.
-/
structure Laid (outer : Span) (plans : List Plan) (nodes : List Node) : Prop where
  inside : ∀ n ∈ nodes, outer.contains n.span = true
  apart : nodes.Pairwise fun a b => a.span.stop ≤ b.span.start
  after : ∀ place, (∀ q ∈ plans, place ≤ q.extent.start) → ∀ n ∈ nodes, place ≤ n.span.start
  below : ∀ n ∈ nodes.flatMap Node.preorder, n.ChildrenPlaced

namespace Laid

variable {outer : Span} {plans : List Plan} {nodes : List Node}

theorem nil : Laid outer [] [] := by
  constructor <;> simp

theorem cons {plan : Plan} {n : Node} (hp : PlacedIn outer (plan :: plans))
    (hn : plan.extent.contains n.span = true) (below : ∀ m ∈ n.preorder, m.ChildrenPlaced)
    (rest : Laid outer plans nodes) : Laid outer (plan :: plans) (n :: nodes) := by
  obtain ⟨⟨inside, -, before⟩, -⟩ := hp
  have own := Span.contains_iff.1 hn
  refine ⟨?_, ?_, fun place hplace => ?_, ?_⟩
  · exact List.forall_mem_cons.2 ⟨Span.contains_trans inside hn, rest.inside⟩
  · refine List.pairwise_cons.2 ⟨fun m hm => ?_, rest.apart⟩
    have := rest.after _ before m hm
    omega
  · obtain ⟨first, others⟩ := List.forall_mem_cons.1 hplace
    exact List.forall_mem_cons.2 ⟨Nat.le_trans first own.1, rest.after place others⟩
  · rw [List.flatMap_cons]
    exact List.forall_mem_append.2 ⟨below, rest.below⟩

end Laid

namespace Converts

variable {ctx : BuildContext} {plans : List Plan} {nodes : List Node} {st st' : BuildState}

/-- Placed plans are converted to nodes that lie where the plans do. -/
theorem laid (h : Converts ctx plans st nodes st') {outer : Span} (hp : PlacedIn outer plans) :
    Laid outer plans nodes := by
  induction h generalizing outer with
  | nil => exact .nil
  | @convert s plans st st₁ st' n nodes _ _ _ ihs ihp =>
    have own := ihs (frame_placed hp.1.2.1)
    refine .cons hp (own.inside n (by simp)) (fun m hm => ?_) (ihp hp.2)
    exact own.below m (by simpa using hm)
  | @node entry key parts plans st st₁ st' nodes c hk _ _ _ ihp ihr =>
    have parts := ihp hp.1.2.1
    refine .cons hp entry.span.contains_refl (fun m hm => ?_) (ihr hp.2)
    rw [Node.preorder_mk hk, List.mem_cons, List.mem_append, List.mem_map] at hm
    rcases hm with rfl | ⟨_, _, rfl⟩ | hm
    · exact ⟨parts.inside, parts.apart⟩
    · constructor <;> simp
    · exact parts.below m hm

/-- The children of nodes that are met in preorder are met there as well. -/
theorem children_subset (h : Converts ctx plans st nodes st') :
    ∀ n ∈ nodes.flatMap Node.preorder, n.children ⊆ nodes.flatMap Node.preorder := by
  induction h with
  | nil => exact fun n hn => (List.not_mem_nil hn).elim
  | convert _ _ _ ihs ihp =>
    rw [List.flatMap_singleton] at ihs
    rw [List.flatMap_cons]
    exact List.forall_mem_append.2
      ⟨fun n hn => List.subset_append_of_subset_left _ (ihs n hn),
        fun n hn => List.subset_append_of_subset_right _ (ihp n hn)⟩
  | @node entry key parts plans st st₁ st' nodes c hk _ _ _ ihp ihr =>
    rw [List.flatMap_cons, Node.preorder_mk hk]
    intro n hn
    rw [List.mem_append, List.mem_cons, List.mem_append, List.mem_map] at hn
    rcases hn with (rfl | ⟨_, _, rfl⟩ | hn) | hn
    · intro child hc
      have own : child ∈ c.children.flatMap Node.preorder :=
        List.mem_flatMap.2 ⟨child, hc, by rw [Node.preorder_eq]; exact List.mem_cons_self⟩
      exact List.mem_append_left _ (List.mem_cons_of_mem _ (List.mem_append_right _ own))
    · exact List.nil_subset _
    · exact fun child hc => List.mem_append_left _
        (List.mem_cons_of_mem _ (List.mem_append_right _ (ihp n hn hc)))
    · exact fun child hc => List.mem_append_right _ (ihr n hn hc)

end Converts

/-- Every node of a program has its children inside it, in source order and without overlap, and the
statements lie so in the program, if the parse tree has its nodes and their fields in order and
inside the source. No child is on a line before that of its parent, if the rows of the parse tree
count the line feeds. -/
theorem program_follows_source (session : BuildSession) (source : Source) (root : ParseTree)
    (p : Program) (placed : ∀ t ∈ root.preorder, t.WellPlaced)
    (within : ∀ t ∈ root.preorder, t.label.span.stop ≤ source.byteLength)
    (h : (session.build source root).1 = .ok p) :
    (∀ n ∈ p.nodes, n.ChildrenPlaced) ∧
      (root.CountsRows source → ∀ n ∈ p.nodes, ∀ c ∈ n.children, n.line ≤ c.line) ∧
      (∀ n ∈ p.body, p.span.contains n.span = true) ∧
      p.body.Pairwise fun a b => a.span.stop ≤ b.span.start := by
  let ctx : BuildContext := ⟨source, session.style⟩
  obtain ⟨-, body, hp⟩ := @BuildContext.build_converts ctx root p h
  have sound : (ParseTree.rootSite root).Sound := by
    intro d hd
    have node : d ∈ root.preorderSites none := ParseTree.preorderSites_eq none root ▸ hd
    exact placed d.tree (ParseTree.tree_mem_preorder node)
  have members := sound.children.sublist (ParseTree.rootSite root).members_sublist
  have program : Spread p.span (ParseTree.rootSite root).members := by
    refine members.widen (Span.contains_iff.2 ⟨?_, ?_⟩)
    · rw [hp]
      exact Nat.zero_le _
    · rw [hp]
      refine within root ?_
      cases root
      exact List.mem_cons_self
  have laid := body.laid (.map_convert program)
  refine ⟨laid.below, fun rows n hn c hc => ?_, laid.inside, laid.apart⟩
  have line {m : Node} (hm : m ∈ p.nodes) : m.line = 1 + source.lineFeeds m.span.start :=
    @BuildContext.line_of_build ctx root p m h rows hm
  have starts := (Span.contains_iff.1 ((laid.below n hn).inside c hc)).1
  have feeds := source.lineFeeds_mono starts
  rw [line hn, line (body.children_subset n hn hc)]
  omega

theorem loop_follows_source :
    (∀ t ∈ loopTree.preorder, t.WellPlaced) ∧
      (∀ t ∈ loopTree.preorder, t.label.span.stop ≤ loopSource.byteLength) ∧
      loopTree.CountsRows loopSource ∧
      ∃ p, ((BuildSession.start .single).build loopSource loopTree).1 = .ok p ∧
        (∀ n ∈ p.nodes, n.ChildrenPlaced) ∧ ∀ n ∈ p.nodes, ∀ c ∈ n.children, n.line ≤ c.line := by
  have placed : ∀ t ∈ loopTree.preorder, t.WellPlaced := by decide +kernel
  have within : ∀ t ∈ loopTree.preorder, t.label.span.stop ≤ loopSource.byteLength := by
    decide +kernel
  have rows : loopTree.CountsRows loopSource := by decide +kernel
  obtain ⟨p, hp⟩ := loop_builds
  obtain ⟨children, lines, -⟩ :=
    program_follows_source (.start .single) loopSource loopTree p placed within hp
  exact ⟨placed, within, rows, p, hp, children, lines rows⟩

end ScriptTree
