import ScriptTree.Proofs.Beginnings
import ScriptTree.Proofs.Documentation
import ScriptTree.Proofs.Extras

/-!
# Conversion is local

A conversion reads and writes the comment registry and the identity table, but what it makes of a
site does not depend on what other conversions have left in them: the comments that the site and its
subtree look for still wait when its conversion begins (`begun_awaited`), and entries of its own are
found again behind those of others (`outcome_local`). So one statement can be replaced without a
change to the others (`replaced_statement`).
-/
namespace ScriptTree

open ParseTree (Site)

/-! ## Nodes that can differ in documentation comments only -/

/-- Two nodes that are the same if the nodes of their subtrees have the same documentation. -/
structure Node.SameUpToDocs (n n' : Node) : Prop where
  size : n.preorder.length = n'.preorder.length
  same : n.preorder.map doc = n'.preorder.map doc → n = n'

theorem Node.SameUpToDocs.refl (n : Node) : n.SameUpToDocs n :=
  ⟨rfl, fun _ => rfl⟩

/-- Lists that are joined from pieces of the same lengths are joined from the same pieces. -/
theorem eq_of_flatMap_eq {α β : Type} {f g : α → List β} {l : List α}
    (size : ∀ a ∈ l, (f a).length = (g a).length) (same : l.flatMap f = l.flatMap g) :
    ∀ a ∈ l, f a = g a := by
  induction l with
  | nil => exact fun _ h => (List.not_mem_nil h).elim
  | cons b l ih =>
    rw [List.flatMap_cons, List.flatMap_cons] at same
    obtain ⟨first, rest⟩ := List.append_inj same (size b List.mem_cons_self)
    exact List.forall_mem_cons.2 ⟨first, ih (fun a ha => size a (List.mem_cons_of_mem b ha)) rest⟩

/-- Nodes made from parts that can differ in documentation only. -/
theorem Node.sameUpToDocs_mk (c : Construct (Pair SameUpToDocs)) (span : Span) (line : Nat)
    (doc doc' : Option Comment) :
    (Node.mk (c.map Pair.left) span line doc).SameUpToDocs
      (.mk (c.map Pair.right) span line doc') where
  size := by
    rw [preorder_eq, preorder_eq, List.length_cons, List.length_cons, parts, parts, construct,
      construct, Construct.parts_map, Construct.parts_map, List.length_flatMap, List.length_flatMap,
      List.map_map, List.map_map]
    exact congrArg (fun sizes : List Nat => sizes.sum + 1)
      (List.map_congr_left fun pair _ => pair.related.size)
  same docs := by
    rw [preorder_eq, preorder_eq, parts, parts, construct, construct, Construct.parts_map,
      Construct.parts_map, List.map_cons, List.map_cons, List.cons.injEq, List.map_flatMap,
      List.map_flatMap, List.flatMap_map, List.flatMap_map] at docs
    obtain ⟨own, inner⟩ := docs
    have parts := eq_of_flatMap_eq (fun pair _ => by
      rw [List.length_map, List.length_map, pair.related.size]) inner
    let double (pair : Pair SameUpToDocs) : Pair SameUpToDocs := ⟨pair.left, pair.left, .refl _⟩
    have doubled : c.map double = c := Construct.map_of_parts fun pair hp => by
      have same := pair.related.same (parts pair hp)
      obtain ⟨left, right, related⟩ := pair
      obtain rfl : left = right := same
      rfl
    have constructs : c.map Pair.left = c.map Pair.right := by
      have lefts := Construct.map_map double Pair.right c
      rw [doubled] at lefts
      exact lefts.symm
    rw [constructs, show doc = doc' from own]

/-! ## Entries behind those of others -/

/-- The identity table of the first state has some entries, and then those of the second state,
apart from documentation comments. -/
def BuildState.GoesOn (others : List Origin) (st st' : BuildState) : Prop :=
  st.undocumented = others ++ st'.undocumented

namespace BuildState.GoesOn

variable {others : List Origin} {st st' : BuildState}

theorem size (h : st.GoesOn others st') : st.table.size = others.length + st'.table.size := by
  have lengths := congrArg List.length h
  rwa [List.length_append, undocumented, undocumented, List.length_map, List.length_map,
    Array.length_toList, Array.length_toList] at lengths

theorem origin (h : st.GoesOn others st') (place : Nat) :
    ((st.table.origin? (others.length + place)).getD .missing).undocumented =
      ((st'.table.origin? place).getD .missing).undocumented := by
  have entries := congrArg (fun l : List Origin => l[others.length + place]?) h
  rw [List.getElem?_append_right (Nat.le_add_right _ _), Nat.add_sub_cancel_left] at entries
  simp only [undocumented, List.getElem?_map, Array.getElem?_toList] at entries
  rw [IdentityTable.origin?, IdentityTable.origin?]
  revert entries
  cases st.table.origins[others.length + place]? <;> cases st'.table.origins[place]? <;>
    intro entries <;> first | rfl | exact Option.some.inj entries | cases entries

end BuildState.GoesOn

namespace Conversion

variable {ctx ctx' : BuildContext} {others : List Origin}

theorem enter_behind {o o' : Origin} (same : o.undocumented = o'.undocumented) :
    Parallel (BuildState.GoesOn others) (others.length + ·) id (enter o) (enter o') := by
  intro st st' h
  have entered : BuildState.GoesOn others { st with table := (st.table.register o).2 }
      { st' with table := (st'.table.register o').2 } := by
    simp only [BuildState.GoesOn, BuildState.undocumented, IdentityTable.register,
      Array.toList_push, List.map_append, List.map_cons, List.map_nil, same]
    rw [← List.append_assoc]
    exact congrArg (· ++ _) h
  refine .inl ⟨st'.table.size, _, _, ?_, rfl, entered⟩
  show EStateM.Result.ok st.table.size _ = .ok (others.length + st'.table.size) _
  rw [h.size]

theorem finish_behind (style : ctx.style = ctx'.style) (place : Nat)
    (c : Construct (Pair Node.SameUpToDocs)) :
    Parallel (BuildState.GoesOn others) (Pair.left (R := Node.SameUpToDocs)) Pair.right
      (finish (others.length + place) (viewed ctx Pair.left c))
      (finish place (viewed ctx' Pair.right c)) := by
  intro st st' h
  have origin := h.origin place
  have span := congrArg Origin.span origin
  have line := congrArg Origin.line origin
  dsimp only [Origin.undocumented] at span line
  rw [finish_run, finish_run, viewed, viewed, style, ← Construct.inStyle_map,
    ← Construct.inStyle_map]
  dsimp only
  rw [span, line]
  exact .inl ⟨⟨_, _, Node.sameUpToDocs_mk _ _ _ _ _⟩, _, _, rfl, rfl, h⟩

/-- Two sites with the same tree, in sources that read the same at all its nodes. -/
structure Reread (source source' : Source) (s s' : Site) : Prop where
  tree : s.tree = s'.tree
  read : ∀ t ∈ s.tree.preorder, source.SameAt source' t.label

theorem Reread.alike {source source' : Source} {s s' : Site} (h : Reread source source' s s') :
    s.Alike source source' (Reread source source') (Reread source source') s' := by
  obtain ⟨tree, previous⟩ := s
  obtain ⟨_, previous'⟩ := s'
  obtain rfl := h.tree
  have child {c : Site} (hc : c ∈ Site.children ⟨tree, previous⟩) : Reread source source' c c :=
    ⟨rfl, fun t ht => h.read t (Site.preorder_subset_of_mem_children hc ht)⟩
  have same {sites : List Site} (sub : sites ⊆ Site.children ⟨tree, previous⟩) :
      List.Forall₂ (Reread source source') sites sites :=
    List.forall₂_same.2 fun c hc => child (sub hc)
  have root : tree ∈ tree.preorder := by
    cases tree
    exact List.mem_cons_self
  refine .plain (h.read tree root) rfl (same (Site.members_sublist _).subset)
    (same (Site.tokens_sublist _).subset) (fun name => ?_)
    (fun name => same ((Site.fieldMembers_sublist _ name).trans List.filter_sublist).subset)
    fun c c' related => ?_
  · show Option.Rel _ (Site.field? ⟨tree, previous⟩ name) (Site.field? ⟨tree, previous⟩ name)
    cases found : Site.field? ⟨tree, previous⟩ name with
    | none => exact .none
    | some c => exact .some (child (Site.mem_children_of_field? found))
  · rw [Site.span, Site.span, Site.label, Site.label, related.tree]

theorem reread_correspondence (style : ctx.style = ctx'.style) :
    Correspondence ctx ctx' (BuildState.GoesOn others) (others.length + ·) Node.SameUpToDocs
      (Reread ctx.source ctx'.source) (Reread ctx.source ctx'.source) := by
  refine .plain (fun s s' h => ?_) (fun _ _ h => h.alike) (fun s s' h => ?_)
    (fun _ => enter_behind rfl) (finish_behind style)
  · rw [Site.label, Site.label, h.tree]
  · have alike := h.alike
    refine enter_behind ?_
    rw [Origin.undocumented, Origin.undocumented, ← alike.kind, ← alike.id, ← alike.span,
      line_eq alike]

end Conversion

/-! ## Documentation comments in another source -/

section

variable {source source' : Source}

theorem ParseTree.Site.comment?_eq {s : Site}
    (read : ∀ t, s.previous = some t → source.SameAt source' t.label) :
    (Registration.documented s).comment? source = (Registration.documented s).comment? source' := by
  rw [Registration.comment?, Registration.comment?, Registration.docComment?,
    Registration.docComment?, docComment?, docComment?]
  cases before : s.previous with
  | none => rfl
  | some t =>
    have same := read t before
    rw [Option.filter, Option.filter, same.slice]
    split
    · rw [Option.map_some, Option.map_some, toComment, toComment, Label.comment, Label.comment,
        same.slice, same.line]
    · rfl

/-- The comments that plans below a site look for are the same in sources that read the same at the
nodes of its tree. -/
theorem rollAll_comments {s : Site}
    (read : ∀ t ∈ s.tree.preorder, source.SameAt source' t.label)
    {plans : List Plan} (below : territoryAll plans ⊆ s.below) :
    (rollAll Site.roll plans).map (·.comment? source) =
      (rollAll Site.roll plans).map (·.comment? source') := by
  obtain ⟨⟨label, children⟩, previous⟩ := s
  refine List.map_congr_left fun r hr => ?_
  cases r with
  | documented c =>
    have taker := below ((takers_rollAll_subperm takers_roll_subperm plans).subset
      (List.mem_filterMap.2 ⟨_, hr, rfl⟩))
    refine c.comment?_eq fun t before => read t (List.mem_cons_of_mem _ ?_)
    exact (ParseTree.previous_forestSites_subperm none children).subset
      (List.mem_filterMap.2 ⟨c, taker, before⟩)
  | bare c => rfl
  | spanned kind first stop => rfl

/-- The roll of a site has the comments of its tree and the one before it. -/
theorem roll_comments {s s' : Site} (reread : Conversion.Reread source source' s s')
    (own : (Registration.documented s).comment? source =
      (Registration.documented s').comment? source') :
    s.roll.map (·.comment? source) = s'.roll.map (·.comment? source') := by
  obtain ⟨tree, previous⟩ := s
  obtain ⟨_, previous'⟩ := s'
  obtain rfl := reread.tree
  have kind : Site.kind ⟨tree, previous'⟩ = Site.kind ⟨tree, previous⟩ := rfl
  rw [roll_eq, roll_eq, frame, frame, kind]
  cases GrammarKind.ofName? (Site.kind ⟨tree, previous⟩) with
  | none => rfl
  | some kind =>
    dsimp only
    by_cases transparent : kind.isTransparent
    · rw [if_pos transparent, if_pos transparent]
      exact rollAll_comments reread.read (sublist_territory (Site.firstMember?_sublist _)).subset
    · have plans : plan ⟨tree, previous'⟩ kind = plan ⟨tree, previous⟩ kind := by
        cases kind <;> rfl
      have parts := rollAll_comments reread.read (plan_territory ⟨tree, previous⟩ kind).subset
      rw [if_neg transparent, if_neg transparent, plans]
      simp only [rollAll_node, rollAll_nil, Option.toList_none, List.map_nil, List.nil_append,
        List.append_nil, List.map_cons, own, parts]

end

/-! ## The outcome for a site -/

namespace Conversion

/-- What a computation gives from a state, without the state that it leaves behind. -/
def outcome {α : Type} (x : Conversion α) (st : BuildState) : Except BuildError α :=
  match x st with
  | .ok a _ => .ok a
  | .error e _ => .error e

section

variable {ctx ctx' : BuildContext} {s s' : Site} {st : BuildState} {r : CommentRegistry}

/-- What is converted has the comments that its roll looks for. -/
theorem node_docs {n : Node} {st' : BuildState} (h : node ctx s st = .ok n st')
    (awaited : Awaited ctx.source st.comments s.roll) :
    n.preorder.map Node.doc = s.roll.map (·.comment? ctx.source) := by
  have docs := (node_follows ctx h).docs_eq
  simp only [rollAll_convert, rollAll_nil, List.append_nil, List.flatMap_singleton] at docs
  exact (docs awaited).1

/-- What a site is converted to does not depend on the state, as long as the comments that its roll
looks for wait in it: it is the same as from an empty table. Nor does it depend on the source where
this is not read. -/
theorem outcome_local (style : ctx.style = ctx'.style) (reread : Reread ctx.source ctx'.source s s')
    (own : (Registration.documented s).comment? ctx.source =
      (Registration.documented s').comment? ctx'.source)
    (awaited : Awaited ctx.source st.comments s.roll) (awaited' : Awaited ctx'.source r s'.roll) :
    (node ctx s).outcome st = (node ctx' s').outcome ⟨r, .empty⟩ := by
  have start : st.GoesOn st.undocumented ⟨r, .empty⟩ := (List.append_nil _).symm
  rcases node_parallel (reread_correspondence style) reread start with
    ⟨pair, _, _, left, right, -⟩ | ⟨e, _, _, -, left, right, -⟩
  · have docs : pair.left.preorder.map Node.doc = pair.right.preorder.map Node.doc := by
      rw [node_docs left awaited, node_docs right awaited', roll_comments reread own]
    rw [outcome, outcome, left, right, pair.related.same docs]
  · rw [outcome, outcome, left, right]

end

/-! ## Comments wait where a conversion begins -/

/-- The comments that plans look for wait in a registry, and they wait now. -/
structure Waits (ctx : BuildContext) (r : CommentRegistry) (plans : List Plan) (st : BuildState) :
    Prop where
  first : Awaited ctx.source r (rollAll Site.roll plans)
  now : Awaited ctx.source st.comments (rollAll Site.roll plans)

section

variable {ctx : BuildContext} {r : CommentRegistry} {root : ParseTree}

theorem waits_inherited (ctx : BuildContext) (r : CommentRegistry) :
    Inherited ctx (Waits ctx r) where
  front as bs st h := by
    have part : (rollAll Site.roll as).Subperm (rollAll Site.roll (as ++ bs)) := by
      rw [rollAll_append]
      exact (List.sublist_append_left _ _).subperm
    exact ⟨h.first.of_subperm part, h.now.of_subperm part⟩
  rest as bs st nodes st' h made := by
    obtain ⟨first, now⟩ := h
    rw [rollAll_append] at first now
    obtain ⟨-, comments⟩ := made.docs_eq (now.of_subperm (List.sublist_append_left _ _).subperm)
    exact ⟨first.of_subperm (List.sublist_append_right _ _).subperm, comments ▸ now.append_right⟩
  frame s st h := by
    obtain ⟨first, now⟩ := h
    rw [rollAll_convert, rollAll_nil, List.append_nil, roll_eq] at first now
    exact ⟨first, now⟩
  parts entry key parts st h := by
    have part : (rollAll Site.roll parts).Subperm (rollAll Site.roll [.node entry key parts]) := by
      rw [rollAll_node, rollAll_nil, List.append_nil]
      exact ((List.sublist_append_right _ _).cons _).subperm
    refine ⟨h.first.of_subperm part, ?_⟩
    rw [BuildState.foldl_entered_comments]
    exact h.now.of_subperm part

/-- In a tree with distinct nodes all comments wait right after they have been recorded. -/
theorem recorded_waits (distinct : (root.preorder.map fun t => t.label.id).Nodup) :
    Waits ctx (ctx.recorded root .empty).comments
      ((ParseTree.rootSite root).members.map .convert) (ctx.recorded root .empty) := by
  have awaited := @recorded_awaited root ctx distinct
  rw [ParseTree.roll, ← rollAll_map_convert] at awaited
  exact ⟨awaited, awaited⟩

/-- Where a conversion begins, the comments that its roll looks for have not been taken. -/
theorem begun_awaited (distinct : (root.preorder.map fun t => t.label.id).Nodup) {c : Site}
    {before : BuildState} (h : Begun ctx root c before) :
    Awaited ctx.source (ctx.recorded root .empty).comments c.roll ∧
      Awaited ctx.source before.comments c.roll := by
  obtain ⟨first, now⟩ := h.holds (waits_inherited ctx _) (recorded_waits distinct)
  rw [rollAll_convert, rollAll_nil, List.append_nil] at first now
  exact ⟨first, now⟩

/-- Wherever a conversion begins, its outcome is the one right after all comments are recorded. -/
theorem begun_outcome (distinct : (root.preorder.map fun t => t.label.id).Nodup) {c : Site}
    {before : BuildState} (h : Begun ctx root c before) :
    (node ctx c).outcome before = (node ctx c).outcome (ctx.recorded root .empty) := by
  obtain ⟨first, now⟩ := begun_awaited distinct h
  exact outcome_local rfl ⟨rfl, fun _ _ => .refl _ _⟩ rfl now first

end

/-! ## Statements -/

section

variable {ctx : BuildContext} {r : CommentRegistry}

theorem outcome_bind {α β : Type} (x : Conversion α) (f : α → Conversion β) (st : BuildState) :
    (x >>= f).outcome st =
      match x st with
      | .ok a st' => (f a).outcome st'
      | .error e _ => .error e := by
  show (match EStateM.bind x f st with | .ok a _ => Except.ok a | .error e _ => .error e) = _
  rw [EStateM.bind]
  cases x st <;> rfl

/-- Sites are converted one by one, as if each was the first. -/
theorem all_outcome {sites : List Site} {st : BuildState}
    (waits : Waits ctx r (sites.map .convert) st) :
    (all (node ctx) sites).outcome st = sites.mapM fun c => (node ctx c).outcome ⟨r, .empty⟩ := by
  induction sites generalizing st with
  | nil => rfl
  | cons c sites ih =>
    have inherited := waits_inherited ctx r
    have waits : Waits ctx r ([.convert c] ++ sites.map .convert) st := waits
    have alone : (node ctx c).outcome st = (node ctx c).outcome ⟨r, .empty⟩ := by
      obtain ⟨first, now⟩ := inherited.front waits
      rw [rollAll_convert, rollAll_nil, List.append_nil] at first now
      exact outcome_local rfl ⟨rfl, fun _ _ => .refl _ _⟩ rfl now first
    rw [List.mapM_cons, ← alone, all, outcome_bind, outcome]
    cases converted : node ctx c st with
    | error e st' => rfl
    | ok n st' =>
      have rest := ih (inherited.rest waits (node_follows ctx converted))
      dsimp only
      rw [outcome_bind, ← rest, outcome]
      cases all (node ctx) sites st' <;> rfl

end

end Conversion

/-! ## Replaced statements -/

namespace ParseTree

/-- Whether a child of a program is a statement. -/
def isStatement (t : ParseTree) : Bool :=
  t.label.named && !t.label.extra && t.label.kind != "hash_bang_line"

/-- The statements among some siblings, which stand after another one. -/
def statementsAfter (previous : Option ParseTree) (trees : List ParseTree) : List Site :=
  (sitesAfter previous trees).filter fun c => c.tree.isStatement

theorem statementsAfter_cons (previous : Option ParseTree) (t : ParseTree)
    (trees : List ParseTree) :
    statementsAfter previous (t :: trees) =
      if t.isStatement then ⟨t, previous⟩ :: statementsAfter (some t) trees
      else statementsAfter (some t) trees := by
  rw [statementsAfter, sitesAfter, List.filter_cons]
  rfl

theorem statementsAfter_append (previous : Option ParseTree) (trees more : List ParseTree) :
    statementsAfter previous (trees ++ more) =
      statementsAfter previous trees ++ statementsAfter (trees.getLast?.or previous) more := by
  induction trees generalizing previous with
  | nil => rfl
  | cons t trees ih =>
    have last : (t :: trees).getLast?.or previous = trees.getLast?.or (some t) := by
      rw [List.getLast?_cons, Option.some_or]
      cases trees.getLast? <;> rfl
    rw [List.cons_append, statementsAfter_cons, statementsAfter_cons, ih, last]
    by_cases statement : t.isStatement
    · rw [if_pos statement, if_pos statement, List.cons_append]
    · rw [if_neg statement, if_neg statement]

theorem length_statementsAfter (previous : Option ParseTree) (trees : List ParseTree) :
    (statementsAfter previous trees).length = trees.countP isStatement := by
  induction trees generalizing previous with
  | nil => rfl
  | cons t trees ih =>
    rw [statementsAfter_cons, List.countP_cons]
    by_cases statement : t.isStatement
    · rw [if_pos statement, if_pos statement, List.length_cons, ih]
    · rw [if_neg statement, if_neg statement, ih, Nat.add_zero]

/-- The statements around one of them. -/
theorem members_around {root t : ParseTree} {front back : List ParseTree}
    (children : root.children = front ++ t :: back) (statement : t.isStatement) :
    (rootSite root).members = statementsAfter none front ++
      ⟨t, front.getLast?⟩ :: statementsAfter (some t) back := by
  show statementsAfter none root.children = _
  rw [children, statementsAfter_append, Option.or_none, statementsAfter_cons, if_pos statement]

/-- The nodes that are read for a statement are in its tree, or in the one before it. -/
theorem exists_mem_preorder {previous : Option ParseTree} {trees : List ParseTree} {c : Site}
    (hc : c ∈ statementsAfter previous trees) {v : ParseTree}
    (hv : v ∈ c.previous.toList ++ c.tree.preorder) :
    ∃ t ∈ previous.toList ++ trees, v ∈ t.preorder := by
  have self : v ∈ v.preorder := by
    cases v
    exact List.mem_cons_self
  induction trees generalizing previous with
  | nil => exact (List.not_mem_nil hc).elim
  | cons t trees ih =>
    rcases List.mem_cons.1 (List.mem_of_mem_filter hc) with rfl | later
    · rcases List.mem_append.1 hv with hv | hv
      · exact ⟨v, List.mem_append_left _ hv, self⟩
      · exact ⟨t, List.mem_append_right _ List.mem_cons_self, hv⟩
    · have hc : c ∈ statementsAfter (some t) trees :=
        List.mem_filter.2 ⟨later, (List.mem_filter.1 hc).2⟩
      obtain ⟨u, hu, hv⟩ := ih hc
      exact ⟨u, List.mem_append_right _ hu, hv⟩

end ParseTree

namespace Conversion

variable {ctx ctx' : BuildContext} {root root' : ParseTree}

theorem outcome_eq_ok {α : Type} {x : Conversion α} {st : BuildState} {a : α} :
    x.outcome st = .ok a ↔ ∃ st', x st = .ok a st' := by
  rw [outcome]
  cases x st with
  | ok b st' => simp
  | error e st' => simp

/-- What is converted is no comment, so it documents nothing. -/
theorem not_comment_of_outcome {s : Site} {st : BuildState} {n : Node}
    (h : (node ctx s).outcome st = .ok n) : s.tree.isComment = false := by
  obtain ⟨st', converted⟩ := outcome_eq_ok.1 h
  rw [node_eq_step] at converted
  obtain ⟨kind, named, convertible⟩ := step_convertible converted
  rw [ParseTree.isComment, show GrammarKind.ofName? s.tree.label.kind = some kind from named]
  cases kind <;> first | rfl | cases convertible

theorem comment?_after {t u : ParseTree} (source : Source) (h : t.isComment = false) :
    (Registration.documented ⟨u, some t⟩).comment? source = none := by
  rw [Registration.comment?, Registration.docComment?, Site.docComment?, Option.filter, h]
  rfl

theorem member_awaited (distinct : (root.preorder.map fun t => t.label.id).Nodup) {c : Site}
    (hc : c ∈ (ParseTree.rootSite root).members) :
    Awaited ctx.source (ctx.recorded root .empty).comments c.roll :=
  (recorded_awaited distinct).of_subperm
    (List.sublist_flatten_of_mem (List.mem_map_of_mem hc)).subperm

end Conversion

/-- The statements of a program are what each of them is converted to right after all comments have
been recorded. -/
theorem BuildContext.build_body {ctx : BuildContext} {root : ParseTree}
    (distinct : (root.preorder.map fun t => t.label.id).Nodup) (unmarked : root.fault? = none) :
    (ctx.build root).result.map Program.body = (ParseTree.rootSite root).members.mapM fun c =>
      (Conversion.node ctx c).outcome (ctx.recorded root .empty) := by
  refine Eq.trans ?_ (Conversion.all_outcome (Conversion.recorded_waits distinct))
  rw [Conversion.outcome, build, run, unmarked]
  dsimp only
  rw [convertBody]
  cases Conversion.all (Conversion.node ctx) (ParseTree.rootSite root).members
    (ctx.recorded root .empty) <;> rfl

namespace Conversion

section

variable {ctx ctx' : BuildContext} {root root' : ParseTree}
  (style : ctx.style = ctx'.style)
  (distinct : (root.preorder.map fun t => t.label.id).Nodup)
  (distinct' : (root'.preorder.map fun t => t.label.id).Nodup)
include style distinct distinct'

/-- Statements that two programs share are converted to the same nodes, if they stand after the same
siblings. -/
theorem shared_statements {previous : Option ParseTree} {trees : List ParseTree}
    (shared : ParseTree.statementsAfter previous trees ⊆ (ParseTree.rootSite root).members)
    (shared' : ParseTree.statementsAfter previous trees ⊆ (ParseTree.rootSite root').members)
    (read : ∀ t ∈ previous.toList ++ trees, ∀ u ∈ t.preorder,
      ctx.source.SameAt ctx'.source u.label) :
    ((ParseTree.statementsAfter previous trees).mapM fun c =>
        (node ctx c).outcome (ctx.recorded root .empty)) =
      (ParseTree.statementsAfter previous trees).mapM fun c =>
        (node ctx' c).outcome (ctx'.recorded root' .empty) := by
  refine mapM_congr fun c hc => ?_
  have read : ∀ u ∈ c.previous.toList ++ c.tree.preorder,
      ctx.source.SameAt ctx'.source u.label := by
    intro u hu
    obtain ⟨t, ht, hu⟩ := ParseTree.exists_mem_preorder hc hu
    exact read t ht u hu
  refine outcome_local style ⟨rfl, fun u hu => read u (List.mem_append_right _ hu)⟩ ?_
    (member_awaited distinct (shared hc)) (member_awaited distinct' (shared' hc))
  exact c.comment?_eq fun u hu => read u (List.mem_append_left _ (Option.mem_toList.2 hu))

/-- Statements behind a replaced one are converted to the same nodes as before, also the first of
them, which stands after another sibling. -/
theorem statements_behind {t t' : ParseTree} (silent : t.isComment = false)
    (silent' : t'.isComment = false) {trees : List ParseTree}
    (shared : ParseTree.statementsAfter (some t) trees ⊆ (ParseTree.rootSite root).members)
    (shared' : ParseTree.statementsAfter (some t') trees ⊆ (ParseTree.rootSite root').members)
    (read : ∀ u ∈ trees, ∀ v ∈ u.preorder, ctx.source.SameAt ctx'.source v.label) :
    ((ParseTree.statementsAfter (some t) trees).mapM fun c =>
        (node ctx c).outcome (ctx.recorded root .empty)) =
      (ParseTree.statementsAfter (some t') trees).mapM fun c =>
        (node ctx' c).outcome (ctx'.recorded root' .empty) := by
  cases trees with
  | nil => rfl
  | cons u trees =>
    rw [ParseTree.statementsAfter_cons] at shared shared' ⊢
    rw [ParseTree.statementsAfter_cons]
    by_cases statement : u.isStatement
    · rw [if_pos statement] at shared shared' ⊢
      rw [if_pos statement]
      have own : (node ctx ⟨u, some t⟩).outcome (ctx.recorded root .empty) =
          (node ctx' ⟨u, some t'⟩).outcome (ctx'.recorded root' .empty) :=
        outcome_local style ⟨rfl, read u List.mem_cons_self⟩
          ((comment?_after _ silent).trans (comment?_after _ silent').symm)
          (member_awaited distinct (shared List.mem_cons_self))
          (member_awaited distinct' (shared' List.mem_cons_self))
      rw [List.mapM_cons, List.mapM_cons, own, shared_statements style distinct distinct'
        (List.subset_of_cons_subset shared) (List.subset_of_cons_subset shared') read]
    · rw [if_neg statement] at shared shared' ⊢
      rw [if_neg statement]
      exact shared_statements style distinct distinct' shared shared' read

/-- If a statement is replaced, then the statements around it are converted to the same nodes. -/
theorem replaced_statement {front back : List ParseTree} {t t' : ParseTree}
    (children : root.children = front ++ t :: back)
    (children' : root'.children = front ++ t' :: back)
    (statement : t.isStatement) (statement' : t'.isStatement)
    (read : ∀ u ∈ front ++ back, ∀ v ∈ u.preorder, ctx.source.SameAt ctx'.source v.label)
    (unmarked' : root'.fault? = none) {p : Program} (built : (ctx.build root).result = .ok p)
    {n' : Node} (converted :
      (node ctx' ⟨t', front.getLast?⟩).outcome (ctx'.recorded root' .empty) = .ok n') :
    ∃ ns n ns' p', p.body = ns ++ n :: ns' ∧ ns.length = front.countP ParseTree.isStatement ∧
      (node ctx ⟨t, front.getLast?⟩).outcome (ctx.recorded root .empty) = .ok n ∧
      (ctx'.build root').result = .ok p' ∧ p'.body = ns ++ n' :: ns' := by
  have members := ParseTree.members_around children statement
  have members' := ParseTree.members_around children' statement'
  have body := @BuildContext.build_body ctx root distinct (BuildContext.build_converts built).1
  have body' := @BuildContext.build_body ctx' root' distinct' unmarked'
  rw [built, members, List.mapM_append, List.mapM_cons] at body
  obtain ⟨ns, before, body⟩ := bind_eq_ok.1 body.symm
  obtain ⟨_, rest, body⟩ := bind_eq_ok.1 body
  obtain ⟨n, own, rest⟩ := bind_eq_ok.1 rest
  obtain ⟨ns', after, rest⟩ := bind_eq_ok.1 rest
  cases rest
  have length := (length_of_mapM_eq_ok before).trans (ParseTree.length_statementsAfter none front)
  rw [shared_statements style distinct distinct' (members ▸ List.subset_append_left _ _)
    (members' ▸ List.subset_append_left _ _)
    fun u hu => read u (List.mem_append_left back hu)] at before
  rw [statements_behind style distinct distinct' (not_comment_of_outcome own)
    (not_comment_of_outcome converted)
    (members ▸ List.Subset.trans (List.subset_cons_self _ _) (List.subset_append_right _ _))
    (members' ▸ List.Subset.trans (List.subset_cons_self _ _) (List.subset_append_right _ _))
    fun u hu => read u (List.mem_append_right front hu)] at after
  rw [members', List.mapM_append, List.mapM_cons, before, converted, after] at body'
  cases built' : (ctx'.build root').result with
  | error e =>
    rw [built'] at body'
    cases body'
  | ok p' =>
    rw [built'] at body'
    exact ⟨ns, n, ns', p', (Except.ok.inj body).symm, length, own, rfl, Except.ok.inj body'⟩

end

end Conversion

/-! ## Locality -/

open Conversion in
/-- Conversion is local. Wherever the conversion of a node begins in a build, its outcome is the one
right after all comments have been recorded, with an empty table. In two builds with the same
options a node has one outcome, also if the sources and trees are different, as long as the sources
read the same at its subtree and at the sibling before it. So if a statement is replaced by another
one that can be converted, then all other nodes of the body stay the same. -/
theorem conversion_is_local {ctx ctx' : BuildContext} {root root' : ParseTree}
    (style : ctx.style = ctx'.style) (distinct : (root.preorder.map fun t => t.label.id).Nodup)
    (distinct' : (root'.preorder.map fun t => t.label.id).Nodup) :
    (∀ c before, Begun ctx root c before →
      (node ctx c).outcome before = (node ctx c).outcome (ctx.recorded root .empty)) ∧
    (∀ c before before', Begun ctx root c before → Begun ctx' root' c before' →
      (∀ t ∈ c.previous.toList ++ c.tree.preorder, ctx.source.SameAt ctx'.source t.label) →
      (node ctx c).outcome before = (node ctx' c).outcome before') ∧
    ∀ front t t' back p n', root.children = front ++ t :: back →
      root'.children = front ++ t' :: back → t.isStatement → t'.isStatement →
      (∀ u ∈ front ++ back, ∀ v ∈ u.preorder, ctx.source.SameAt ctx'.source v.label) →
      root'.fault? = none → (ctx.build root).result = .ok p →
      (node ctx' ⟨t', front.getLast?⟩).outcome (ctx'.recorded root' .empty) = .ok n' →
      ∃ ns n ns' p', p.body = ns ++ n :: ns' ∧ ns.length = front.countP ParseTree.isStatement ∧
        (node ctx ⟨t, front.getLast?⟩).outcome (ctx.recorded root .empty) = .ok n ∧
        (ctx'.build root').result = .ok p' ∧ p'.body = ns ++ n' :: ns' := by
  refine ⟨fun c before => begun_outcome distinct, fun c before before' begun begun' read => ?_,
    fun _ _ _ _ _ _ children children' statement statement' read unmarked' built converted =>
      replaced_statement style distinct distinct' children children' statement statement' read
        unmarked' built converted⟩
  have reread : Reread ctx.source ctx'.source c c :=
    ⟨rfl, fun t ht => read t (List.mem_append_right _ ht)⟩
  have own : (Registration.documented c).comment? ctx.source =
      (Registration.documented c).comment? ctx'.source :=
    c.comment?_eq fun t ht => read t (List.mem_append_left _ (Option.mem_toList.2 ht))
  calc (node ctx c).outcome before
    _ = (node ctx c).outcome (ctx.recorded root .empty) := begun_outcome distinct begun
    _ = (node ctx' c).outcome (ctx'.recorded root' .empty) :=
      outcome_local style reread own (begun_awaited distinct begun).1
        (begun_awaited distinct' begun').1
    _ = (node ctx' c).outcome before' := (begun_outcome distinct' begun').symm

/-- A statement that is a name or a number, after its documentation comment. -/
def remarked (id start : Nat) (kind : String) : Site :=
  ⟨.phrase id start (start + 2) "expression_statement"
    [.phrase (id + 1) start (start + 1) kind [], .token (id + 2) (start + 1) (start + 2) ";"],
    some (.remark (id - 1) (start - 8) start)⟩

/-- Two statements with a documentation comment each. The second one is a name. -/
def remarkedPair (kind : String) : ParseTree :=
  .phrase 0 0 20 "program"
    [.remark 1 0 8, (remarked 2 8 kind).tree, .remark 5 10 18, (remarked 6 18 "identifier").tree]

/-- The conversion of the second statement begins with the entries that the first one has left. -/
theorem second_begun {ctx : BuildContext} {kind : String}
    (distinct : ((remarkedPair kind).preorder.map fun t => t.label.id).Nodup)
    (unmarked : (remarkedPair kind).fault? = none)
    (made : ((Conversion.all (Conversion.node ctx) [remarked 2 8 kind] >>= fun _ =>
      return (← get).table.size).outcome (ctx.recorded (remarkedPair kind) .empty)).toOption =
        some 2) :
    ∃ before, before.table.size = 2 ∧
      Conversion.Begun ctx (remarkedPair kind) (remarked 6 18 "identifier") before := by
  obtain ⟨_, run⟩ := Conversion.outcome_eq_ok.1 (eq_ok_of_toOption made)
  obtain ⟨nodes, before, converted, size⟩ := Conversion.bind_ok.1 run
  have members : (ParseTree.rootSite (remarkedPair kind)).members =
      [remarked 2 8 kind] ++ remarked 6 18 "identifier" :: [] := rfl
  exact ⟨before, (EStateM.Result.ok.inj size).1,
    Conversion.begun_statement distinct unmarked members converted⟩

open Conversion in
/-- The first statement becomes a number. The second one and its name are converted as before, in
states with entries for the first one. -/
theorem replaced_name :
    let ctx : BuildContext := ⟨⟨"pair.js", "/** d */a;/** e */b;".toList⟩, .list⟩
    let ctx' : BuildContext := ⟨⟨"pair.js", "/** d */1;/** e */b;".toList⟩, .list⟩
    let root := remarkedPair "identifier"
    let root' := remarkedPair "number"
    let c := remarked 6 18 "identifier"
    let name : Site := ⟨.phrase 7 18 19 "identifier" [], none⟩
    (root.preorder.map fun t => t.label.id).Nodup ∧
      (root'.preorder.map fun t => t.label.id).Nodup ∧
      (∃ before before', before.table.size = 2 ∧ Begun ctx root c before ∧
        Begun ctx' root' c before' ∧
        (node ctx c).outcome before = (node ctx c).outcome (ctx.recorded root .empty) ∧
        (node ctx c).outcome before = (node ctx' c).outcome before' ∧
        let inner := before.entered ctx (.documented c)
        Begun ctx root name inner ∧
          (node ctx name).outcome inner = (node ctx name).outcome (ctx.recorded root .empty)) ∧
      ∃ p p' n n' m, (ctx.build root).result = .ok p ∧ (ctx'.build root').result = .ok p' ∧
        p.body = [n, m] ∧ p'.body = [n', m] ∧ n ≠ n' := by
  intro ctx ctx' root root' c name
  have distinct : (root.preorder.map fun t => t.label.id).Nodup := by decide
  have distinct' : (root'.preorder.map fun t => t.label.id).Nodup := by decide
  have read : ∀ t ∈ [.remark 1 0 8, .remark 5 10 18, c.tree], ∀ u ∈ t.preorder,
      ctx.source.SameAt ctx'.source u.label := by
    have same : ∀ t ∈ [.remark 1 0 8, .remark 5 10 18, c.tree], ∀ u ∈ t.preorder,
        ctx.source.slice u.label.span = ctx'.source.slice u.label.span ∧
          ctx.source.lineOf u.label = ctx'.source.lineOf u.label := by
      decide +kernel
    exact fun t ht u hu => ⟨(same t ht u hu).1, (same t ht u hu).2⟩
  obtain ⟨begun, alike, replaced⟩ :=
    @conversion_is_local ctx ctx' root root' rfl distinct distinct'
  refine ⟨distinct, distinct', ?_, ?_⟩
  · obtain ⟨before, size, hc⟩ := @second_begun ctx _ distinct (by decide) (by decide +kernel)
    obtain ⟨before', -, hc'⟩ := @second_begun ctx' _ distinct' (by decide) (by decide +kernel)
    have inner := begun_expression hc (by decide) (rfl : c.firstMember? = some name)
    refine ⟨before, before', size, hc, hc', begun c before hc, ?_, inner, begun name _ inner⟩
    refine alike c before before' hc hc' fun t ht => ?_
    rcases List.mem_append.1 ht with ht | ht
    · exact read (.remark 5 10 18) (by simp) t ht
    · exact read c.tree (by simp) t ht
  · obtain ⟨p, built, two⟩ := exists_ok_of_map (f := fun p : Program => p.body.length) (b := 2)
      (r := (ctx.build root).result) (by decide +kernel)
    -- The two statements that stand in one place are told apart by the types of their nodes.
    let types (n : Node) : List String := n.preorder.map fun n => n.construct.typeName
    obtain ⟨n₁, first, types₁⟩ := exists_ok_of_map (f := types)
      (b := ["ExpressionStatement", "Identifier"])
      (r := (node ctx (remarked 2 8 "identifier")).outcome (ctx.recorded root .empty))
      (by decide +kernel)
    obtain ⟨n', first', types'⟩ := exists_ok_of_map (f := types)
      (b := ["ExpressionStatement", "Literal"])
      (r := (node ctx' (remarked 2 8 "number")).outcome (ctx'.recorded root' .empty))
      (by decide +kernel)
    obtain ⟨ns, n, ns', p', body, length, own, built', body'⟩ :=
      replaced [.remark 1 0 8] (remarked 2 8 "identifier").tree (remarked 2 8 "number").tree
        [.remark 5 10 18, c.tree] p n' rfl rfl rfl rfl read (by decide) built first'
    obtain rfl : ns = [] := List.length_eq_zero_iff.1 length
    rw [body] at two
    obtain ⟨m, rfl⟩ := List.length_eq_one_iff.1 (Nat.succ.inj two)
    refine ⟨p, p', n, n', m, built, built', body, body', fun same => ?_⟩
    obtain rfl : n₁ = n := Except.ok.inj (first.symm.trans own)
    rw [same, types'] at types₁
    exact absurd types₁ (by decide)

end ScriptTree
