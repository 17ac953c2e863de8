import Mathlib.Data.List.Forall2
import ScriptTree.Proofs.Constructs
import ScriptTree.Proofs.Parallels

/-!
# Trees without extra nodes

Comments are extra nodes: they may stand between any two tokens. `ParseTree.withoutExtras` takes
them out of a tree, and the conversion of what is left goes in parallel with that of the whole tree.
So comments never decide whether a build succeeds, how it fails or what the nodes are
(`extras_never_influence`); all that depends on them is the documentation comment of a node.
-/
namespace ScriptTree

open ParseTree (Site)

/-- What an entry of the identity table says apart from the documentation comment. -/
def Origin.undocumented (o : Origin) : Origin :=
  { o with doc := none }

namespace ParseTree

mutual

/-- A tree without the extra nodes below its root. -/
def withoutExtras : ParseTree → ParseTree
  | node label children => node label (forestWithoutExtras children)

/-- The trees of a list that are not extra, without the extra nodes in them. -/
def forestWithoutExtras : List ParseTree → List ParseTree
  | [] => []
  | tree :: trees =>
    if tree.label.extra then forestWithoutExtras trees
    else withoutExtras tree :: forestWithoutExtras trees

end

@[simp] theorem withoutExtras_label (t : ParseTree) : t.withoutExtras.label = t.label := by
  cases t
  rfl

@[simp] theorem withoutExtras_children (t : ParseTree) :
    t.withoutExtras.children = forestWithoutExtras t.children := by
  cases t
  rfl

end ParseTree

/-- A node whose subtree has lost all documentation comments. -/
def Node.undocumented : Node → Node :=
  fold fun node parts => .mk parts node.span node.line none

@[simp] theorem Node.undocumented_mk (c : Construct Node) (span : Span) (line : Nat)
    (doc : Option Comment) :
    (Node.mk c span line doc).undocumented = .mk (c.map undocumented) span line none := by
  rw [undocumented, fold_eq]
  rfl

/-- Two nodes that differ at most in the documentation comments of their subtrees. -/
def Node.SameConstructs (n n' : Node) : Prop :=
  n.undocumented = n'.undocumented

namespace BuildState

/-- The entries of the identity table, apart from documentation comments. -/
def undocumented (st : BuildState) : List Origin :=
  st.table.origins.toList.map Origin.undocumented

/-- Two states whose identity tables differ at most in documentation comments: they list the same
kinds, identities, places and lines. -/
def SameEntries (st st' : BuildState) : Prop :=
  st.undocumented = st'.undocumented

theorem SameEntries.size {st st' : BuildState} (h : st.SameEntries st') :
    st.table.size = st'.table.size := by
  have := congrArg List.length h
  rwa [undocumented, undocumented, List.length_map, List.length_map, Array.length_toList,
    Array.length_toList] at this

theorem SameEntries.origin {st st' : BuildState} (h : st.SameEntries st') (place : Nat) :
    ((st.table.origin? place).getD .missing).undocumented =
      ((st'.table.origin? place).getD .missing).undocumented := by
  have entries := congrArg (fun l : List Origin => l[place]?) h
  simp only [undocumented, List.getElem?_map, Array.getElem?_toList] at entries
  rw [IdentityTable.origin?, IdentityTable.origin?]
  revert entries
  cases st.table.origins[place]? <;> cases st'.table.origins[place]? <;> intro entries <;>
    first | rfl | exact Option.some.inj entries | cases entries

end BuildState

/-! ## What extra nodes leave alone -/

/-- A site and the same site in the tree without extra nodes, where these have been in no field. -/
structure ParseTree.Site.Stripped (s s' : Site) : Prop where
  tree : s'.tree = s.tree.withoutExtras
  plain : ∀ c ∈ s.below, c.label.extra = true → c.label.field = none

namespace ParseTree.Site.Stripped

variable {s s' : Site}

theorem label (h : s.Stripped s') : s.label = s'.label := by
  rw [Site.label, Site.label, h.tree, withoutExtras_label]

/-- The children without comments are the children of what is left. -/
theorem tokens_children (h : s.Stripped s') : List.Forall₂ Stripped s.tokens s'.children := by
  have sites : ∀ (previous previous' : Option ParseTree) (trees : List ParseTree),
      (∀ c ∈ forestSites previous trees, c.label.extra = true → c.label.field = none) →
      List.Forall₂ Stripped
        ((sitesAfter previous trees).filter fun c => !c.label.extra)
        (sitesAfter previous' (forestWithoutExtras trees)) := by
    intro previous previous' trees
    induction trees generalizing previous previous' with
    | nil => exact fun _ => .nil
    | cons tree trees ih =>
      intro plain
      rw [forestSites_eq, sitesAfter, List.flatMap_cons, ← forestSites_eq] at plain
      have here : ∀ c ∈ below ⟨tree, previous⟩, c.label.extra = true → c.label.field = none :=
        fun c hc => plain c (List.mem_append_left _ (List.mem_cons_of_mem _ hc))
      have rest := fun previous' =>
        ih (some tree) previous' fun c hc => plain c (List.mem_append_right _ hc)
      rw [sitesAfter, forestWithoutExtras]
      by_cases extra : tree.label.extra
      · rw [List.filter_cons_of_neg (by simp [Site.label, extra]), if_pos extra]
        exact rest previous'
      · rw [List.filter_cons_of_pos (by simp [Site.label, extra]), if_neg extra, sitesAfter]
        exact .cons ⟨rfl, here⟩ (rest _)
  unfold tokens children
  rw [h.tree, withoutExtras_children]
  exact sites none none s.tree.children h.plain

/-- Children that are picked by their labels, so that no comment is among them. -/
theorem filter_children (h : s.Stripped s') (p : Label → Bool)
    (plain : ∀ c ∈ s.children, p c.label = true → c.label.extra = false) :
    List.Forall₂ Stripped (s.children.filter fun c => p c.label)
      (s'.children.filter fun c => p c.label) := by
  have picked : (s.children.filter fun c => p c.label) = s.tokens.filter fun c => p c.label := by
    rw [tokens, List.filter_filter]
    refine List.filter_congr fun c hc => ?_
    cases hp : p c.label with
    | false => rfl
    | true => rw [plain c hc hp]; rfl
  rw [picked]
  refine List.rel_filter (R := Stripped) (fun c c' related => ?_) h.tokens_children
  show p c.label = true ↔ p c'.label = true
  rw [related.label]

theorem field (h : s.Stripped s') (name : String) :
    Option.Rel Stripped (s.field? name) (s'.field? name) := by
  rw [field?, field?, ← List.head?_filter, ← List.head?_filter]
  refine head?_rel (h.filter_children (fun label => label.field == some name) fun c hc hp => ?_)
  -- A comment would be in no field.
  have plain := h.plain c (mem_below.2 ⟨c, hc, c.mem_subtree_self⟩)
  cases extra : c.label.extra with
  | false => rfl
  | true => simp [plain extra] at hp

theorem alike (source : Source) (h : s.Stripped s') :
    s.Alike source source Stripped Stripped s' := by
  have members := h.filter_children
    (fun label => label.named && !label.extra && label.kind != "hash_bang_line")
    fun c _ hp => by simp_all
  have tokens := h.filter_children (fun label => !label.extra) fun c _ hp => by simp_all
  have fieldMembers name := h.filter_children
    (fun label => label.field == some name && label.named && !label.extra)
    fun c _ hp => by simp_all
  exact .plain (.refl source s.label) h.label members tokens h.field fieldMembers fun _ _ related =>
    congrArg Label.span related.label

end ParseTree.Site.Stripped

namespace Conversion

/-- Making an entry keeps two tables alike that differ in documentation comments only. -/
theorem enter_undocumented {o o' : Origin} (same : o.undocumented = o'.undocumented) :
    Parallel BuildState.SameEntries (id : Nat → Nat) id (enter o) (enter o') := by
  intro st st' h
  have entered : BuildState.SameEntries { st with table := (st.table.register o).2 }
      { st' with table := (st'.table.register o').2 } := by
    simp only [BuildState.SameEntries, BuildState.undocumented, IdentityTable.register,
      Array.toList_push, List.map_append, List.map_cons, List.map_nil, same]
    exact congrArg (· ++ _) h
  refine .inl ⟨st.table.size, _, _, rfl, ?_, entered⟩
  rw [h.size]
  rfl

/-- The entry of a node without extra nodes differs from that of the node in the comment only. -/
theorem register_undocumented (ctx : BuildContext) {s s' : Site} (h : s.Stripped s') :
    Parallel BuildState.SameEntries (id : Nat → Nat) id (register ctx s) (register ctx s') := by
  have alike := h.alike ctx.source
  refine enter_undocumented ?_
  rw [Origin.undocumented, Origin.undocumented, alike.kind, alike.id, alike.span,
    BuildContext.line, BuildContext.line, alike.lineOf]

/-- Finished nodes are the same apart from documentation comments if their parts are. -/
theorem finish_undocumented (ctx : BuildContext) (place : Nat)
    (c : Construct (Pair Node.SameConstructs)) :
    Parallel BuildState.SameEntries (Pair.left (R := Node.SameConstructs)) Pair.right
      (finish place (viewed ctx Pair.left c)) (finish place (viewed ctx Pair.right c)) := by
  intro st st' h
  have origin := h.origin place
  have span := congrArg Origin.span origin
  have line := congrArg Origin.line origin
  have parts : Node.undocumented ∘ Pair.left (R := Node.SameConstructs) =
      Node.undocumented ∘ Pair.right := funext Pair.related
  rw [finish_run, finish_run]
  refine .inl ⟨⟨.mk _ _ _ _, .mk _ _ _ _, ?_⟩, _, _, rfl, rfl, h⟩
  rw [Node.SameConstructs, Node.undocumented_mk, Node.undocumented_mk, viewed, viewed,
    Construct.inStyle_map, Construct.inStyle_map, Construct.map_map, Construct.map_map, parts]
  exact congrArg₂ (fun span line => Node.mk _ span line none) span line

theorem undocumented_correspondence (ctx : BuildContext) :
    Correspondence ctx ctx BuildState.SameEntries id Node.SameConstructs Site.Stripped
      Site.Stripped :=
  .plain (fun _ _ h => h.label) (fun _ _ h => h.alike ctx.source) (fun _ _ => register_undocumented ctx)
    (fun _ => enter_undocumented rfl) (finish_undocumented ctx)

end Conversion

/-- Comments never influence the tree. Take the extra nodes out of a parse tree in which they are in
no field: then the statements of the program are converted to the same nodes apart from
documentation comments, or the conversion of both fails with one error, whatever comments have been
recorded. Either way the identity tables list the same entries apart from documentation comments. -/
theorem extras_never_influence (ctx : BuildContext) (root : ParseTree)
    (plain : ∀ t ∈ root.preorder, t.label.extra = true → t.label.field = none)
    (comments comments' : CommentRegistry) (table : IdentityTable) :
    (∃ body body' st st', ctx.convertBody root ⟨comments, table⟩ = .ok body st ∧
        ctx.convertBody root.withoutExtras ⟨comments', table⟩ = .ok body' st' ∧
        body.map Node.undocumented = body'.map Node.undocumented ∧ st.SameEntries st') ∨
      ∃ e st st', ctx.convertBody root ⟨comments, table⟩ = .error e st ∧
        ctx.convertBody root.withoutExtras ⟨comments', table⟩ = .error e st' ∧
        st.SameEntries st' := by
  have stripped : (ParseTree.rootSite root).Stripped (ParseTree.rootSite root.withoutExtras) := by
    refine ⟨rfl, fun c hc => plain c.tree ?_⟩
    rw [← ParseTree.map_tree_preorderSites none root, ParseTree.preorderSites_eq]
    exact List.mem_map_of_mem (List.mem_cons_of_mem _ hc)
  have same : BuildState.SameEntries ⟨comments, table⟩ ⟨comments', table⟩ := rfl
  rcases Conversion.convertBody_parallel (Conversion.undocumented_correspondence ctx) stripped same
    with ⟨pairs, st, st', hst, hst', entries⟩ | ⟨e, st, st', -, failed⟩
  · refine .inl ⟨_, _, st, st', hst, hst', ?_, entries⟩
    rw [List.map_map, List.map_map]
    exact List.map_congr_left fun pair _ => pair.related
  · exact .inr ⟨e, st, st', failed⟩

/-- The loop with its three comments recorded converts to the nodes of the loop without comments. -/
theorem loop_without_extras :
    (∀ t ∈ loopTree.preorder, t.label.extra = true → t.label.field = none) ∧
      ∃ body body' st st',
        BuildContext.convertBody ⟨loopSource, .list⟩ loopTree
            ⟨.recordAll loopSource loopTree.comments .empty, .empty⟩ = .ok body st ∧
          BuildContext.convertBody ⟨loopSource, .list⟩ loopTree.withoutExtras ⟨.empty, .empty⟩ =
            .ok body' st' ∧
          body.map Node.undocumented = body'.map Node.undocumented ∧ st.SameEntries st' := by
  have plain : ∀ t ∈ loopTree.preorder, t.label.extra = true → t.label.field = none := by decide
  have converted : ((BuildContext.convertBody ⟨loopSource, .list⟩ loopTree).run'
      ⟨.recordAll loopSource loopTree.comments .empty, .empty⟩).isSome = true := by decide +kernel
  refine ⟨plain, ?_⟩
  rcases extras_never_influence ⟨loopSource, .list⟩ loopTree plain
      (.recordAll loopSource loopTree.comments .empty) .empty .empty with
    both | ⟨e, st, -, failed, -⟩
  · exact both
  · delta EStateM.run' EStateM.run at converted
    rw [failed] at converted
    cases converted

end ScriptTree
