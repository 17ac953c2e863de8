import ScriptTree.ParseTree.Listing
import ScriptTree.Proofs.Ranges
import ScriptTree.Proofs.Texts

/-!
# The walk for comments

The comments of a program are gathered by a walk that enters every subtree. Its steps meet the nodes
of the tree one by one in preorder (`Cursor.tree_after?`), so it is over after as many steps as
there are nodes, it never leaves the tree, and it finds each comment once. The registry keeps what it
has found in this order; where nodes lie inside their parents, one after another, that is the order
of the source (`comments_listed_in_source_order`).
-/
namespace ScriptTree

namespace ParseTree

/-! ## The walk -/

namespace Cursor

/-- The cursor after a number of steps of a walk that enters every subtree, if it is not over. -/
def after? (c : Cursor) : Nat → Option Cursor
  | 0 => some c
  | steps + 1 => (c.next? true).bind (·.after? steps)

/-- Each step meets the next node that lies ahead. -/
theorem tree_after? (c : Cursor) (steps : Nat) : (c.after? steps).map tree = c.ahead[steps]? := by
  induction steps generalizing c with
  | zero =>
    rw [ahead_eq]
    rfl
  | succ steps ih =>
    rw [ahead_eq, List.getElem?_cons_succ, after?]
    cases c.next? true with
    | none => rfl
    | some next => exact ih next

end Cursor

/-- A comment is known by its kind. -/
theorem isComment_iff (t : ParseTree) :
    t.isComment = true ↔ t.label.kind = "comment" ∨ t.label.kind = "html_comment" := by
  rw [isComment, Option.any_eq_true]
  constructor
  · rintro ⟨kind, known, comment⟩
    have only : ∀ rule ∈ GrammarKind.table, rule.2.isComment = true →
        rule.1 = "comment" ∨ rule.1 = "html_comment" := by decide
    obtain ⟨_, _, split, -⟩ := List.lookup_eq_some_iff.1 known
    exact only (t.label.kind, kind) (split ▸ by simp) comment
  · rintro (kind | kind) <;> rw [kind]
    · exact ⟨.comment, rfl, rfl⟩
    · exact ⟨.htmlComment, rfl, rfl⟩

/-! ## Comments in the order of the source -/

/-- The children of a node lie inside it, one after another. -/
structure Nested (t : ParseTree) : Prop where
  inside : ∀ c ∈ t.children, t.label.span.contains c.label.span = true
  apart : t.children.Pairwise fun a b => a.label.span.stop ≤ b.label.span.start

instance (t : ParseTree) : Decidable t.Nested :=
  decidable_of_iff
    ((∀ c ∈ t.children, t.label.span.contains c.label.span = true) ∧
      t.children.Pairwise fun a b => a.label.span.stop ≤ b.label.span.start)
    ⟨fun ⟨inside, apart⟩ => ⟨inside, apart⟩, fun h => ⟨h.inside, h.apart⟩⟩

theorem forestPreorder_eq (trees : List ParseTree) :
    forestPreorder trees = trees.flatMap preorder := by
  induction trees with
  | nil => rfl
  | cons t trees ih => rw [forestPreorder, ih, List.flatMap_cons]

theorem preorder_eq (t : ParseTree) : t.preorder = t :: t.children.flatMap preorder := by
  obtain ⟨label, children⟩ := t
  rw [preorder, forestPreorder_eq]
  rfl

theorem mem_preorder_of_child {t c u : ParseTree} (hc : c ∈ t.children) (hu : u ∈ c.preorder) :
    u ∈ t.preorder := by
  rw [preorder_eq]
  exact List.mem_cons_of_mem _ (List.mem_flatMap.2 ⟨c, hc, hu⟩)

/-- All nodes of a subtree lie inside its root. -/
theorem contains_of_nested : ∀ {t : ParseTree}, (∀ u ∈ t.preorder, u.Nested) →
    ∀ u ∈ t.preorder, t.label.span.contains u.label.span = true
  | node label children, nested, u, hu => by
    have own : (node label children).Nested := nested _ List.mem_cons_self
    rw [preorder_eq, List.mem_cons, List.mem_flatMap] at hu
    rcases hu with rfl | ⟨c, hc, hu⟩
    · exact Span.contains_refl _
    · have hc : c ∈ children := hc
      exact Span.contains_trans (own.inside c hc)
        (contains_of_nested (fun v hv => nested v (mem_preorder_of_child hc hv)) u hu)

/-- Leaves that are picked from a tree follow each other without overlap. -/
theorem leaves_apart (p : ParseTree → Bool) : ∀ {t : ParseTree}, (∀ u ∈ t.preorder, u.Nested) →
    (∀ u ∈ t.preorder.filter p, u.children = []) →
    (t.preorder.filter p).Pairwise fun a b => a.label.span.stop ≤ b.label.span.start
  | node label children, nested, leaves => by
    have own : (node label children).Nested := nested _ List.mem_cons_self
    have below {c : ParseTree} (hc : c ∈ children) : ∀ u ∈ c.preorder, u.Nested :=
      fun u hu => nested u (mem_preorder_of_child hc hu)
    cases picked : p (node label children) with
    | true =>
      obtain rfl : children = [] :=
        leaves (node label children) (List.mem_filter.2 ⟨List.mem_cons_self, picked⟩)
      rw [preorder_eq, List.filter_cons_of_pos picked]
      exact List.pairwise_singleton _ _
    | false =>
      have skipped : (node label children).preorder.filter p =
          children.flatMap fun c => c.preorder.filter p := by
        rw [preorder_eq, List.filter_cons_of_neg (by rw [picked]; exact Bool.false_ne_true),
          List.filter_flatMap]
        rfl
      rw [skipped] at leaves ⊢
      refine List.pairwise_flatMap.2 ⟨fun c hc => leaves_apart p (below hc) fun u hu =>
        leaves u (List.mem_flatMap.2 ⟨c, hc, hu⟩), ?_⟩
      refine own.apart.imp_of_mem fun {c d} hc hd apart a ha b hb => ?_
      have left := Span.contains_iff.1 (contains_of_nested (below hc) a (List.mem_filter.1 ha).1)
      have right := Span.contains_iff.1 (contains_of_nested (below hd) b (List.mem_filter.1 hb).1)
      omega

/-! ## Trees that have been read -/

/-- The nodes of a listed tree have distinct identities: the places of their entries. -/
theorem ids_ofListing? {entries : List Entry} {root : ParseTree}
    (h : ofListing? entries = some root) :
    root.preorder.map (fun t => t.label.id) = List.range entries.length := by
  have gathered (entries : List Entry) (first : Nat) :
      (forestPreorder ((entries.zipIdx first).foldr Entry.gather [])).map (fun t => t.label.id) =
        List.range' first entries.length := by
    induction entries generalizing first with
    | nil => rfl
    | cons e entries ih =>
      have split (label : Label) (n : Nat) (trees : List ParseTree) :
          forestPreorder (.node label (trees.take n) :: trees.drop n) =
            .node label (trees.take n) :: forestPreorder trees := by
        rw [forestPreorder_eq, forestPreorder_eq, List.flatMap_cons, preorder_eq, List.cons_append,
          children, ← List.flatMap_append, List.take_append_drop]
      rw [List.zipIdx_cons, List.foldr_cons, Entry.gather, split, List.map_cons, ih,
        List.length_cons, List.range'_succ]
      rfl
  unfold ofListing? at h
  split at h
  · next tree only =>
    cases h
    have ids := gathered entries 0
    rwa [only, forestPreorder_eq, List.flatMap_singleton, ← List.range_eq_range'] at ids
  · cases h

theorem collectComments_distinct {entries : List Entry} {root : ParseTree}
    (h : ofListing? entries = some root) :
    (root.collectComments.map fun t => t.label.id).Nodup := by
  have distinct : (root.preorder.map fun t => t.label.id).Nodup :=
    ids_ofListing? h ▸ List.nodup_range
  rw [root.collectComments_eq]
  exact distinct.sublist (List.filter_sublist.map _)

end ParseTree

/-! ## The comments of a program -/

/-- Every comment is listed once and in the order of the source. The walk for comments meets the
nodes of the tree one by one in preorder and then is over, and it finds the nodes of the two kinds of
comments. A program lists what has been found, and all comments that it or its nodes have are in the
list. Where nodes lie inside their parents, one after another, and comments are leaves with a text,
the ranges in the list follow each other without overlap. -/
theorem comments_listed_in_source_order (session : BuildSession) (source : Source)
    (root : ParseTree) :
    (∀ steps, ((ParseTree.Cursor.start root).after? steps).map ParseTree.Cursor.tree =
      root.preorder[steps]?) ∧
    root.collectComments = root.preorder.filter
      (fun t => t.label.kind = "comment" ∨ t.label.kind = "html_comment") ∧
    ∀ p, (session.build source root).1 = .ok p →
      (∀ c ∈ p.leading ++ p.trailing ++ p.nodes.filterMap Node.doc, c ∈ p.comments) ∧
      ((root.collectComments.map fun t => t.label.id).Nodup →
        p.comments = root.collectComments.map (·.toComment source) ∧
        ((∀ t ∈ root.preorder, t.Nested) →
          (∀ t ∈ root.collectComments,
            t.children = [] ∧ t.label.span.start < t.label.span.stop) →
          p.comments.Pairwise fun c d => c.span.stop ≤ d.span.start ∧
            c.span.start < d.span.start ∧ c.span.stop < d.span.stop)) := by
  let ctx : BuildContext := ⟨source, session.style⟩
  refine ⟨fun steps => ?_, ?_, fun p h => ⟨fun c hc => ?_, fun distinct => ?_⟩⟩
  · rw [ParseTree.Cursor.tree_after?, ParseTree.Cursor.ahead_start]
  · rw [root.collectComments_eq, ParseTree.comments]
    refine List.filter_congr fun t _ => ?_
    rw [Bool.eq_iff_iff, t.isComment_iff, decide_eq_true_iff]
  · refine @BuildContext.mem_comments_of_build ctx root p c h ?_
    rw [Program.everyComment, List.append_assoc]
    exact List.mem_append_right _ hc
  · have recorded : CommentRegistry.recordAll source root.collectComments .empty =
        ⟨root.collectComments.map (.fresh source)⟩ :=
      CommentRegistry.recordAll_eq source distinct
    have all : p.comments = root.collectComments.map (·.toComment source) := by
      refine (@BuildContext.comments_of_build ctx root p h).trans ?_
      show (CommentRegistry.recordAll source root.collectComments .empty).all = _
      rw [recorded, CommentRegistry.all, List.map_map]
      rfl
    refine ⟨all, fun nested leaves => ?_⟩
    have apart := ParseTree.leaves_apart ParseTree.isComment nested fun u hu =>
      (leaves u (root.collectComments_eq ▸ hu)).1
    rw [all, List.pairwise_map, root.collectComments_eq]
    refine apart.imp_of_mem fun {t u} ht hu apart => ?_
    have left := (leaves t (root.collectComments_eq ▸ ht)).2
    have right := (leaves u (root.collectComments_eq ▸ hu)).2
    show t.label.span.stop ≤ u.label.span.start ∧ t.label.span.start < u.label.span.start ∧
      t.label.span.stop < u.label.span.stop
    omega

/-- The three comments of the loop are listed in their order. -/
theorem loop_comments_listed :
    (loopTree.collectComments.map fun t => t.label.id).Nodup ∧
      (∀ t ∈ loopTree.preorder, t.Nested) ∧
      (∀ t ∈ loopTree.collectComments,
        t.children = [] ∧ t.label.span.start < t.label.span.stop) ∧
      ∃ p, ((BuildSession.start .single).build loopSource loopTree).1 = .ok p ∧
        p.comments = [⟨"/** d */", ⟨0, 8⟩, 1⟩, ⟨"/** m */", ⟨21, 29⟩, 1⟩, ⟨"/** t */", ⟨39, 47⟩, 1⟩] ∧
        p.comments.Pairwise fun c d => c.span.stop ≤ d.span.start ∧
          c.span.start < d.span.start ∧ c.span.stop < d.span.stop := by
  have found : loopTree.collectComments = [.remark 1 0 8, .remark 10 21 29, .remark 25 39 47] := by
    rw [loopTree.collectComments_eq]
    rfl
  have distinct : (loopTree.collectComments.map fun t => t.label.id).Nodup := by
    rw [found]
    decide
  have nested : ∀ t ∈ loopTree.preorder, t.Nested := by decide
  have leaves : ∀ t ∈ loopTree.collectComments,
      t.children = [] ∧ t.label.span.start < t.label.span.stop := by
    rw [found]
    simp [ParseTree.remark, ParseTree.children, ParseTree.label]
  obtain ⟨p, hp⟩ := loop_builds
  obtain ⟨-, -, built⟩ := comments_listed_in_source_order (.start .single) loopSource loopTree
  obtain ⟨all, ordered⟩ := (built p hp).2 distinct
  refine ⟨distinct, nested, leaves, p, hp, ?_, ordered nested leaves⟩
  rw [all, found]
  decide +kernel

end ScriptTree
