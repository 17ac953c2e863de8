import ScriptTree.Build.Session
import ScriptTree.Proofs.Converts

/-!
# Handing out comments

A registry whose identities are distinct hands out every documentation comment once at most: what it
gives away it no longer has (`take_perm`). A comment that waits for a node is the one that the node
gets (`take_awaited`).
-/
namespace ScriptTree

open ParseTree (Site)

/-- The entry of a comment node that no output node has taken. -/
def CommentEntry.fresh (source : Source) (t : ParseTree) : CommentEntry :=
  ⟨t.label.id, t.toComment source, false⟩

namespace CommentRegistry

variable {r : CommentRegistry}

/-- The identities of the recorded comments. -/
def ids (r : CommentRegistry) : List Nat :=
  r.entries.map (·.id)

/-- Distinct comment nodes are recorded one after another. -/
theorem recordAll_eq (source : Source) {nodes : List ParseTree}
    (distinct : (r.ids ++ nodes.map (·.label.id)).Nodup) :
    r.recordAll source nodes = ⟨r.entries ++ nodes.map (.fresh source)⟩ := by
  induction nodes generalizing r with
  | nil => simp [recordAll]
  | cons t nodes ih =>
    have new : r.index? t.label.id = none := by
      rw [index?, List.findIdx?_eq_none_iff]
      intro e he
      have := (List.nodup_append.1 distinct).2.2 e.id (List.mem_map_of_mem he) t.label.id
        (List.mem_cons_self)
      simpa using this
    have recorded : (r.record t.label.id (t.toComment source)).2 = ⟨r.entries ++ [.fresh source t]⟩ := by
      rw [record, new]
      rfl
    have rest : ((⟨r.entries ++ [.fresh source t]⟩ : CommentRegistry).ids ++
        nodes.map (·.label.id)).Nodup := by
      simpa [ids, CommentEntry.fresh] using distinct
    have := ih rest
    rw [recordAll, List.foldl_cons, recorded]
    rw [recordAll] at this
    rw [this, List.map_cons, List.append_assoc, List.singleton_append]

theorem find?_of_mem (distinct : r.ids.Nodup) {e : CommentEntry} (he : e ∈ r.entries) :
    r.find? e.id = some e := by
  unfold find?
  obtain ⟨entries⟩ := r
  induction entries with
  | nil => cases he
  | cons first rest ih =>
    obtain ⟨hfirst, hrest⟩ := List.nodup_cons.1 distinct
    rcases List.mem_cons.1 he with rfl | he
    · simp
    · have hid : e.id ∈ rest.map (·.id) := List.mem_map_of_mem he
      have other : first.id ≠ e.id := by
        intro h
        rw [← h] at hid
        exact hfirst hid
      rw [List.find?_cons_of_neg (by simpa using other)]
      exact ih hrest he

/-! ## Taking a comment -/

/-- A mark changes nothing but whether a comment has been taken. -/
theorem mark_map {α : Type} {f : CommentEntry → α} (hf : ∀ e, f { e with attached := true } = f e)
    (r : CommentRegistry) (id : Nat) : (r.mark id).entries.map f = r.entries.map f := by
  rw [mark, List.map_map]
  refine List.map_congr_left fun e _ => ?_
  rw [Function.comp_apply]
  split
  · exact hf e
  · rfl

theorem mark_of_notMem {id : Nat} (h : id ∉ r.ids) : r.mark id = r := by
  have same : (r.entries.map fun e => if e.id == id then { e with attached := true } else e) =
      r.entries.map fun e => e := by
    refine List.map_congr_left fun e he => if_neg ?_
    rw [beq_iff_eq]
    exact fun h' => h (h' ▸ List.mem_map_of_mem he)
  rw [mark, same, List.map_id']

/-- The comment that is marked is the one that is no longer free. -/
theorem free_mark_perm (distinct : r.ids.Nodup) {id : Nat} {e : CommentEntry}
    (he : r.find? id = some e) (hf : e.isFree) : r.free.Perm (e.comment :: (r.mark id).free) := by
  obtain ⟨entries⟩ := r
  induction entries with
  | nil => cases he
  | cons first rest ih =>
    obtain ⟨hfirst, hrest⟩ := List.nodup_cons.1 distinct
    by_cases hid : first.id = id
    · subst hid
      have hfirstEq : first = e := by simpa [find?] using he
      subst hfirstEq
      have unchanged : mark ⟨rest⟩ first.id = ⟨rest⟩ := mark_of_notMem hfirst
      have marked : (mark ⟨first :: rest⟩ first.id).free = free ⟨rest⟩ := by
        rw [← unchanged]
        simp [free, mark, CommentEntry.isFree]
      rw [marked, free, List.filter_cons_of_pos hf, List.map_cons]
      exact List.Perm.refl _
    · have he' : find? ⟨rest⟩ id = some e := by simpa [find?, hid] using he
      have step := ih hrest he'
      by_cases free₁ : first.isFree
      · have l : free ⟨first :: rest⟩ = first.comment :: free ⟨rest⟩ := by simp [free, free₁]
        have r : (mark ⟨first :: rest⟩ id).free = first.comment :: (mark ⟨rest⟩ id).free := by
          simp [free, mark, hid, free₁]
        rw [l, r]
        exact (step.cons _).trans (.swap _ _ _)
      · have l : free ⟨first :: rest⟩ = free ⟨rest⟩ := by simp [free, free₁]
        have r : (mark ⟨first :: rest⟩ id).free = (mark ⟨rest⟩ id).free := by
          simp [free, mark, hid, free₁]
        rw [l, r]
        exact step

/-- A registry hands out a comment that it then no longer has, or nothing. -/
theorem take_perm (distinct : r.ids.Nodup) (doc : Option Nat) :
    r.free.Perm ((r.take doc).1.toList ++ (r.take doc).2.free) := by
  cases doc with
  | none => exact List.Perm.refl _
  | some id =>
    rw [take, attach]
    cases he : r.find? id with
    | none => exact List.Perm.refl _
    | some e =>
      by_cases hf : e.isFree
      · simp only [hf, if_true, Option.toList_some, List.singleton_append]
        exact free_mark_perm distinct he hf
      · simp only [hf, Bool.false_eq_true, if_false]
        exact List.Perm.refl _

theorem take_map {α : Type} {f : CommentEntry → α} (hf : ∀ e, f { e with attached := true } = f e)
    (r : CommentRegistry) (doc : Option Nat) :
    (r.take doc).2.entries.map f = r.entries.map f := by
  cases doc with
  | none => rfl
  | some id =>
    rw [take, attach]
    split
    · split
      · exact mark_map hf r id
      · rfl
    · rfl

/-! ## Comments that wait for a node -/

/-- The registry in which the comments of identities have been taken. -/
def markAll (r : CommentRegistry) (taken : List Nat) : CommentRegistry :=
  ⟨r.entries.map fun e => if e.id ∈ taken then { e with attached := true } else e⟩

theorem mark_eq (r : CommentRegistry) (id : Nat) : r.mark id = r.markAll [id] := by
  simp only [mark, markAll, List.mem_singleton, beq_iff_eq]

@[simp] theorem markAll_nil (r : CommentRegistry) : r.markAll [] = r := by
  simp [markAll]

@[simp] theorem markAll_markAll (r : CommentRegistry) (taken more : List Nat) :
    (r.markAll taken).markAll more = r.markAll (taken ++ more) := by
  simp only [markAll, List.map_map, mk.injEq]
  refine List.map_congr_left fun e _ => ?_
  by_cases h : e.id ∈ taken <;> by_cases h' : e.id ∈ more <;> simp [h, h']

/-- The order in which comments are taken leaves no trace. -/
theorem markAll_perm (r : CommentRegistry) {taken taken' : List Nat} (h : taken.Perm taken') :
    r.markAll taken = r.markAll taken' := by
  simp only [markAll, h.mem_iff]

theorem find?_markAll {id : Nat} {taken : List Nat} (h : id ∉ taken) :
    (r.markAll taken).find? id = r.find? id := by
  rw [find?, markAll, find?, List.find?_map]
  have same : (fun e : CommentEntry => e.id == id) ∘
      (fun e => if e.id ∈ taken then { e with attached := true } else e) = (·.id == id) := by
    funext e
    rw [Function.comp_apply]
    split <;> rfl
  rw [same]
  cases hf : r.entries.find? (·.id == id) with
  | none => rfl
  | some e =>
    have : e.id = id := by simpa using List.find?_some hf
    rw [Option.map_some, if_neg (this ▸ h)]

end CommentRegistry

namespace Registration

/-- The documentation comment of an output node. -/
def comment? (source : Source) (r : Registration) : Option Comment :=
  (r.docComment? source).map (·.toComment source)

theorem origin_doc (ctx : BuildContext) (r : Registration) :
    (r.origin ctx).doc = (r.docComment? ctx.source).map (·.label.id) := by
  cases r <;> rfl

theorem docComment?_eq (source : Source) (r : Registration) :
    r.docComment? source = r.taker?.bind (Site.docComment? source) := by
  cases r <;> rfl

/-- What documents an output node is a documentation comment right before a node that looks for
one. -/
theorem docComment?_eq_some {source : Source} {r : Registration} {t : ParseTree} :
    r.docComment? source = some t ↔
      ∃ s, r = .documented s ∧ s.previous = some t ∧ t.isComment = true ∧
        Comment.isDocText (source.slice t.label.span) = true := by
  cases r with
  | documented s =>
    simp only [docComment?, Site.docComment?, Option.filter_eq_some_iff, Bool.and_eq_true]
    constructor
    · rintro ⟨h, hc, hd⟩
      exact ⟨s, rfl, h, hc, hd⟩
    · rintro ⟨s, h, hs⟩
      cases h
      exact hs
  | bare s => simp [docComment?]
  | spanned kind first stop => simp [docComment?]

end Registration

theorem ParseTree.toComment_isDoc (source : Source) (t : ParseTree) :
    (t.toComment source).isDoc = Comment.isDocText (source.slice t.label.span) := by
  rw [Comment.isDoc, toComment, Label.comment, String.toList_ofList]

/-- What stays free of distinct comments is the documentation that has not been taken. -/
theorem CommentRegistry.free_markAll_fresh (source : Source) (nodes : List ParseTree)
    (taken : List Nat) :
    (CommentRegistry.markAll ⟨nodes.map (.fresh source)⟩ taken).free =
      (nodes.filter fun t => Comment.isDocText (source.slice t.label.span) &&
        !taken.contains t.label.id).map (·.toComment source) := by
  induction nodes with
  | nil => rfl
  | cons t nodes ih =>
    have isFree : CommentEntry.isFree (if t.label.id ∈ taken
        then { CommentEntry.fresh source t with attached := true } else .fresh source t) =
        (Comment.isDocText (source.slice t.label.span) && !taken.contains t.label.id) := by
      by_cases h : t.label.id ∈ taken <;>
        simp [h, CommentEntry.isFree, CommentEntry.fresh, ParseTree.toComment_isDoc]
    have comment : (if t.label.id ∈ taken then { CommentEntry.fresh source t with attached := true }
        else .fresh source t).comment = t.toComment source := by
      split <;> rfl
    have cons : (CommentRegistry.markAll ⟨(t :: nodes).map (.fresh source)⟩ taken).entries =
        (if t.label.id ∈ taken then { CommentEntry.fresh source t with attached := true }
          else .fresh source t) ::
        (CommentRegistry.markAll ⟨nodes.map (.fresh source)⟩ taken).entries := rfl
    rw [free, cons, List.filter_cons, isFree, List.filter_cons]
    split
    · rw [List.map_cons, comment, List.map_cons, ← ih, free]
    · rw [← ih, free]

theorem CommentRegistry.free_fresh (source : Source) (nodes : List ParseTree) :
    free ⟨nodes.map (.fresh source)⟩ = (nodes.map (·.toComment source)).filter Comment.isDoc := by
  rw [← markAll_nil ⟨nodes.map (.fresh source)⟩, free_markAll_fresh, List.filter_map]
  refine congrArg (List.map _) (List.filter_congr fun t _ => ?_)
  rw [Function.comp_apply, ParseTree.toComment_isDoc]
  exact Bool.and_true _

/-- The identities of the comments that output nodes look up. -/
def docIds (source : Source) (rs : List Registration) : List Nat :=
  rs.filterMap fun r => (r.docComment? source).map (·.label.id)

theorem docIds_append (source : Source) (as bs : List Registration) :
    docIds source (as ++ bs) = docIds source as ++ docIds source bs :=
  List.filterMap_append

theorem filterMap_doc_origin (ctx : BuildContext) (rs : List Registration) :
    (rs.map (·.origin ctx)).filterMap Origin.doc = docIds ctx.source rs := by
  rw [List.filterMap_map, docIds]
  exact List.filterMap_congr fun r _ => r.origin_doc ctx

theorem docIds_eq (source : Source) (rs : List Registration) :
    docIds source rs = (rs.filterMap (·.docComment? source)).map (·.label.id) := by
  rw [docIds, List.map_filterMap]

/-- The comments that output nodes look up are distinct, and the registry has them all. -/
structure Awaited (source : Source) (r : CommentRegistry) (rs : List Registration) : Prop where
  nodup : (docIds source rs).Nodup
  waiting : ∀ n ∈ rs, ∀ t, n.docComment? source = some t →
    r.find? t.label.id = some (.fresh source t)

namespace Awaited

variable {source : Source} {r : CommentRegistry} {as bs : List Registration}

theorem of_subperm (h : Awaited source r bs) (hs : as.Subperm bs) : Awaited source r as := by
  obtain ⟨cs, hp, hc⟩ := hs
  have ids : (docIds source cs).Nodup := h.nodup.sublist (hc.filterMap _)
  exact ⟨(hp.filterMap _).nodup_iff.1 ids, fun n hn => h.waiting n (hc.subset (hp.mem_iff.2 hn))⟩

/-- What has been taken for some nodes is not what the others look up. -/
theorem append_right (h : Awaited source r (as ++ bs)) :
    Awaited source (r.markAll (docIds source as)) bs := by
  refine ⟨(h.of_subperm (List.sublist_append_right as bs).subperm).nodup, fun n hn t ht => ?_⟩
  rw [CommentRegistry.find?_markAll]
  · exact h.waiting n (List.mem_append_right _ hn) t ht
  · intro taken
    have id : t.label.id ∈ docIds source bs := List.mem_filterMap.2 ⟨n, hn, by rw [ht]; rfl⟩
    have nodup := h.nodup
    rw [docIds_append] at nodup
    exact (List.nodup_append.1 nodup).2.2 _ taken _ id rfl

/-- A comment that waits is handed out. -/
theorem take_eq {ctx : BuildContext} {n : Registration} (h : Awaited ctx.source r [n]) :
    r.take (n.origin ctx).doc = (n.comment? ctx.source, r.markAll (docIds ctx.source [n])) := by
  rw [Registration.origin_doc, Registration.comment?, docIds]
  cases ht : n.docComment? ctx.source with
  | none => simp [CommentRegistry.take, ht]
  | some t =>
    obtain ⟨_, -, -, -, hd⟩ := Registration.docComment?_eq_some.1 ht
    have free : (CommentEntry.fresh ctx.source t).isFree = true := by
      rw [CommentEntry.isFree, CommentEntry.fresh, ParseTree.toComment_isDoc, hd]
      rfl
    have found := h.waiting n (List.mem_singleton_self n) t ht
    simp only [Option.map_some, CommentRegistry.take, CommentRegistry.attach, found, free, if_true,
      CommentRegistry.mark_eq, List.filterMap_cons, ht, List.filterMap_nil]
    rfl

end Awaited

end ScriptTree
