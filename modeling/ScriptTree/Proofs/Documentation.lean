import ScriptTree.Proofs.Constructs
import ScriptTree.Proofs.Registry

/-!
# Documentation comments

Where the documentation comments of a source end up. A comment is on the output node that looks for
it and on no other; the program keeps those that nothing looks for.
-/
namespace ScriptTree

open ParseTree (Site)

namespace Converts

variable {ctx : BuildContext} {plans : List Plan} {nodes : List Node} {st st' : BuildState}

/-- A conversion changes nothing in the registry but which comments have been taken. -/
theorem entries_map_eq {α : Type} {f : CommentEntry → α}
    (hf : ∀ e, f { e with attached := true } = f e) (h : Converts ctx plans st nodes st') :
    st'.comments.entries.map f = st.comments.entries.map f := by
  induction h with
  | nil => rfl
  | convert _ _ _ ihs ihp => rw [ihp, ihs]
  | node _ _ _ _ ihp ihr =>
    rw [ihr, CommentRegistry.take_map hf, ihp, BuildState.foldl_entered_comments]

theorem ids_eq (h : Converts ctx plans st nodes st') : st'.comments.ids = st.comments.ids :=
  h.entries_map_eq fun _ => rfl

theorem all_eq (h : Converts ctx plans st nodes st') : st'.comments.all = st.comments.all :=
  h.entries_map_eq fun _ => rfl

/-- Every comment that has been handed out is on a node. -/
theorem free_perm (h : Converts ctx plans st nodes st') (distinct : st.comments.ids.Nodup) :
    st.comments.free.Perm
      ((nodes.flatMap Node.preorder).filterMap Node.doc ++ st'.comments.free) := by
  induction h with
  | nil => exact List.Perm.refl _
  | convert _ hs _ ihs ihp =>
    rw [List.flatMap_cons, List.filterMap_append, List.append_assoc]
    rw [List.flatMap_singleton] at ihs
    exact (ihs distinct).trans ((ihp (hs.ids_eq ▸ distinct)).append_left _)
  | @node entry key parts plans st st₁ st' nodes c hk _ hp _ ihp ihr =>
    rw [BuildState.foldl_entered_comments] at ihp
    have distinct₁ : st₁.comments.ids.Nodup := by
      rw [hp.ids_eq, BuildState.foldl_entered_comments]
      exact distinct
    have parts := ihp distinct
    have own := CommentRegistry.take_perm distinct₁ (entry.origin ctx).doc
    have rest := ihr (by rwa [CommentRegistry.ids, CommentRegistry.take_map fun _ => rfl])
    have keys : (key.toList.map (bareName ctx)).filterMap Node.doc = [] := by
      cases key <;> simp
    have head (n : Node) (ns : List Node) :
        (n :: ns).filterMap Node.doc = n.doc.toList ++ ns.filterMap Node.doc := by
      cases hd : n.doc <;> simp [hd]
    rw [List.flatMap_cons, List.filterMap_append, Node.preorder_mk hk, head, List.filterMap_append,
      keys, List.nil_append, List.append_assoc, List.append_assoc]
    refine parts.trans (((own.trans (rest.append_left _)).append_left _).trans ?_)
    exact List.perm_append_comm_assoc _ _ _

/-- A node has the comment that it looks for, and nothing else takes a comment. -/
theorem docs_eq (h : Converts ctx plans st nodes st')
    (awaited : Awaited ctx.source st.comments (rollAll Site.roll plans)) :
    (nodes.flatMap Node.preorder).map Node.doc =
        (rollAll Site.roll plans).map (·.comment? ctx.source) ∧
      st'.comments = st.comments.markAll (docIds ctx.source (rollAll Site.roll plans)) := by
  induction h with
  | nil => exact ⟨rfl, (CommentRegistry.markAll_nil _).symm⟩
  | @convert s plans st st₁ st' n nodes _ _ _ ihs ihp =>
    rw [rollAll_convert] at awaited
    rw [← roll_eq, List.flatMap_singleton] at ihs
    obtain ⟨docs, comments⟩ := ihs (awaited.of_subperm (List.sublist_append_left _ _).subperm)
    obtain ⟨docs', comments'⟩ := ihp (comments ▸ awaited.append_right)
    refine ⟨?_, ?_⟩
    · rw [List.flatMap_cons, List.map_append, docs, docs', rollAll_convert, List.map_append]
    · rw [comments', comments, CommentRegistry.markAll_markAll, rollAll_convert, docIds_append]
  | @node entry key parts plans st st₁ st' nodes c hk _ _ _ ihp ihr =>
    let inner := rollAll Site.roll parts
    let outer := rollAll Site.roll plans
    let keys : List Registration := key.toList.map .bare
    have noKeys : docIds ctx.source keys = [] := by
      cases hkey : key <;> simp [keys, hkey, docIds, Registration.docComment?]
    rw [rollAll_node] at awaited
    rw [BuildState.foldl_entered_comments] at ihp
    -- A node takes its comment after its parts, but it is entered before them.
    have order : (inner ++ ([entry] ++ outer)).Subperm (entry :: (keys ++ inner) ++ outer) :=
      ⟨entry :: (inner ++ outer), List.perm_middle.symm,
        ((List.sublist_append_right keys inner).append_right outer).cons_cons entry⟩
    have awaited := awaited.of_subperm order
    obtain ⟨docs, comments⟩ := ihp (awaited.of_subperm (List.sublist_append_left _ _).subperm)
    have awaited₁ := awaited.append_right
    rw [← comments] at awaited₁
    have own := (awaited₁.of_subperm (List.sublist_append_left _ _).subperm).take_eq
    rw [own] at ihr
    obtain ⟨docs', comments'⟩ := ihr awaited₁.append_right
    refine ⟨?_, ?_⟩
    · have keyDocs : (key.toList.map (bareName ctx)).map Node.doc =
          keys.map (·.comment? ctx.source) := by
        cases hkey : key <;> simp [keys, hkey, Registration.comment?, Registration.docComment?]
      rw [List.flatMap_cons, List.map_append, Node.preorder_mk hk, docs', rollAll_node,
        List.map_append, List.map_cons, List.map_cons, List.map_append, List.map_append, keyDocs,
        docs, Node.doc, own]
    · have ids : docIds ctx.source (entry :: (keys ++ inner) ++ outer) =
          docIds ctx.source [entry] ++ docIds ctx.source inner ++ docIds ctx.source outer := by
        rw [docIds_append, ← List.singleton_append, docIds_append, docIds_append, noKeys,
          List.nil_append]
      rw [comments', comments, CommentRegistry.markAll_markAll, CommentRegistry.markAll_markAll,
        rollAll_node]
      refine CommentRegistry.markAll_perm _ ?_
      rw [ids, ← List.append_assoc]
      exact List.perm_append_comm.append_right _

end Converts

/-! ## Whole builds -/

section

variable {source : Source} {root : ParseTree}

/-- No two output nodes look up one comment, and each looks up a node of the tree. -/
theorem docComments_subperm (source : Source) (root : ParseTree) :
    (root.roll.filterMap (·.docComment? source)).Subperm root.preorder := by
  have split : root.roll.filterMap (·.docComment? source) =
      (root.roll.filterMap Registration.taker?).filterMap (Site.docComment? source) := by
    rw [List.filterMap_filterMap]
    exact List.filterMap_congr fun r _ => r.docComment?_eq source
  have previous (sites : List Site) : (sites.filterMap (Site.docComment? source)).Sublist
      (sites.filterMap Site.previous) := by
    have : sites.filterMap (Site.docComment? source) = (sites.filterMap Site.previous).filter
        fun t => t.isComment && Comment.isDocText (source.slice t.label.span) := by
      rw [List.filter_filterMap]
      rfl
    rw [this]
    exact List.filter_sublist
  obtain ⟨sites, perm, sublist⟩ := takers_root_subperm root
  rw [split]
  refine List.Subperm.trans ?_ (ParseTree.previous_subperm_preorder root)
  exact ((perm.symm.filterMap _).subperm).trans
    ((previous sites).trans (sublist.filterMap _)).subperm

/-- The comments of a tree with distinct nodes are recorded as they are. -/
theorem recorded_comments {ctx : BuildContext}
    (distinct : (root.preorder.map fun t => t.label.id).Nodup) :
    (ctx.recorded root .empty).comments = ⟨root.comments.map (.fresh ctx.source)⟩ := by
  have comments : (root.comments.map (·.label.id)).Nodup :=
    distinct.sublist (List.filter_sublist.map _)
  rw [BuildContext.recorded, root.collectComments_eq]
  exact CommentRegistry.recordAll_eq ctx.source comments

theorem recorded_awaited {ctx : BuildContext}
    (distinct : (root.preorder.map fun t => t.label.id).Nodup) :
    Awaited ctx.source (ctx.recorded root .empty).comments root.roll := by
  have looked := docComments_subperm ctx.source root
  refine ⟨?_, fun r hr t ht => ?_⟩
  · rw [docIds_eq]
    obtain ⟨l, perm, sublist⟩ := looked
    exact (perm.map _).nodup_iff.1 (distinct.sublist (sublist.map _))
  · obtain ⟨-, -, -, comment, -⟩ := Registration.docComment?_eq_some.1 ht
    have ht : t ∈ root.comments :=
      List.mem_filter.2 ⟨looked.subset (List.mem_filterMap.2 ⟨r, hr, ht⟩), comment⟩
    rw [recorded_comments distinct]
    refine CommentRegistry.find?_of_mem ?_ (List.mem_map_of_mem ht)
    rw [CommentRegistry.ids, List.map_map]
    exact distinct.sublist (List.filter_sublist.map _)

end

/-- The table, the nodes' comments and the registry that a build leaves behind, by the roll. -/
theorem BuildContext.build_roll {ctx : BuildContext} {root : ParseTree} {p : Program}
    (distinct : (root.preorder.map fun t => t.label.id).Nodup)
    (h : (ctx.build root).result = .ok p) :
    (ctx.build root).state.table.origins.toList = root.roll.map (·.origin ctx) ∧
      p.nodes.map Node.doc = root.roll.map (·.comment? ctx.source) ∧
      (ctx.build root).state.comments =
        CommentRegistry.markAll ⟨root.comments.map (.fresh ctx.source)⟩
          (docIds ctx.source root.roll) := by
  obtain ⟨-, body, -⟩ := build_converts h
  have roll : rollAll Site.roll ((ParseTree.rootSite root).members.map .convert) = root.roll :=
    rollAll_map_convert _ _
  have table := body.table_eq
  have docs := body.docs_eq (roll ▸ recorded_awaited distinct)
  rw [roll] at table docs
  exact ⟨table, docs.1, recorded_comments distinct ▸ docs.2⟩

/-- Only nodes of the tree with an output node of their own look for a comment. -/
theorem ParseTree.documented_site {root : ParseTree} {s : Site} (h : .documented s ∈ root.roll) :
    s ∈ root.preorderSites none ∧ s.IsConstruct := by
  obtain ⟨c, -, hc⟩ := List.mem_flatMap.1 h
  exact ⟨(takers_root_subperm root).subset (List.mem_filterMap.2 ⟨_, h, rfl⟩),
    documented_isConstruct hc⟩

/-- An output node has a documentation comment if and only if it was entered together with a look
at the node directly before it and this is a documentation comment; then it has that comment. What
an entry looks up it gets: no two entries look up one comment, so none is taken already. -/
theorem doc_comment_placed (session : BuildSession) (source : Source) (root : ParseTree)
    (p : Program) (distinct : (root.preorder.map fun t => t.label.id).Nodup)
    (h : (session.build source root).1 = .ok p) :
    let origins := (session.build source root).2.state.table.origins.toList
    origins = root.roll.map (·.origin ⟨source, session.style⟩) ∧
      (∀ s, .documented s ∈ root.roll → s ∈ root.preorderSites none ∧ s.IsConstruct) ∧
      p.nodes.length = root.roll.length ∧
      (origins.filterMap Origin.doc).Nodup ∧
      ∀ (i : Nat) (n : Node) (r : Registration), p.nodes[i]? = some n → root.roll[i]? = some r →
        (r.origin ⟨source, session.style⟩).doc.isSome = n.doc.isSome ∧
        ∀ c, n.doc = some c ↔
          ∃ s prev, r = .documented s ∧ s.previous = some prev ∧ prev.isComment = true ∧
            Comment.isDocText (source.slice prev.label.span) = true ∧
            c = prev.toComment source := by
  obtain ⟨table, docs, -⟩ := @BuildContext.build_roll ⟨source, session.style⟩ root p distinct h
  have lookedUp := filterMap_doc_origin ⟨source, session.style⟩ root.roll
  have awaited := @recorded_awaited root ⟨source, session.style⟩ distinct
  refine ⟨table, fun s => ParseTree.documented_site, ?_, ?_, fun i n r hn hr => ?_⟩
  · have := congrArg List.length docs
    rwa [List.length_map, List.length_map] at this
  · exact (congrArg (List.filterMap Origin.doc) table).trans lookedUp ▸ awaited.nodup
  have doc : n.doc = r.comment? source := by
    have := congrArg (·[i]?) docs
    simpa [List.getElem?_map, hn, hr] using this
  refine ⟨?_, fun c => ?_⟩
  · rw [Registration.origin_doc, doc, Registration.comment?, Option.isSome_map, Option.isSome_map]
  rw [doc, Registration.comment?, Option.map_eq_some_iff]
  constructor
  · rintro ⟨prev, hprev, rfl⟩
    obtain ⟨s, rfl, before, comment, isDoc⟩ := Registration.docComment?_eq_some.1 hprev
    exact ⟨s, prev, rfl, before, comment, isDoc, rfl⟩
  · rintro ⟨s, prev, rfl, before, comment, isDoc, rfl⟩
    exact ⟨prev, Registration.docComment?_eq_some.2 ⟨s, rfl, before, comment, isDoc⟩, rfl⟩

theorem loop_comment_placed :
    (loopTree.preorder.map fun t => t.label.id).Nodup ∧
      ∃ p, ((BuildSession.start .single).build loopSource loopTree).1 = .ok p ∧
        p.nodes.length = loopTree.roll.length := by
  have distinct : (loopTree.preorder.map fun t => t.label.id).Nodup := by decide
  obtain ⟨p, hp⟩ := loop_builds
  exact ⟨distinct, p, hp,
    (doc_comment_placed (.start .single) loopSource loopTree p distinct hp).2.2.1⟩

/-! ## Comments that belong to no node -/

/-- The first construct of a program: neither a comment nor an interpreter line. -/
def ParseTree.firstConstruct? (root : ParseTree) : Option ParseTree :=
  root.children.find? fun t =>
    t.label.named && !t.label.extra && t.label.kind != "hash_bang_line"

theorem ParseTree.programStart?_eq (root : ParseTree) :
    root.programStart? = root.firstConstruct?.map (·.label.span.start) := by
  have find : root.firstConstruct? = (rootSite root).firstMember?.map Site.tree := by
    rw [Site.firstMember?, Site.members, List.head?_filter, firstConstruct?]
    have trees : root.children = (rootSite root).children.map Site.tree :=
      (map_tree_sitesAfter none root.children).symm
    rw [trees, List.find?_map]
    rfl
  rw [programStart?, find, Option.map_map]
  rfl

/-- The documentation comments of a tree that no entry of an identity table has looked up. -/
def IdentityTable.unplaced (table : IdentityTable) (source : Source) (root : ParseTree) :
    List Comment :=
  (root.comments.filter fun t => Comment.isDocText (source.slice t.label.span) &&
    !(table.origins.toList.filterMap Origin.doc).contains t.label.id).map (·.toComment source)

theorem Program.field?_leading (p : Program) :
    p.toJson.field? "leadingComments" =
      if p.leading.isEmpty then none else some (.array (p.leading.map Comment.toJson)) := by
  unfold toJson Comment.listField
  cases p.leading <;> cases p.trailing <;> rfl

theorem Program.field?_trailing (p : Program) :
    p.toJson.field? "trailingComments" =
      if p.trailing.isEmpty then none else some (.array (p.trailing.map Comment.toJson)) := by
  unfold toJson Comment.listField
  cases p.leading <;> cases p.trailing <;> rfl

/-- The program keeps the documentation comments that nothing has looked up: those before its first
construct lead, the others trail. -/
theorem BuildContext.build_unplaced {ctx : BuildContext} {root : ParseTree} {p : Program}
    (distinct : (root.preorder.map fun t => t.label.id).Nodup)
    (h : (ctx.build root).result = .ok p) :
    let unplaced := (ctx.build root).state.table.unplaced ctx.source root
    let leads (c : Comment) : Bool :=
      root.firstConstruct?.any fun t => decide (c.span.start < t.label.span.start)
    (ctx.build root).state.comments.free = unplaced ∧ p.leading = unplaced.filter leads ∧
      p.trailing = unplaced.filter fun c => !leads c := by
  intro unplaced leads
  obtain ⟨-, -, hp⟩ := build_converts h
  obtain ⟨table, -, comments⟩ := build_roll distinct h
  have free : (ctx.build root).state.comments.free = unplaced := by
    rw [comments, CommentRegistry.free_markAll_fresh, ← filterMap_doc_origin, ← table]
    rfl
  have start : CommentRegistry.leads root.programStart? = leads := by
    funext c
    rw [ParseTree.programStart?_eq, CommentRegistry.leads, Option.any_map]
  have partition : (p.leading, p.trailing) =
      (unplaced.filter leads, unplaced.filter fun c => !leads c) := by
    rw [hp, ← free, ← start]
    exact List.partition_eq_filter_filter
  exact ⟨free, Prod.mk.inj partition⟩

/-- Documentation comments are conserved: they are on the nodes, one on one node, or with the
program. The program has those that no node has looked up, in source order: the ones before its
first construct as leading comments, and all others as trailing comments. -/
theorem doc_comments_conserved (session : BuildSession) (source : Source) (root : ParseTree)
    (p : Program) (distinct : (root.preorder.map fun t => t.label.id).Nodup)
    (h : (session.build source root).1 = .ok p) :
    let unplaced := (session.build source root).2.state.table.unplaced source root
    let leads (c : Comment) : Bool :=
      root.firstConstruct?.any fun t => decide (c.span.start < t.label.span.start)
    p.comments = root.comments.map (·.toComment source) ∧
      (p.comments.filter Comment.isDoc).Perm
        (p.nodes.filterMap Node.doc ++ (p.leading ++ p.trailing)) ∧
      p.leading = unplaced.filter leads ∧
      p.trailing = unplaced.filter (fun c => !leads c) ∧
      (p.toJson.field? "leadingComments" =
        if p.leading.isEmpty then none else some (.array (p.leading.map Comment.toJson))) ∧
      p.toJson.field? "trailingComments" =
        if p.trailing.isEmpty then none else some (.array (p.trailing.map Comment.toJson)) := by
  intro unplaced leads
  let ctx : BuildContext := ⟨source, session.style⟩
  obtain ⟨-, body, hp⟩ := @BuildContext.build_converts ctx root p h
  have recorded := @recorded_comments root ctx distinct
  have all : p.comments = root.comments.map (·.toComment source) := by
    rw [hp]
    show (ctx.build root).state.comments.all = _
    rw [body.all_eq, recorded, CommentRegistry.all, List.map_map]
    rfl
  obtain ⟨free, leading, trailing⟩ := @BuildContext.build_unplaced ctx root p distinct h
  refine ⟨all, ?_, leading, trailing, p.field?_leading, p.field?_trailing⟩
  have attached := body.free_perm (by
    rw [recorded, CommentRegistry.ids, List.map_map]
    exact distinct.sublist (List.filter_sublist.map _))
  rw [recorded, CommentRegistry.free_fresh, ← all, free] at attached
  refine attached.trans (List.Perm.append_left _ ?_)
  rw [leading, trailing]
  exact (List.filter_append_perm leads unplaced).symm

theorem loop_comments_conserved :
    (loopTree.preorder.map fun t => t.label.id).Nodup ∧
      ∃ p, ((BuildSession.start .single).build loopSource loopTree).1 = .ok p ∧
        (p.comments.filter Comment.isDoc).Perm
          (p.nodes.filterMap Node.doc ++ (p.leading ++ p.trailing)) := by
  have distinct : (loopTree.preorder.map fun t => t.label.id).Nodup := by decide
  obtain ⟨p, hp⟩ := loop_builds
  exact ⟨distinct, p, hp,
    (doc_comments_conserved (.start .single) loopSource loopTree p distinct hp).2.1⟩

/-- A script with an interpreter line and three comments. -/
def scriptSource : Source :=
  ⟨"test.js", "#!/usr/bin/env node\n/** a */\n/** b */\nvar a; /** c */".toList⟩

/-- The parse tree of the script. -/
def scriptTree : ParseTree :=
  .phrase 0 0 53 "program"
    [.phrase 1 0 19 "hash_bang_line" [], .inRow 1 20 (.remark 2 20 28),
      .inRow 2 29 (.remark 3 29 37),
      .inRow 3 38 (.phrase 4 38 44 "variable_declaration"
        [.inRow 3 38 (.token 5 38 41 "var"),
          .inRow 3 38 (.phrase 6 42 43 "variable_declarator"
            [.inRow 3 38 ((ParseTree.phrase 7 42 43 "identifier" []).within "name")]),
          .inRow 3 38 (.token 8 43 44 ";")]),
      .inRow 3 38 (.remark 9 45 53)]

/-- An interpreter line is named and not extra, but a comment after it leads the program: it does
not count as the first construct. -/
theorem interpreter_line_passed_over :
    (scriptTree.preorder.map fun t => t.label.id).Nodup ∧
      ∃ p, ((BuildSession.start .single).build scriptSource scriptTree).1 = .ok p ∧
        ¬ ∀ c ∈ p.leading, ∃ first,
          (scriptTree.children.find? fun t => t.label.named && !t.label.extra) = some first ∧
            c.span.start < first.label.span.start := by
  refine ⟨by decide, ?_⟩
  obtain ⟨p, hp, leading⟩ := exists_ok_of_map (f := Program.leading)
    (b := [⟨"/** a */", ⟨20, 28⟩, 2⟩])
    (r := ((BuildSession.start .single).build scriptSource scriptTree).1) (by decide +kernel)
  refine ⟨p, hp, fun all => ?_⟩
  obtain ⟨first, hfirst, before⟩ := all ⟨"/** a */", ⟨20, 28⟩, 2⟩ (by simp [leading])
  cases hfirst
  exact absurd before (by decide)

end ScriptTree
