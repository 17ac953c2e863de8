import Mathlib.Data.List.Nodup
import Mathlib.Data.List.Pairwise
import ScriptTree.Proofs.Documentation

/-!
# Documentation comments before wrappers

A documentation comment is looked up by the node of the parse tree that comes right after it, if
that node has an output node of its own. Two kinds of nodes have none although a construct begins
with them: the wrappers, which are replaced by what is in them, and the keyword in the head of a loop
over an object, where the declaration is made of several nodes. A comment before one of these is
never on the construct; it goes to the program (`doc_comment_overlooked`).
-/
namespace ScriptTree

open ParseTree (Site)

namespace ParseTree

/-- Wrappers: parenthesized expressions, clauses of a statement and computed property names. -/
def Site.IsWrapper (s : Site) : Prop :=
  (GrammarKind.ofName? s.kind).any GrammarKind.isTransparent = true

instance (s : Site) : Decidable s.IsWrapper :=
  inferInstanceAs (Decidable (_ = true))

/-- Whether a node is the keyword of the declaration in the head of a loop over an object. -/
def Site.IsHeadKeyword (loop keyword : Site) : Prop :=
  loop.kind = "for_in_statement" ∧ loop.field? "kind" = some keyword ∧
    (VariableKind.ofKeyword? keyword.kind).isSome = true

theorem Site.IsWrapper.not_isConstruct {s : Site} (h : s.IsWrapper) : ¬s.IsConstruct := by
  rintro ⟨kind, hkind, whole⟩
  rw [IsWrapper, hkind, Option.any_some, whole] at h
  cases h

theorem Site.IsHeadKeyword.not_isConstruct {loop keyword : Site} (h : loop.IsHeadKeyword keyword) :
    ¬keyword.IsConstruct := by
  rintro ⟨kind, hkind, -⟩
  obtain ⟨-, -, declares⟩ := h
  obtain ⟨declared, found⟩ := Option.isSome_iff_exists.1 declares
  -- No rule of the grammar is named like a keyword of declarations.
  have unnamed : ∀ declared ∈ VariableKind.all, GrammarKind.ofName? declared.keyword = none := by
    decide
  unfold VariableKind.ofKeyword? at found
  have spelled := List.find?_some found
  have unnamed := unnamed declared (List.mem_of_find?_eq_some found)
  rw [beq_iff_eq.1 spelled, hkind] at unnamed
  cases unnamed

/-- A node is the sibling directly before one site only. -/
theorem site_of_previous {root t : ParseTree} {s s' : Site}
    (distinct : (root.preorder.map fun t => t.label.id).Nodup) (hs : s ∈ root.preorderSites none)
    (hs' : s' ∈ root.preorderSites none) (before : s.previous = some t)
    (before' : s'.previous = some t) : s = s' := by
  obtain ⟨l, perm, sublist⟩ := previous_subperm_preorder root
  have nodup : ((root.preorderSites none).filterMap Site.previous).Nodup :=
    perm.nodup_iff.1 (distinct.of_map.sublist sublist)
  rw [List.Nodup, List.pairwise_filterMap] at nodup
  by_contra different
  have : Std.Symm fun a a' : Site =>
      ∀ b, a.previous = some b → ∀ b', a'.previous = some b' → b ≠ b' :=
    ⟨fun a a' h b hb b' hb' => (h b' hb' b hb).symm⟩
  exact nodup.forall hs hs' different t before t before' rfl

end ParseTree

section

variable {source : Source} {root t : ParseTree} {w : Site}

/-- A comment before a node without an output node of its own is looked up by no output node. -/
theorem docComment?_ne_of_not_isConstruct
    (distinct : (root.preorder.map fun t => t.label.id).Nodup) (hw : w ∈ root.preorderSites none)
    (ht : w.docComment? source = some t) (passed : ¬w.IsConstruct) :
    ∀ r ∈ root.roll, r.docComment? source ≠ some t := by
  intro r hr looked
  obtain ⟨s, rfl, before, -⟩ := Registration.docComment?_eq_some.1 looked
  obtain ⟨hs, construct⟩ := ParseTree.documented_site hr
  have before' : w.previous = some t := (Option.filter_eq_some_iff.1 ht).1
  exact passed (ParseTree.site_of_previous distinct hs hw before before' ▸ construct)

theorem mem_comments_of_docComment? (hw : w ∈ root.preorderSites none)
    (ht : w.docComment? source = some t) :
    t ∈ root.comments ∧ Comment.isDocText (source.slice t.label.span) = true := by
  obtain ⟨before, doc⟩ := Option.filter_eq_some_iff.1 ht
  rw [Bool.and_eq_true] at doc
  have inTree : t ∈ root.preorder :=
    (ParseTree.previous_subperm_preorder root).subset (List.mem_filterMap.2 ⟨w, hw, before⟩)
  exact ⟨List.mem_filter.2 ⟨inTree, doc.1⟩, doc.2⟩

end

/-- A documentation comment directly before a wrapper, or before the keyword of the declaration in
the head of a loop over an object, is not handed to the construct that begins there. No entry of the
identity table looks it up, so no node has it, unless another comment of the tree has the same place;
the program has it among its leading comments if it starts before the first construct, and among its
trailing comments otherwise. -/
theorem doc_comment_overlooked (session : BuildSession) (source : Source) (root : ParseTree)
    (p : Program) (distinct : (root.preorder.map fun t => t.label.id).Nodup)
    (h : (session.build source root).1 = .ok p) (w : Site) (hw : w ∈ root.preorderSites none)
    (t : ParseTree) (ht : w.docComment? source = some t)
    (passed : w.IsWrapper ∨ ∃ loop ∈ root.preorderSites none, loop.IsHeadKeyword w) :
    let leads := root.firstConstruct?.any fun first =>
      decide (t.label.span.start < first.label.span.start)
    (∀ o ∈ (session.build source root).2.state.table.origins.toList, o.doc ≠ some t.label.id) ∧
      ((∀ u ∈ root.comments, u.label.span = t.label.span → u = t) →
        ∀ n ∈ p.nodes, n.doc ≠ some (t.toComment source)) ∧
      t.toComment source ∈ (if leads then p.leading else p.trailing) := by
  intro leads
  let ctx : BuildContext := ⟨source, session.style⟩
  have notConstruct : ¬w.IsConstruct := by
    rcases passed with wrapper | ⟨loop, -, keyword⟩
    · exact wrapper.not_isConstruct
    · exact keyword.not_isConstruct
  have unseen := docComment?_ne_of_not_isConstruct distinct hw ht notConstruct
  obtain ⟨comment, isDoc⟩ := mem_comments_of_docComment? hw ht
  obtain ⟨table, docs, -⟩ := @BuildContext.build_roll ctx root p distinct h
  have looked := (docComments_subperm source root).subset
  have noEntry : ∀ o ∈ (ctx.build root).state.table.origins.toList, o.doc ≠ some t.label.id := by
    intro o ho same
    rw [table] at ho
    obtain ⟨r, hr, rfl⟩ := List.mem_map.1 ho
    rw [Registration.origin_doc] at same
    obtain ⟨u, hu, id⟩ := Option.map_eq_some_iff.1 same
    have inTree : u ∈ root.preorder := looked (List.mem_filterMap.2 ⟨r, hr, hu⟩)
    have : u = t := List.inj_on_of_nodup_map distinct inTree (List.mem_filter.1 comment).1 id
    exact unseen r hr (this ▸ hu)
  refine ⟨noEntry, fun alone n hn same => ?_, ?_⟩
  · have hn : n.doc ∈ root.roll.map (·.comment? source) := docs ▸ List.mem_map_of_mem hn
    obtain ⟨r, hr, hcomment⟩ := List.mem_map.1 hn
    rw [same, Registration.comment?] at hcomment
    obtain ⟨u, hu, sameComment⟩ := Option.map_eq_some_iff.1 hcomment
    obtain ⟨s, rfl, -, isComment, -⟩ := Registration.docComment?_eq_some.1 hu
    have inTree : u ∈ root.preorder := looked (List.mem_filterMap.2 ⟨_, hr, hu⟩)
    have : u = t := alone u (List.mem_filter.2 ⟨inTree, isComment⟩) (congrArg Comment.span sameComment)
    exact unseen _ hr (this ▸ hu)
  · obtain ⟨-, leading, trailing⟩ := @BuildContext.build_unplaced ctx root p distinct h
    have unplaced : t.toComment source ∈ (ctx.build root).state.table.unplaced source root := by
      refine List.mem_map_of_mem (List.mem_filter.2 ⟨comment, ?_⟩)
      rw [isDoc, Bool.true_and, Bool.not_eq_true', List.contains_eq_mem, decide_eq_false_iff_not,
        List.mem_filterMap]
      rintro ⟨o, ho, same⟩
      exact noEntry o ho same
    by_cases first : leads = true
    · rw [if_pos first, leading]
      exact List.mem_filter.2 ⟨unplaced, first⟩
    · rw [if_neg first, trailing]
      refine List.mem_filter.2 ⟨unplaced, ?_⟩
      rw [Bool.not_eq_true']
      exact Bool.eq_false_iff.2 first

/-- A declaration with a comment before a parenthesized value. -/
def castSource : Source :=
  ⟨"cast.js", "var a = /** x */ (1);".toList⟩

/-- The parenthesized value. -/
def castValue : ParseTree :=
  (ParseTree.phrase 7 17 20 "parenthesized_expression"
    [.token 8 17 18 "(", .phrase 9 18 19 "number" [], .token 10 19 20 ")"]).within "value"

/-- The parse tree of the declaration. -/
def castTree : ParseTree :=
  .phrase 0 0 21 "program"
    [.phrase 1 0 21 "variable_declaration"
      [.token 2 0 3 "var",
        .phrase 3 4 20 "variable_declarator"
          [(ParseTree.phrase 4 4 5 "identifier" []).within "name", .token 5 6 7 "=",
            .remark 6 8 16, castValue],
        .token 11 20 21 ";"]]

/-- A loop over an object with a comment before its declaration. -/
def headSource : Source :=
  ⟨"head.js", "for (/** x */ var k in o) ;".toList⟩

/-- The parse tree of the loop. -/
def headTree : ParseTree :=
  .phrase 0 0 27 "program"
    [.phrase 1 0 27 "for_in_statement"
      [.token 2 0 3 "for", .token 3 4 5 "(", .remark 4 5 13,
        (ParseTree.token 5 14 17 "var").within "kind",
        (ParseTree.phrase 6 18 19 "identifier" []).within "left",
        (ParseTree.token 7 20 22 "in").within "operator",
        (ParseTree.phrase 8 23 24 "identifier" []).within "right", .token 9 24 25 ")",
        (ParseTree.phrase 10 26 27 "empty_statement" [.token 11 26 27 ";"]).within "body"]]

theorem cast_comment_overlooked :
    (castTree.preorder.map fun t => t.label.id).Nodup ∧
      Site.IsWrapper ⟨castValue, some (.remark 6 8 16)⟩ ∧
      ∃ p, ((BuildSession.start .single).build castSource castTree).1 = .ok p ∧
        (ParseTree.remark 6 8 16).toComment castSource ∈ p.trailing := by
  have distinct : (castTree.preorder.map fun t => t.label.id).Nodup := by decide
  have wrapper : Site.IsWrapper ⟨castValue, some (.remark 6 8 16)⟩ := by decide
  obtain ⟨p, hp, -⟩ := exists_ok_of_map (f := fun p : Program => p.nodes.length) (b := 4)
    (r := ((BuildSession.start .single).build castSource castTree).1) (by decide +kernel)
  exact ⟨distinct, wrapper, p, hp,
    (doc_comment_overlooked (.start .single) castSource castTree p distinct hp
      ⟨castValue, some (.remark 6 8 16)⟩ (List.mem_of_getElem? (i := 7) rfl) (.remark 6 8 16) rfl
      (.inl wrapper)).2.2⟩

/-- A comment before a parenthesized value and one before the declaration in the head of a loop: no
node has them, though the value and the declaration begin right after them. -/
theorem construct_lacks_comment :
    (∃ p, ((BuildSession.start .single).build castSource castTree).1 = .ok p ∧
        (∀ n ∈ p.nodes, n.doc = none) ∧ p.trailing = [⟨"/** x */", ⟨8, 16⟩, 1⟩]) ∧
      ∃ p, ((BuildSession.start .single).build headSource headTree).1 = .ok p ∧
        (∀ n ∈ p.nodes, n.doc = none) ∧ p.trailing = [⟨"/** x */", ⟨5, 13⟩, 1⟩] := by
  let view (p : Program) : Bool × List Comment := (p.nodes.all (·.doc.isNone), p.trailing)
  have none {p : Program} (h : p.nodes.all (·.doc.isNone) = true) : ∀ n ∈ p.nodes, n.doc = none :=
    fun n hn => Option.isNone_iff_eq_none.1 (List.all_eq_true.1 h n hn)
  obtain ⟨p, hp, cast⟩ := exists_ok_of_map (f := view) (b := (true, [⟨"/** x */", ⟨8, 16⟩, 1⟩]))
    (r := ((BuildSession.start .single).build castSource castTree).1) (by decide +kernel)
  obtain ⟨q, hq, head⟩ := exists_ok_of_map (f := view) (b := (true, [⟨"/** x */", ⟨5, 13⟩, 1⟩]))
    (r := ((BuildSession.start .single).build headSource headTree).1) (by decide +kernel)
  obtain ⟨noDoc, trailing⟩ := Prod.mk.inj cast
  obtain ⟨noDoc', trailing'⟩ := Prod.mk.inj head
  exact ⟨⟨p, hp, none noDoc, trailing⟩, q, hq, none noDoc', trailing'⟩

end ScriptTree
