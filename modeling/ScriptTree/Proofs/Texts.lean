import ScriptTree.Proofs.Documentation
import ScriptTree.Proofs.IdentityTable
import ScriptTree.Proofs.SourceOctets

/-!
# Places and texts of a program

Where a node or a comment says it stands, the source has its text. The range of an output node, its
line and its text are found in different ways, and some output nodes stand for several nodes of the
parse tree or for none; still each line is that of the start of the range, and the range of a leaf
holds the text of the leaf (`program_quotes_source`).
-/
namespace ScriptTree

open ParseTree (Site)

/-! ## Comments -/

namespace CommentRegistry

variable {r : CommentRegistry} {c : Comment}

theorem mem_all_recordAll {source : Source} {nodes : List ParseTree}
    (h : c ∈ (r.recordAll source nodes).all) :
    c ∈ r.all ∨ ∃ t ∈ nodes, c = t.toComment source := by
  induction nodes generalizing r with
  | nil => exact .inl h
  | cons t nodes ih =>
    rw [recordAll, List.foldl_cons] at h
    rcases ih h with h | ⟨u, hu, rfl⟩
    · unfold record at h
      split at h
      · exact .inl h
      · rw [all, List.map_append, List.mem_append, List.map_singleton, List.mem_singleton] at h
        exact h.imp_right fun h => ⟨t, List.mem_cons_self, h⟩
    · exact .inr ⟨u, List.mem_cons_of_mem _ hu, rfl⟩

theorem mem_all_of_take {doc : Option Nat} (h : (r.take doc).1 = some c) : c ∈ r.all := by
  cases doc with
  | none => cases h
  | some id =>
    rw [take, attach] at h
    cases he : r.find? id with
    | none =>
      rw [he] at h
      cases h
    | some e =>
      rw [he] at h
      by_cases free : e.isFree
      · simp only [free, if_true, Option.some.injEq] at h
        exact h ▸ List.mem_map_of_mem (List.mem_of_find?_eq_some he)
      · simp only [free, Bool.false_eq_true, if_false] at h
        cases h

theorem free_subset_all (r : CommentRegistry) : r.free ⊆ r.all :=
  (List.filter_sublist.map _).subset

end CommentRegistry

/-- The comments of nodes have been recorded. -/
theorem Converts.doc_mem {ctx : BuildContext} {plans : List Plan} {nodes : List Node}
    {st st' : BuildState} (h : Converts ctx plans st nodes st') :
    ∀ n ∈ nodes.flatMap Node.preorder, ∀ c, n.doc = some c → c ∈ st.comments.all := by
  induction h with
  | nil => exact fun n hn => (List.not_mem_nil hn).elim
  | convert _ hs _ ihs ihp =>
    intro n hn c hc
    rw [List.flatMap_cons, List.mem_append] at hn
    rw [List.flatMap_singleton] at ihs
    rcases hn with hn | hn
    · exact ihs n hn c hc
    · exact hs.all_eq ▸ ihp n hn c hc
  | @node entry key parts plans st st₁ st' nodes construct hk _ hp _ ihp ihr =>
    have kept : st₁.comments.all = st.comments.all := by
      rw [hp.all_eq, BuildState.foldl_entered_comments]
    rw [BuildState.foldl_entered_comments] at ihp
    intro n hn c hc
    rw [List.flatMap_cons, Node.preorder_mk hk, List.mem_append, List.mem_cons,
      List.mem_append] at hn
    rcases hn with (rfl | hn | hn) | hn
    · exact kept ▸ CommentRegistry.mem_all_of_take hc
    · obtain ⟨s, -, rfl⟩ := List.mem_map.1 hn
      cases hc
    · exact ihp n hn c hc
    · have mem := ihr n hn c hc
      rwa [CommentRegistry.all, CommentRegistry.take_map fun _ => rfl, ← CommentRegistry.all,
        kept] at mem

/-- All comments of a program: those that it lists, those that belong to it, and those of nodes. -/
def Program.everyComment (p : Program) : List Comment :=
  p.comments ++ (p.leading ++ p.trailing) ++ p.nodes.filterMap Node.doc

namespace BuildContext

variable {ctx : BuildContext} {root : ParseTree} {p : Program} {c : Comment}

theorem comments_of_build (h : (ctx.build root).result = .ok p) :
    p.comments = (ctx.recorded root .empty).comments.all := by
  obtain ⟨-, body, hp⟩ := build_converts h
  rw [hp]
  exact body.all_eq

/-- A program lists all its comments. -/
theorem mem_comments_of_build (h : (ctx.build root).result = .ok p) (hc : c ∈ p.everyComment) :
    c ∈ p.comments := by
  obtain ⟨-, body, hp⟩ := build_converts h
  have all := comments_of_build h
  have kept : (ctx.build root).state.comments.free ⊆ p.comments := by
    rw [all, ← body.all_eq]
    exact CommentRegistry.free_subset_all _
  have partition (r : CommentRegistry) (start : Option Nat) :
      r.unattached start = (r.free.filter (CommentRegistry.leads start),
        r.free.filter fun c => !CommentRegistry.leads start c) :=
    List.partition_eq_filter_filter
  rw [Program.everyComment, List.mem_append, List.mem_append, List.mem_append] at hc
  rcases hc with (hc | hc | hc) | hc
  · exact hc
  · rw [hp, assemble, partition] at hc
    exact kept (List.mem_filter.1 hc).1
  · rw [hp, assemble, partition] at hc
    exact kept (List.mem_filter.1 hc).1
  · obtain ⟨n, hn, hdoc⟩ := List.mem_filterMap.1 hc
    exact all ▸ body.doc_mem n hn c hdoc

/-- Every comment of a program is a comment of the parse tree. -/
theorem everyComment_of_build (h : (ctx.build root).result = .ok p) (hc : c ∈ p.everyComment) :
    ∃ t ∈ root.comments, c = t.toComment ctx.source := by
  have listed := mem_comments_of_build h hc
  rw [comments_of_build h, recorded, root.collectComments_eq] at listed
  exact (CommentRegistry.mem_all_recordAll listed).resolve_left List.not_mem_nil

end BuildContext

namespace Comment

theorem prefix_dropCloser (text : List Char) : dropCloser text <+: text := by
  unfold dropCloser
  split
  · next rest h =>
    rw [← List.reverse_inj, List.reverse_reverse] at h
    rw [h, List.reverse_cons, List.reverse_cons, List.append_assoc]
    exact List.prefix_append _ _
  · exact List.prefix_refl text

/-- What a comment says is a piece of its text. -/
theorem infix_stripDelimiters (text : List Char) : stripDelimiters text <:+: text := by
  unfold stripDelimiters
  split
  · next body =>
    exact (prefix_dropCloser body).isInfix.trans (List.suffix_append ['/', '*'] body).isInfix
  · next body => exact (List.suffix_append ['/', '/'] body).isInfix
  · next body => exact (List.suffix_append ['<', '!', '-', '-'] body).isInfix
  · next body => exact (List.suffix_append ['-', '-', '>'] body).isInfix
  · exact List.infix_refl _

end Comment

theorem Utf8.infix_encode {a b : List Char} (h : a <:+: b) : encode a <:+: encode b := by
  obtain ⟨front, rest, rfl⟩ := h
  rw [encode_append, encode_append]
  exact ⟨encode front, encode rest, rfl⟩

/-! ## Whole programs -/

/-- A leaf quotes the source: its name, or its text if it is a number, a string or a regular
expression, has the octets of its range. -/
def Node.Quotes (source : Source) (n : Node) : Prop :=
  match n.construct with
  | .identifier name => Utf8.encode name.toList = source.octets n.span
  | .literal (.number _) raw => Utf8.encode raw.toList = source.octets n.span
  | .literal (.string _) raw => Utf8.encode raw.toList = source.octets n.span
  | _ => True

theorem Registration.Makes.quotes {ctx : BuildContext} {r : Registration} {n : Node}
    (made : r.Makes ctx n) (whole : ∀ s, r.site? = some s → ctx.source.Whole s.span) :
    n.Quotes ctx.source := by
  have quoted {s : Site} (hs : r.site? = some s) :
      Utf8.encode (ctx.name s).toList = ctx.source.octets n.span := by
    have span : r.span = s.span := by
      cases r <;> cases hs <;> rfl
    rw [BuildContext.name, String.toList_ofList, made.span, span]
    exact Source.slice_octets (whole s hs)
  have reads := made.reads
  unfold Registration.Reads at reads
  unfold Node.Quotes
  cases hn : n.construct with
  | identifier name =>
    rw [hn] at reads
    obtain ⟨s, hs, rfl⟩ := reads
    exact quoted hs
  | literal value raw =>
    rw [hn] at reads
    cases value with
    | number x =>
      obtain ⟨s, hs, rfl, -⟩ := reads
      exact quoted hs
    | string x =>
      obtain ⟨s, hs, rfl⟩ := reads
      exact quoted hs
    | _ => trivial
  | _ => trivial

/-- Places and texts agree with the source, if the nodes of the parse tree cut no character and its
rows count the line feeds. The line of every output node and comment is one more than the line feeds
before its range; the range of a name, and that of a number, a string or a regular expression, holds
its text; the range of a comment holds its raw text, and what the comment says is a piece of that;
the program stands for the whole source, from its first line on. -/
theorem program_quotes_source (session : BuildSession) (source : Source) (root : ParseTree)
    (p : Program) (whole : ∀ t ∈ root.preorder, source.Whole t.label.span)
    (rows : root.CountsRows source) (h : (session.build source root).1 = .ok p) :
    (∀ n ∈ p.nodes, n.line = 1 + source.lineFeeds n.span.start ∧ n.Quotes source) ∧
      (∀ c ∈ p.everyComment, c.line = 1 + source.lineFeeds c.span.start ∧
        Utf8.encode c.raw.toList = source.octets c.span ∧
        Utf8.encode c.value.toList <:+: source.octets c.span) ∧
      p.span = ⟨0, (Utf8.encode source.text).length⟩ ∧
      p.toJson.field? "loc" = some (.location (1 + source.lineFeeds p.span.start)) := by
  let ctx : BuildContext := ⟨source, session.style⟩
  have h : (ctx.build root).result = .ok p := h
  refine ⟨fun n hn => ⟨BuildContext.line_of_build h rows hn, ?_⟩, fun c hc => ?_, ?_, ?_⟩
  · obtain ⟨r, hr, made⟩ := BuildContext.made_of_build h hn
    exact made.quotes fun s hs => whole s.tree <| ParseTree.tree_mem_preorder <|
      ParseTree.mem_preorderSites_of_mem_roll (List.mem_filterMap.2 ⟨r, hr, hs⟩)
  · obtain ⟨t, ht, rfl⟩ := BuildContext.everyComment_of_build h hc
    have node : t ∈ root.preorder := (List.mem_filter.1 ht).1
    have raw : Utf8.encode (t.toComment source).raw.toList = source.octets t.label.span := by
      rw [ParseTree.toComment, ParseTree.Label.comment, String.toList_ofList]
      exact Source.slice_octets (whole t node)
    refine ⟨rows.line node, raw, ?_⟩
    rw [Comment.value, String.toList_ofList]
    exact raw ▸ Utf8.infix_encode (Comment.infix_stripDelimiters _)
  · obtain ⟨-, -, hp⟩ := BuildContext.build_converts h
    rw [Program.span, hp, Utf8.length_encode]
    rfl
  · unfold Program.toJson Comment.listField
    cases p.leading <;> cases p.trailing <;> rfl

theorem loop_quotes_source :
    (∀ t ∈ loopTree.preorder, loopSource.Whole t.label.span) ∧ loopTree.CountsRows loopSource ∧
      ∃ p, ((BuildSession.start .single).build loopSource loopTree).1 = .ok p ∧
        ∀ n ∈ p.nodes, n.line = 1 + loopSource.lineFeeds n.span.start ∧ n.Quotes loopSource := by
  have whole : ∀ t ∈ loopTree.preorder, loopSource.Whole t.label.span := by decide +kernel
  have rows : loopTree.CountsRows loopSource := by decide +kernel
  obtain ⟨p, hp⟩ := loop_builds
  exact ⟨whole, rows, p, hp,
    (program_quotes_source (.start .single) loopSource loopTree p whole rows hp).1⟩

end ScriptTree
