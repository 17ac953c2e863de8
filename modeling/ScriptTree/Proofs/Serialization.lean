import Mathlib
import ScriptTree.Proofs.Decoder
import ScriptTree.Proofs.JsonText
import ScriptTree.Proofs.Texts

/-!
# Programs are read back from their text

Main result `written_program_read`: the text that is written for a program is read as that program.
-/
namespace ScriptTree

/-! ## Members -/

/-- Reading what is written for each item of a list gives the list. -/
theorem mapM_map_of_reads {α β : Type} {write : α → β} {read : β → Option α} (items : List α)
    (h : ∀ a ∈ items, read (write a) = some a) : (items.map write).mapM read = some items := by
  induction items with
  | nil => rfl
  | cons a items ih =>
    rw [List.map_cons, List.mapM_cons, h a List.mem_cons_self,
      ih fun b hb => h b (List.mem_cons_of_mem _ hb)]
    rfl

namespace Json

theorem nat?_ofNat (n : Nat) : (ofNat n).nat? = some n :=
  Nat.toNat?_repr n

/-- A member is looked for from the end of an object. -/
theorem field?_append (name : String) (first last : List (String × Json)) :
    (object (first ++ last)).field? name =
      ((object last).field? name).or ((object first).field? name) := by
  rw [field?, field?, field?, List.reverse_append, List.find?_append, Option.map_or]

theorem line?_location (line : Nat) : (location line).line? = some line :=
  nat?_ofNat line

end Json

theorem Span.ofJson?_toJson (s : Span) : Span.ofJson? s.toJson = some s := by
  show ((Json.ofNat s.start).nat?.bind fun start =>
    (Json.ofNat s.stop).nat?.bind fun stop => some (Span.mk start stop)) = _
  rw [Json.nat?_ofNat, Json.nat?_ofNat]
  rfl

namespace Comment

theorem ofJson?_toJson (c : Comment) : Comment.ofJson? c.toJson = some c := by
  show ((Span.ofJson? c.span.toJson).bind fun span =>
    (Json.location c.line).line?.bind fun line => some (Comment.mk c.raw span line)) = _
  rw [Span.ofJson?_toJson, Json.line?_location]
  rfl

theorem field?_listField {name other : String} (h : name ≠ other) (comments : List Comment) :
    (Json.object (listField name comments)).field? other = none := by
  rw [listField]
  split
  · rfl
  · simp [Json.field?, h]

theorem ofField?_congr {name : String} {json json' : Json}
    (h : json.field? name = json'.field? name) : ofField? name json = ofField? name json' := by
  rw [ofField?, h, ofField?]

/-- An optional field of comments is read, also when it is left out. -/
theorem ofField?_listField {name : String} {members : List (String × Json)}
    (h : (Json.object members).field? name = none) (comments : List Comment) :
    ofField? name (.object (members ++ listField name comments)) = some comments := by
  rw [ofField?, Json.field?_append, h, listField]
  cases comments with
  | nil => rfl
  | cons c comments =>
    have read := mapM_map_of_reads (c :: comments) fun c _ => ofJson?_toJson c
    simpa [Json.field?, Json.items?] using read

end Comment

/-! ## Nesting -/

theorem Span.fits_toJson (depth : Nat) (s : Span) : Json.Fits (depth + 1) s.toJson := by
  refine .array fun item hi => ?_
  simp only [List.mem_cons, List.not_mem_nil, or_false] at hi
  rcases hi with rfl | rfl <;> exact Json.fits_ofNat _ _

theorem Json.fits_location (depth line : Nat) : Json.Fits (depth + 2) (.location line) := by
  refine .object fun member hm => ?_
  simp only [List.mem_cons, List.not_mem_nil, or_false] at hm
  rcases hm with rfl | rfl
  · refine .object fun member hm => ?_
    obtain rfl := List.mem_singleton.1 hm
    exact Json.fits_ofNat _ _
  · exact .object fun member hm => absurd hm List.not_mem_nil

namespace Comment

theorem fits_toJson (depth : Nat) (c : Comment) : Json.Fits (depth + 3) c.toJson := by
  refine .object fun member hm => ?_
  simp only [List.mem_cons, List.not_mem_nil, or_false] at hm
  rcases hm with rfl | rfl | rfl | rfl | rfl
  · exact .string
  · exact .string
  · exact .string
  · exact Span.fits_toJson _ _
  · exact Json.fits_location _ _

theorem fits_list (depth : Nat) (comments : List Comment) :
    Json.Fits (depth + 4) (.array (comments.map toJson)) := by
  refine .array fun item hi => ?_
  obtain ⟨c, -, rfl⟩ := List.mem_map.1 hi
  exact fits_toJson _ c

theorem fits_listField (depth : Nat) (name : String) (comments : List Comment) :
    ∀ member ∈ listField name comments, Json.Fits (depth + 4) member.2 := by
  intro member hm
  rw [listField] at hm
  split at hm
  · cases hm
  · obtain rfl := List.mem_singleton.1 hm
    exact fits_list _ comments

end Comment

theorem LiteralValue.fits_toJson (depth : Nat) (value : LiteralValue) :
    Json.Fits depth value.toJson := by
  cases value with
  | null => exact .null
  | boolean value => exact .bool
  | string value => exact .string
  | number x =>
    rw [toJson, Json.ofBinary64]
    split
    · next text h => exact .number (Binary64.isNumber_toText? h)
    · exact .null

namespace Construct

/-- What stands in a construct is nested at most one level deeper than its parts. -/
theorem fits_fields {depth : Nat} {c : Construct Json} (h : ∀ v ∈ c.parts, Json.Fits depth v) :
    ∀ member ∈ c.fields, Json.Fits (depth + 1) member.2 := by
  have value {v : Json} (hv : v ∈ c.parts) : Json.Fits (depth + 1) v :=
    (h v hv).mono (Nat.le_succ _)
  have option {o : Option Json} (ho : o.toList ⊆ c.parts) :
      Json.Fits (depth + 1) (.ofOption o) := by
    cases o with
    | none => exact .null
    | some v => exact value (ho (List.mem_singleton_self v))
  have list {l : List Json} (hl : l ⊆ c.parts) : Json.Fits (depth + 1) (.array l) :=
    .array fun v hv => h v (hl hv)
  have holes {elements : List (Option Json)} (he : elements.filterMap id ⊆ c.parts) :
      Json.Fits (depth + 1) (.array (elements.map .ofOption)) := by
    refine .array fun v hv => ?_
    obtain ⟨o, ho, rfl⟩ := List.mem_map.1 hv
    cases o with
    | none => exact .null
    | some v => exact h v (he (List.mem_filterMap.2 ⟨some v, ho, rfl⟩))
  cases c <;> (try cases ‹CatchHandlers Json›) <;>
    simp only [fields, CatchHandlers.fields, Function.fields, List.forall_mem_cons,
      List.not_mem_nil, false_imp_iff, implies_true, List.cons_append,
      List.nil_append, and_true]
  all_goals repeat' apply And.intro
  all_goals first
    | exact .bool
    | exact .string
    | exact .null
    | exact LiteralValue.fits_toJson _ _
    | exact holes (by simp [parts])
    | exact list (by simp [parts, Function.parts, CatchHandlers.toList])
    | refine option fun a ha => ?_
      simp only [parts, Function.parts, CatchHandlers.toList, List.mem_append, List.mem_cons, ha,
        true_or, or_true]
    | exact value (by simp [parts, Function.parts])

/-- The parts of a construct stand in it, by themselves or in a list. -/
theorem fits_parts {depth : Nat} {c : Construct Json}
    (h : ∀ member ∈ c.fields, Json.Fits depth member.2) : ∀ v ∈ c.parts, Json.Fits depth v := by
  have value {v : Json} (hv : v ∈ c.fields.map (·.2)) : Json.Fits depth v := by
    obtain ⟨member, hm, rfl⟩ := List.mem_map.1 hv
    exact h member hm
  have option {o : Option Json} (ho : .ofOption o ∈ c.fields.map (·.2)) :
      ∀ v ∈ o.toList, Json.Fits depth v := by
    rintro v hv
    obtain rfl := Option.mem_toList.1 hv
    exact value ho
  have list {l : List Json} (hl : .array l ∈ c.fields.map (·.2)) :
      ∀ v ∈ l, Json.Fits depth v := (value hl).items
  have holes {elements : List (Option Json)}
      (he : .array (elements.map .ofOption) ∈ c.fields.map (·.2)) :
      ∀ v ∈ elements.filterMap id, Json.Fits depth v := by
    intro v hv
    obtain ⟨o, ho, rfl⟩ := List.mem_filterMap.1 hv
    exact (value he).items v (List.mem_map.2 ⟨some v, ho, rfl⟩)
  cases c <;> (try cases ‹CatchHandlers Json›) <;>
    simp only [parts, CatchHandlers.toList, Function.parts, List.forall_mem_cons,
      List.forall_mem_append, List.not_mem_nil, false_imp_iff, implies_true, List.cons_append,
      List.nil_append, and_true]
  all_goals repeat' apply And.intro
  all_goals first
    | exact holes (by simp [fields])
    | exact option (by simp [fields, Function.fields, CatchHandlers.fields])
    | exact list (by simp [fields, Function.fields, CatchHandlers.fields])
    | exact value (by simp [fields, Function.fields])

end Construct

/-! ## Nodes -/

namespace Node

theorem length_preorder_lt {m n : Node} (h : m ∈ n.parts) :
    m.preorder.length < n.preorder.length := by
  rw [preorder_eq n, List.length_cons]
  exact Nat.lt_succ_of_le (List.sublist_flatten_of_mem (List.mem_map_of_mem h)).length_le

theorem toJson_eq (n : Node) :
    n.toJson = .object (("type", .string n.construct.typeName) ::
      (n.construct.map toJson).fields ++ [("range", n.span.toJson), ("loc", .location n.line)] ++
        Comment.listField "leadingComments" n.doc.toList) := by
  rw [toJson, fold_eq]

theorem toJson_ne_null (n : Node) : n.toJson ≠ .null := by
  rw [toJson_eq]
  exact Json.noConfusion

/-- Each node takes at most two levels: its object, and the list in which it stands. -/
theorem fits_toJson (n : Node) : Json.Fits (2 * n.preorder.length + 4) n.toJson := by
  induction h : n.preorder.length using Nat.strongRecOn generalizing n with
  | ind size ih =>
    have parts : ∀ v ∈ (n.construct.map toJson).parts, Json.Fits (2 * size + 2) v := by
      rw [Construct.parts_map]
      intro v hv
      obtain ⟨m, hm, rfl⟩ := List.mem_map.1 hv
      have shorter := h ▸ length_preorder_lt hm
      exact (ih m.preorder.length shorter m rfl).mono (by omega)
    have positive : 0 < size := by
      rw [← h, preorder_eq]
      exact Nat.succ_pos _
    rw [toJson_eq]
    refine .object fun member hm => ?_
    rw [List.mem_append, List.mem_append, List.mem_cons] at hm
    rcases hm with ((rfl | hm) | hm) | hm
    · exact .string
    · exact Construct.fits_fields parts member hm
    · simp only [List.mem_cons, List.not_mem_nil, or_false] at hm
      rcases hm with rfl | rfl
      · exact Span.fits_toJson _ _
      · exact Json.fits_location _ _
    · exact (Comment.fits_listField 0 _ _ member hm).mono (by omega)

section Members

variable (n : Node)

theorem field?_range : n.toJson.field? "range" = some n.span.toJson := by
  rw [toJson_eq, Json.field?_append, Comment.field?_listField (by decide), Json.field?_append]
  rfl

theorem field?_loc : n.toJson.field? "loc" = some (.location n.line) := by
  rw [toJson_eq, Json.field?_append, Comment.field?_listField (by decide), Json.field?_append]
  rfl

theorem ofField?_doc : Comment.ofField? "leadingComments" n.toJson = some n.doc.toList := by
  rw [toJson_eq]
  have own := Json.field?_append "leadingComments" [("type", .string n.construct.typeName)]
    (n.construct.map toJson).fields
  rw [Construct.field?_fields (by decide)] at own
  refine Comment.ofField?_listField ?_ _
  rw [Json.field?_append]
  exact own

/-- The construct of a node is read from its output. -/
theorem ofJson?_construct (legible : n.construct.Legible) :
    Construct.ofJson? n.toJson = some (n.construct.map toJson) := by
  refine Eq.trans (Construct.ofJson?_congr fun name h => ?_)
    (Construct.ofJson?_fields toJson_ne_null n.construct legible)
  simp only [Construct.frame, List.mem_cons, List.not_mem_nil, or_false, not_or] at h
  have framed : (Json.object [("range", n.span.toJson), ("loc", .location n.line)]).field? name =
      none := by
    simp [Json.field?, Ne.symm h.1, Ne.symm h.2.1]
  rw [toJson_eq, Json.field?_append, Comment.field?_listField (Ne.symm h.2.2), Json.field?_append,
    framed]
  rfl

end Members

/-- A node is read from its output, if the raw texts of its literals tell their values. -/
theorem ofJson?_toJson {depth : Nat} {n : Node} (fits : Json.Fits depth n.toJson)
    (legible : ∀ m ∈ n.preorder, m.construct.Legible) : ofJson? depth n.toJson = some n := by
  induction depth generalizing n with
  | zero =>
    rw [toJson_eq] at fits
    cases fits
  | succ depth ih =>
    rw [preorder_eq, List.forall_mem_cons] at legible
    have parts : ∀ m ∈ n.construct.parts, ofJson? depth m.toJson = some m := by
      intro m hm
      refine ih ?_ fun k hk => legible.2 k (List.mem_flatMap.2 ⟨m, hm, hk⟩)
      rw [toJson_eq] at fits
      cases fits with
      | object fits =>
        refine Construct.fits_parts (fun member hm => fits member ?_) _
          (Construct.parts_map toJson n.construct ▸ List.mem_map_of_mem hm)
        exact List.mem_append_left _ (List.mem_append_left _ (List.mem_cons_of_mem _ hm))
    rw [ofJson?, ofJson?_construct n legible.1, field?_range, field?_loc, ofField?_doc]
    simp only [Option.bind_eq_bind, Option.bind_some, Option.pure_def,
      Construct.traverse?_map parts, Span.ofJson?_toJson, Json.line?_location]
    cases n with
    | mk construct span line doc => cases doc <;> rfl

end Node

/-! ## Programs -/

namespace Program

theorem fits_toJson (p : Program) : Json.Fits (2 * p.nodes.length + 6) p.toJson := by
  refine .object fun member hm => ?_
  rw [List.mem_append, List.mem_append] at hm
  rcases hm with (hm | hm) | hm
  · simp only [List.mem_cons, List.not_mem_nil, or_false] at hm
    rcases hm with rfl | rfl | rfl | rfl | rfl
    · exact .string
    · refine .array fun v hv => ?_
      obtain ⟨m, hm, rfl⟩ := List.mem_map.1 hv
      have shorter : m.preorder.length ≤ p.nodes.length :=
        (List.sublist_flatten_of_mem (List.mem_map_of_mem hm)).length_le
      exact m.fits_toJson.mono (by omega)
    · exact Span.fits_toJson _ _
    · exact Json.fits_location _ _
    · exact (Comment.fits_list 0 _).mono (by omega)
  · exact (Comment.fits_listField 0 _ _ member hm).mono (by omega)
  · exact (Comment.fits_listField 0 _ _ member hm).mono (by omega)

section Members

variable (p : Program)

/-- The members of a program other than its documentation comments. -/
def members : List (String × Json) :=
  [("type", .string "Program"), ("body", .array (p.body.map Node.toJson)),
    ("range", p.span.toJson), ("loc", .location 1),
    ("comments", .array (p.comments.map Comment.toJson))]

theorem field?_toJson {name : String} (leading : "leadingComments" ≠ name)
    (trailing : "trailingComments" ≠ name) :
    p.toJson.field? name = (Json.object p.members).field? name := by
  rw [toJson, Json.field?_append, Comment.field?_listField trailing, Json.field?_append,
    Comment.field?_listField leading]
  rfl

theorem ofField?_comments : Comment.ofField? "comments" p.toJson = some p.comments := by
  rw [Comment.ofField?, field?_toJson p (by decide) (by decide)]
  exact mapM_map_of_reads p.comments fun c _ => Comment.ofJson?_toJson c

theorem ofField?_leading : Comment.ofField? "leadingComments" p.toJson = some p.leading := by
  have absent : (Json.object p.members).field? "leadingComments" = none := rfl
  refine (Comment.ofField?_congr ?_).trans (Comment.ofField?_listField absent p.leading)
  rw [toJson, Json.field?_append, Comment.field?_listField (by decide)]
  rfl

theorem ofField?_trailing : Comment.ofField? "trailingComments" p.toJson = some p.trailing := by
  refine Comment.ofField?_listField ?_ _
  rw [Json.field?_append, Comment.field?_listField (by decide)]
  rfl

end Members

/-- A program is read from its output, if the raw texts of its literals tell their values. -/
theorem ofJson?_toJson {depth : Nat} {p : Program} (fits : Json.Fits depth p.toJson)
    (legible : ∀ n ∈ p.nodes, n.construct.Legible) : ofJson? depth p.toJson = some p := by
  have body : (p.body.map Node.toJson).mapM (Node.ofJson? depth) = some p.body := by
    refine mapM_map_of_reads p.body fun n hn => ?_
    refine Node.ofJson?_toJson ?_ fun m hm => legible m (List.mem_flatMap.2 ⟨n, hn, hm⟩)
    cases fits with
    | object fits =>
      have list := fits ("body", .array (p.body.map Node.toJson)) (by simp)
      exact (list.items _ (List.mem_map_of_mem hn)).mono (Nat.le_succ _)
  have list : p.toJson.list? "body" = some (p.body.map Node.toJson) := by
    rw [Json.list?, field?_toJson p (by decide) (by decide)]
    rfl
  have range : p.toJson.field? "range" = some p.span.toJson := by
    rw [field?_toJson p (by decide) (by decide)]
    rfl
  simp only [ofJson?, list, range, body, ofField?_comments, ofField?_leading, ofField?_trailing,
    Option.bind_eq_bind, Option.bind_some, Option.pure_def, Span.ofJson?_toJson]
  rfl

end Program

/-- What an entry of the roll makes tells the value of a literal by its raw text. -/
theorem Registration.Makes.legible {ctx : BuildContext} {r : Registration} {n : Node}
    (made : r.Makes ctx n) : n.construct.Legible := by
  have reads := made.reads
  unfold Construct.Legible
  split
  · next value raw hn =>
    rw [hn] at reads
    cases value with
    | null =>
      obtain rfl : raw = "null" := reads
      rfl
    | boolean value => rfl
    | string value => rfl
    | number x =>
      obtain ⟨s, -, rfl, hx⟩ := reads
      have hx : Numeral.read? (ctx.name s).toList = some x := by
        rwa [BuildContext.name, String.toList_ofList]
      rw [LiteralValue.toJson, Json.ofBinary64]
      split
      · rw [LiteralValue.ofJson?, hx]
        rfl
      · have named : ctx.name s ≠ "null" := by
          intro h
          have none : Numeral.read? "null".toList = none := by decide
          rw [h, none] at hx
          cases hx
        rw [LiteralValue.ofJson?, if_neg named, hx]
        rfl
  · trivial

-- A number without digits in its output is told from the literal `null`.
example : LiteralValue.ofJson? "1e999" .null = some (.number (.infinite false)) ∧
    LiteralValue.ofJson? "null" .null = some .null :=
  ⟨rfl, rfl⟩

/-- Programs are read back from the text that is written for them. For every program that a build
makes, whatever the source, the parse tree and the options, the text of its output in either layout
is read as that program. So programs with the same text are the same, wherever they come from:
whatever `null` stands for, a handler that is missing, a hole, a literal or a number that has no
digits, is told from what stands beside it, and the raw text of a comment tells whether it is
documentation. -/
theorem written_program_read :
    (∀ (session : BuildSession) (source : Source) (root : ParseTree) (p : Program) (r : Report),
      (session.build source root).1 = .ok p → Program.ofText? (r.object p.toJson) = some p) ∧
    ∀ (session session' : BuildSession) (source source' : Source) (root root' : ParseTree)
      (p p' : Program) (r r' : Report), (session.build source root).1 = .ok p →
      (session'.build source' root').1 = .ok p' → r.object p.toJson = r'.object p'.toJson →
      p = p' := by
  have read (session : BuildSession) (source : Source) (root : ParseTree) (p : Program)
      (r : Report) (h : (session.build source root).1 = .ok p) :
      Program.ofText? (r.object p.toJson) = some p := by
    have legible : ∀ n ∈ p.nodes, n.construct.Legible := by
      intro n hn
      obtain ⟨entry, -, made⟩ :=
        @BuildContext.made_of_build ⟨source, session.style⟩ root p n h hn
      exact made.legible
    rw [Program.ofText?, r.parse?_object p.fits_toJson]
    exact Program.ofJson?_toJson (r.fits_object p.fits_toJson) legible
  refine ⟨read, fun session session' source source' root root' p p' r r' h h' same => ?_⟩
  exact Option.some.inj ((read session source root p r h).symm.trans
    (same ▸ read session' source' root' p' r' h'))

theorem loop_program_read :
    ∃ p, ((BuildSession.start .single).build loopSource loopTree).1 = .ok p ∧
      ∀ r : Report, Program.ofText? (r.object p.toJson) = some p := by
  obtain ⟨p, hp⟩ := loop_builds
  exact ⟨p, hp, fun r => written_program_read.1 (.start .single) loopSource loopTree p r hp⟩

end ScriptTree
