import ScriptTree.Proofs.HandlerStyles
import ScriptTree.Proofs.SourceOctets

/-!
# Faults of a source

The walk for the first fault leaves out subtrees that are not marked as faulty. If the marks are as
a parser sets them (`ParseTree.MarksFaults`), it misses nothing: no step passes a fault by
(`find?_ahead_of_next?`), so the walk finds what a search through all nodes in preorder finds. A
build reports what it has found before anything else is looked at, and no conversion reports a
fault, so the error of a build tells whether there was one.
-/
namespace ScriptTree

namespace ParseTree

/-- A node is marked as faulty if and only if there is a fault in its subtree. -/
def MarksFaults (root : ParseTree) : Prop :=
  ∀ t ∈ root.preorder, (t.label.faulty = true ↔ ∃ u ∈ t.preorder, u.isFault = true)

instance (root : ParseTree) : Decidable root.MarksFaults :=
  inferInstanceAs (Decidable (∀ _ ∈ _, _))

/-- Subtrees that are not marked are free of faults. -/
theorem MarksFaults.find?_eq_none {root : ParseTree} (marks : root.MarksFaults) :
    ∀ t ∈ root.preorder, t.label.faulty = false → t.preorder.find? isFault = none := by
  intro t ht unmarked
  rw [List.find?_eq_none]
  intro u hu fault
  rw [(marks t ht).2 ⟨u, hu, fault⟩] at unmarked
  cases unmarked

namespace Cursor

variable {c : Cursor}

theorem mem_ahead (c : Cursor) : c.tree ∈ c.ahead := by
  obtain ⟨⟨label, children⟩, after, above⟩ := c
  exact List.mem_cons_self

/-- What lies ahead after a step has been ahead before it. -/
theorem ahead_suffix_of_next? {enters : Bool} {next : Cursor} (h : c.next? enters = some next) :
    next.ahead <:+ c.ahead := by
  rcases ahead_of_next? h with left | left
  · exact ⟨[c.tree], left.symm⟩
  · exact ⟨c.tree.preorder, left.symm⟩

/-- A step passes no fault by: where it does not enter a subtree, there is none. -/
theorem find?_ahead_of_next? (free : c.tree.isFault = false)
    (unmarked : c.tree.label.faulty = false → c.tree.preorder.find? isFault = none) :
    c.ahead.find? isFault =
      (c.next? c.tree.label.faulty).bind fun next => next.ahead.find? isFault := by
  -- Past the subtree goes a step that does not enter it, and one that finds no child to enter.
  have passed (h : c.tree.preorder.find? isFault = none) :
      c.ahead.find? isFault = c.past?.bind fun next => next.ahead.find? isFault := by
    rw [ahead, List.find?_append, h, Option.none_or, beyond_eq]
    cases c.past? <;> rfl
  rw [next?]
  cases marked : c.tree.label.faulty with
  | false => exact passed (unmarked marked)
  | true =>
    rw [if_pos rfl]
    have here (later : List ParseTree) : (c.tree :: later).find? isFault = later.find? isFault :=
      List.find?_cons_of_neg (Bool.eq_false_iff.1 free)
    cases child : c.firstChild? with
    | some first =>
      rw [ahead_of_firstChild? child, here]
      rfl
    | none => exact passed (by rw [preorder_of_firstChild? child, here, List.find?_nil])

/-- The walk finds the first fault ahead if the subtrees ahead that are not marked are free of
faults. -/
theorem firstFault?_eq
    (unmarked : ∀ t ∈ c.ahead, t.label.faulty = false → t.preorder.find? isFault = none) :
    c.firstFault? = c.ahead.find? isFault := by
  fun_induction firstFault? c with
  | case1 c fault =>
    obtain ⟨⟨label, children⟩, after, above⟩ := c
    exact (List.find?_cons_of_pos fault).symm
  | case2 c free next step ih =>
    rw [ih fun t ht => unmarked t ((ahead_suffix_of_next? step).subset ht),
      find?_ahead_of_next? (Bool.eq_false_iff.2 free) (unmarked c.tree c.mem_ahead), step,
      Option.bind_some]
  | case3 c free step =>
    rw [find?_ahead_of_next? (Bool.eq_false_iff.2 free) (unmarked c.tree c.mem_ahead), step,
      Option.bind_none]

/-- Where there is no fault ahead, none is found, whatever is marked. -/
theorem firstFault?_eq_none (faultless : ∀ t ∈ c.ahead, t.isFault = false) :
    c.firstFault? = none := by
  fun_induction firstFault? c with
  | case1 c fault =>
    rw [faultless c.tree c.mem_ahead] at fault
    cases fault
  | case2 c free next step ih =>
    exact ih fun t ht => faultless t ((ahead_suffix_of_next? step).subset ht)
  | case3 c free step => rfl

/-- No walk goes on for ever, whatever it enters and whatever it goes past. -/
theorem wellFounded_next? :
    WellFounded fun after before : Cursor => ∃ enters, before.next? enters = some after :=
  Subrelation.wf (fun ⟨_, step⟩ => length_ahead_of_next? step)
    (measure fun c : Cursor => c.ahead.length).wf

end Cursor

theorem fault?_eq {root : ParseTree} (marks : root.MarksFaults) :
    root.fault? = root.preorder.find? isFault := by
  unfold fault?
  split
  · rw [Cursor.firstFault?_eq (by rw [Cursor.ahead_start]; exact marks.find?_eq_none),
      Cursor.ahead_start]
  · next unmarked =>
    have here : root ∈ root.preorder := Cursor.ahead_start root ▸ (Cursor.start root).mem_ahead
    exact (marks.find?_eq_none root here (Bool.eq_false_iff.2 unmarked)).symm

theorem fault?_eq_none {root : ParseTree} (faultless : ∀ t ∈ root.preorder, t.isFault = false) :
    root.fault? = none := by
  unfold fault?
  split
  · rw [← Cursor.ahead_start root] at faultless
    exact Cursor.firstFault?_eq_none faultless
  · rfl

end ParseTree

/-! ## Builds -/

/-- A conversion fails because of a construct, never because of a fault. -/
theorem BuildContext.isFault_of_convertBody {ctx : BuildContext} {root : ParseTree}
    {st t : BuildState} {e : BuildError} (h : ctx.convertBody root st = .error e t) :
    e.isFault = false := by
  obtain ⟨source, style⟩ := ctx
  rcases Conversion.convertBody_parallel (Conversion.styles_correspond source)
      (Eq.refl (ParseTree.rootSite root)) (Eq.refl st) with
    ⟨pairs, t₁, t₂, single, list, -⟩ | ⟨e', t₁, t₂, construct, single, list, -⟩
  · cases style with
    | single => exact nomatch single.symm.trans h
    | list => exact nomatch list.symm.trans h
  · cases style with
    | single => cases single.symm.trans h; exact construct
    | list => cases list.symm.trans h; exact construct

/-- The error of a build tells of a fault if and only if the walk has found one. -/
theorem BuildContext.run_isFault (ctx : BuildContext) (root : ParseTree) (state : BuildState) :
    (∃ e, (ctx.run root state).result = .error e ∧ e.isFault = true) ↔
      ∃ t, root.fault? = some t := by
  unfold run
  cases root.fault? with
  | some t => exact iff_of_true ⟨_, rfl, rfl⟩ ⟨t, rfl⟩
  | none =>
    refine iff_of_false ?_ fun ⟨_, found⟩ => nomatch found
    dsimp only
    cases converted : ctx.convertBody root (ctx.recorded root state) with
    | ok body after => exact fun ⟨_, failed, _⟩ => nomatch failed
    | error e after =>
      rintro ⟨_, ⟨⟩, fault⟩
      rw [isFault_of_convertBody converted] at fault
      cases fault

/-- A fault is reported before anything else is looked at: a session is left as it was reset. -/
theorem BuildSession.build_of_fault? {session : BuildSession} {source : Source} {root t : ParseTree}
    (found : root.fault? = some t) :
    session.build source root = (.error (t.faultError source), session.reset) := by
  unfold build BuildContext.run
  rw [found]
  rfl

/-- Faults of the source are found exactly and first. The walk comes to an end, and it finds the
first fault in preorder; nothing is found if and only if there is none. A build fails with a fault
if and only if there is one in the tree, whatever else is in it. The error then has the line and the
column of the first fault, counted from one, and they tell its place in octets if the parser has
counted them in the source; no node has been entered into the identity table, and no comment is
recorded. -/
theorem first_fault_is_reported (session : BuildSession) (source : Source) {root : ParseTree}
    (marks : root.MarksFaults) :
    (WellFounded fun after before : ParseTree.Cursor =>
        ∃ enters, before.next? enters = some after) ∧
      root.fault? = root.preorder.find? ParseTree.isFault ∧
      (root.fault? = none ↔ ∀ t ∈ root.preorder, t.isFault = false) ∧
      ((∃ e, (session.build source root).1 = .error e ∧ e.isFault = true) ↔
        ∃ t ∈ root.preorder, t.isFault = true) ∧
      ∀ t, root.preorder.find? ParseTree.isFault = some t →
        let built := session.build source root
        built.1 = .error (.faultySource source.name (source.lineOf t.label)
            (source.columnOf t.label)
            (if t.label.missing then "missing " ++ t.label.kind
              else source.excerpt t.label.span)) ∧
          (source.Counts t.label →
            source.lineOf t.label = 1 + source.lineFeeds t.label.span.start ∧
              source.columnOf t.label =
                1 + (t.label.span.start - source.lineStart t.label.span.start)) ∧
          built.2.nodeCount = 0 ∧ built.2.state.comments = .empty ∧ built.2.program = none := by
  have found := ParseTree.fault?_eq marks
  refine ⟨ParseTree.Cursor.wellFounded_next?, found, ?_, ?_, fun t first => ?_⟩
  · simp only [found, List.find?_eq_none, Bool.not_eq_true]
  · rw [BuildSession.build, BuildContext.run_isFault, found, ← Option.isSome_iff_exists,
      List.find?_isSome]
  · rw [BuildSession.build_of_fault? (found.trans first)]
    exact ⟨rfl, fun counted => ⟨counted.line, counted.column⟩, rfl, rfl, rfl⟩

/-- A call without its closing parenthesis, behind a class, which no build supports, a comment, and
a node of a kind that no build knows. The call is in the second line. -/
def unclosedTree : ParseTree :=
  let faulty : ParseTree → ParseTree
    | .node label children => .node { label with faulty := true } children
  let missing : ParseTree → ParseTree
    | .node label children => .node { label with missing := true, faulty := true } children
  faulty (.phrase 0 0 21 "program"
    [.phrase 1 0 9 "class_declaration" [.token 2 0 5 "class"], .remark 3 10 14,
      .inRow 1 15 (.phrase 4 15 17 "accessor" []),
      .inRow 1 15 (faulty (.phrase 5 18 21 "expression_statement"
        [.inRow 1 15 (faulty (.phrase 6 18 21 "call_expression"
          [.inRow 1 15 ((ParseTree.phrase 7 18 19 "identifier" []).within "function"),
            .inRow 1 15 (faulty ((ParseTree.phrase 8 19 21 "arguments"
              [.inRow 1 15 (.token 9 19 20 "("), .inRow 1 15 (.phrase 10 20 21 "identifier" []),
                .inRow 1 15 (missing (.token 11 21 21 ")"))]).within "arguments"))]))]))])

/-- The missing parenthesis is reported, in the second line, and nothing else. -/
theorem unclosed_call_is_reported :
    let source : Source := ⟨"call.js", "class A\x7b\x7d /**/\n@a f(x".toList⟩
    unclosedTree.MarksFaults ∧ (∀ t ∈ unclosedTree.preorder, source.Counts t.label) ∧
      ((BuildSession.start .single).build source unclosedTree).1 =
        .error (.faultySource "call.js" 2 7 "missing )") := by
  intro source
  have marks : unclosedTree.MarksFaults := by decide
  obtain ⟨-, -, -, -, reported⟩ := first_fault_is_reported (.start .single) source marks
  refine ⟨marks, by decide +kernel, ?_⟩
  cases first : unclosedTree.preorder.find? ParseTree.isFault with
  | none => exact absurd first (by decide)
  | some t =>
    rw [(reported t first).1]
    cases first
    exact congrArg Except.error (by decide +kernel)

end ScriptTree
