import ScriptTree.Build.Session

/-!
# Builds of one session

A session goes through calls one after another. A build may fail at any point and leave a partly
filled registry and table behind; the next call starts from a state that has been reset. So each
answer of a session is that of a session that has built nothing (`answers_eq_fresh`).
-/
namespace ScriptTree.BuildSession

/-- A call to a session: a build of a source whose parse tree is given, or a reset. -/
inductive Call where
  | build (source : Source) (root : ParseTree)
  | reset

/-- What is seen of a session after a call: the result of a build, the program that is kept, and the
number of nodes in the identity table. -/
structure Answer where
  result : Option (Except BuildError Program)
  program : Option Program
  nodeCount : Nat

/-- What is seen of a session after a call with a result. -/
def answer (s : BuildSession) (result : Option (Except BuildError Program)) : Answer :=
  ⟨result, s.program, s.nodeCount⟩

/-- Carries out a call: the answer, and the session after it. -/
def perform (s : BuildSession) : Call → Answer × BuildSession
  | .build source root =>
    let (result, next) := s.build source root
    (next.answer (some result), next)
  | .reset => (s.reset.answer none, s.reset)

/-- The answers to calls, one after another. -/
def answers (s : BuildSession) : List Call → List Answer
  | [] => []
  | call :: calls => (s.perform call).1 :: answers (s.perform call).2 calls

/-- The session after some calls. -/
def after (s : BuildSession) (calls : List Call) : BuildSession :=
  calls.foldl (fun s call => (s.perform call).2) s

/-! ## One call -/

theorem reset_eq_start (s : BuildSession) : s.reset = start s.style := rfl

theorem build_style (s : BuildSession) (source : Source) (root : ParseTree) :
    (s.build source root).2.style = s.style := rfl

/-- A build keeps nothing of the state before it but the style. -/
theorem build_eq_start (s : BuildSession) (source : Source) (root : ParseTree) :
    s.build source root = (start s.style).build source root := by
  unfold build
  rw [reset_eq_start, reset_eq_start]
  rfl

/-- What a build leaves behind: the state at the point to which it came, and its program if it did
not fail. -/
theorem build_leaves (s : BuildSession) (source : Source) (root : ParseTree) :
    (s.build source root).1 = (BuildContext.build ⟨source, s.style⟩ root).result ∧
      (s.build source root).2.state = (BuildContext.build ⟨source, s.style⟩ root).state ∧
      (s.build source root).2.program = (s.build source root).1.toOption :=
  ⟨rfl, rfl, rfl⟩

theorem perform_style (s : BuildSession) (call : Call) : (s.perform call).2.style = s.style := by
  cases call with
  | build source root => exact s.build_style source root
  | reset => rfl

theorem perform_eq_start (s : BuildSession) (call : Call) :
    s.perform call = (start s.style).perform call := by
  cases call with
  | build source root => rw [perform, build_eq_start, perform]
  | reset => rfl

/-! ## Runs of calls -/

theorem after_style (s : BuildSession) (calls : List Call) : (s.after calls).style = s.style := by
  induction calls generalizing s with
  | nil => rfl
  | cons call calls ih =>
    rw [after, List.foldl_cons]
    exact (ih (s.perform call).2).trans (s.perform_style call)

/-- Calls are answered as each of them would be by a new session. -/
theorem answers_eq_map (s : BuildSession) (calls : List Call) :
    s.answers calls = calls.map fun call => ((start s.style).perform call).1 := by
  induction calls generalizing s with
  | nil => rfl
  | cons call calls ih =>
    rw [answers, List.map_cons, ih, perform_style, perform_eq_start s call]

/-- No state leaks between builds. After any calls, a build gives the result of a new session with
the same style and leaves the same state behind, whether it succeeds or fails; the program is kept
if and only if there is one. A reset leaves no node and no program. -/
theorem answers_eq_fresh (style : CatchStyle) (calls : List Call) :
    (start style).answers calls = calls.map (fun call => ((start style).perform call).1) ∧
      (∀ source root,
        ((start style).after calls).build source root = (start style).build source root ∧
          (((start style).after calls).build source root).2.nodeCount =
            (BuildContext.build ⟨source, style⟩ root).state.table.size ∧
          (((start style).after calls).build source root).2.program =
            (((start style).after calls).build source root).1.toOption) ∧
      ((start style).after calls).reset.nodeCount = 0 ∧
      ((start style).after calls).reset.program = none := by
  have style_kept : ((start style).after calls).style = style := after_style (start style) calls
  refine ⟨answers_eq_map (start style) calls, fun source root => ?_, ?_⟩
  · have fresh := ((start style).after calls).build_eq_start source root
    rw [style_kept] at fresh
    obtain ⟨-, state, program⟩ := (start style).build_leaves source root
    rw [fresh]
    refine ⟨rfl, ?_, program⟩
    rw [nodeCount, state]
    rfl
  · rw [reset_eq_start]
    exact ⟨rfl, rfl⟩

end ScriptTree.BuildSession
