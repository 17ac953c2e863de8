import ScriptTree.Build.Constructs
import ScriptTree.Proofs.Results

/-!
# Successful conversions

What the success of a conversion says about its steps: each step has succeeded, and each has gone on
from the state that the step before left behind. If it fails, then one step has failed after others
that have succeeded.
-/
namespace ScriptTree

namespace Conversion

open ParseTree (Site)

variable {α β : Type} {st st' : BuildState} {e : BuildError}

theorem bind_ok {x : Conversion α} {f : α → Conversion β} {b : β} :
    (x >>= f) st = .ok b st' ↔ ∃ a st₁, x st = .ok a st₁ ∧ f a st₁ = .ok b st' := by
  show EStateM.bind x f st = .ok b st' ↔ _
  unfold EStateM.bind
  cases x st with
  | ok a st₁ =>
    constructor
    · exact fun h => ⟨a, st₁, rfl, h⟩
    · rintro ⟨_, _, h, h'⟩
      cases h
      exact h'
  | error e st₁ => simp

theorem pure_ok {a b : α} : (pure a : Conversion α) st = .ok b st' ↔ a = b ∧ st = st' := by
  show EStateM.Result.ok a st = .ok b st' ↔ _
  simp

theorem bind_error {x : Conversion α} {f : α → Conversion β} :
    (x >>= f) st = .error e st' ↔
      x st = .error e st' ∨ ∃ a st₁, x st = .ok a st₁ ∧ f a st₁ = .error e st' := by
  show EStateM.bind x f st = .error e st' ↔ _
  unfold EStateM.bind
  cases x st with
  | ok a st₁ =>
    refine ⟨fun h => .inr ⟨a, st₁, rfl, h⟩, ?_⟩
    rintro (h | ⟨_, _, h, h'⟩)
    · cases h
    · cases h
      exact h'
  | error e₁ st₁ => simp

theorem pure_error {a : α} : (pure a : Conversion α) st = .error e st' ↔ False :=
  ⟨fun h => (nomatch h), fun h => h.elim⟩

theorem throw_ok {b : α} : (throw e : Conversion α) st = .ok b st' ↔ False :=
  ⟨fun h => (nomatch h), fun h => h.elim⟩

theorem refuse_ok {ctx : BuildContext} {feature : String} {s : Site} {b : α} :
    (ctx.refuse feature s : Conversion α) st = .ok b st' ↔ False :=
  throw_ok

/-- What comes after a refusal is reached only if the reason for it is not there. -/
theorem unless_refused {ctx : BuildContext} {feature : String} {s : Site} {p : Prop} [Decidable p]
    {refused : β → Conversion α} {rest : Conversion α} {b : α} :
    (if p then ctx.refuse feature s >>= refused else rest) st = .ok b st' ↔
      ¬p ∧ rest st = .ok b st' := by
  by_cases hp : p
  · simp [hp, bind_ok, refuse_ok]
  · simp [hp]

theorem ctx_field_ok {ctx : BuildContext} {s child : Site} {name : String} :
    ctx.field s name st = .ok child st' ↔ s.field? name = some child ∧ st = st' := by
  unfold BuildContext.field Site.requiredField
  cases s.field? name <;> simp [pure_ok, throw_ok]

theorem ctx_firstMember_ok {ctx : BuildContext} {s child : Site} :
    ctx.firstMember s st = .ok child st' ↔ s.firstMember? = some child ∧ st = st' := by
  unfold BuildContext.firstMember
  cases s.firstMember? <;> simp [pure_ok, throw_ok]

theorem operator_ok {s : Site} {token : String} {found : Option α} {a : α} :
    operator s token found st = .ok a st' ↔ found = some a ∧ st = st' := by
  unfold operator
  cases found <;> simp [pure_ok, throw_ok]

theorem operatorToken_ok {ctx : BuildContext} {s : Site} {token : String}
    (h : operatorToken ctx s st = .ok token st') : st = st' := by
  simp only [operatorToken, bind_ok, ctx_field_ok, pure_ok] at h
  obtain ⟨_, _, ⟨_, rfl⟩, _, rfl⟩ := h
  rfl

theorem variableKind_ok {ctx : BuildContext} {keyword : Site} {kind : VariableKind}
    (h : variableKind ctx keyword st = .ok kind st') : st = st' := by
  unfold variableKind at h
  cases found : VariableKind.ofKeyword? (ctx.name keyword) with
  | some kind' =>
    simp only [found, pure_ok] at h
    exact h.2
  | none =>
    simp only [found, throw_ok] at h

theorem refuseOptionalChain_ok {ctx : BuildContext} {s : Site} {u : Unit}
    (h : refuseOptionalChain ctx s st = .ok u st') : st = st' := by
  unfold refuseOptionalChain at h
  by_cases chained : (s.field? "optional_chain").isSome
  · rw [if_pos chained] at h
    exact (refuse_ok.1 h).elim
  · rw [if_neg chained] at h
    exact (pure_ok.1 h).2

theorem refuseModifiers_ok {ctx : BuildContext} {s : Site} {u : Unit}
    (h : refuseModifiers ctx s st = .ok u st') : st = st' := by
  unfold refuseModifiers at h
  by_cases decorated : (s.field? "decorator").isSome
  · rw [if_pos decorated] at h
    exact (refuse_ok.1 h).elim
  rw [if_neg decorated] at h
  cases found : refusedModifiers.find? s.hasToken with
  | some modifier =>
    simp only [found, refuse_ok] at h
  | none =>
    simp only [found, pure_ok] at h
    exact h.2

end Conversion

end ScriptTree
