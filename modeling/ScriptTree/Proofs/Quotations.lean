import ScriptTree.Build.Session
import ScriptTree.Proofs.Converts
import ScriptTree.Proofs.Excerpts

/-!
# What failed builds quote

A message has no line breaks but those of its parts, and an excerpt, as a tidy line, has none
(`BuildError.message_onOneLine`). A conversion that fails quotes the excerpt of some part of its
source, or nothing (`Conversion.Quotes`). This goes through every construct: a computation quotes
the source if its steps do, whatever they are given, so there is nothing to prove of a construct but
what its own refusals quote. A fault quotes its text in the same way, or names what is missing. So
excerpts are normal forms that keep messages on one line (`excerpts_are_normal_forms`).
-/
namespace ScriptTree

open ParseTree (Site)

/-! ## Messages -/

/-- The characters that end a line. -/
def Text.lineBreaks : List Char :=
  ['\n', '\x0b', '\x0c', '\r', '\u0085', '\u2028', '\u2029']

/-- A text without a line break. -/
def OnOneLine (s : String) : Prop :=
  s.toList.all (fun c => !Text.lineBreaks.contains c) = true

instance (s : String) : Decidable (OnOneLine s) :=
  inferInstanceAs (Decidable (_ = true))

theorem onOneLine_iff {s : String} : OnOneLine s ↔ ∀ c ∈ s.toList, c ∉ Text.lineBreaks := by
  simp [OnOneLine]

theorem Text.IsTidy.onOneLine {line : List Char} (h : Text.IsTidy line) :
    OnOneLine (String.ofList line) := by
  have blank : Text.lineBreaks.all (fun c => Text.isBlank c && c != ' ') = true := by decide
  rw [onOneLine_iff, String.toList_ofList]
  intro c hc ends
  have other := List.all_eq_true.1 blank c ends
  rw [Bool.and_eq_true, bne_iff_ne] at other
  exact other.2 (h.spaces c hc other.1)

theorem OnOneLine.append {s t : String} (hs : OnOneLine s) (ht : OnOneLine t) :
    OnOneLine (s ++ t) := by
  rw [OnOneLine, String.toList_append, List.all_append, hs, ht]
  rfl

theorem onOneLine_toString (n : Nat) : OnOneLine (toString n) := by
  have digits : Text.lineBreaks.all (fun c => !c.isDigit) = true := by decide
  rw [onOneLine_iff]
  intro c hc ends
  have mem : c ∈ Nat.toDigits 10 n := by simpa [toString, Nat.toList_repr] using hc
  have digit := Nat.isDigit_of_mem_toDigits (by decide) (by decide) mem
  simpa [digit] using List.all_eq_true.1 digits c ends

namespace BuildError

/-- What an error quotes of the source. -/
def excerpt? : BuildError → Option String
  | faultySource _ _ _ excerpt | unknownKind _ excerpt | unsupported _ excerpt
  | unknownKeyword _ excerpt | malformed _ _ excerpt | misplaced _ excerpt => some excerpt
  | unknownOperator _ _ => none

/-- What an error names besides: a source, or kinds, fields and tokens of the grammar. -/
def names : BuildError → List String
  | faultySource name _ _ _ => [name]
  | unknownKind kind _ | misplaced kind _ => [kind]
  | unsupported feature _ => [feature]
  | unknownKeyword keyword _ => [keyword]
  | unknownOperator operator kind => [operator, kind]
  | malformed kind field _ => [kind, field]

/-- A message has no line breaks but those of its parts. -/
theorem message_onOneLine {e : BuildError} (quoted : ∀ q, e.excerpt? = some q → OnOneLine q)
    (named : ∀ s ∈ e.names, OnOneLine s) : OnOneLine e.message := by
  unfold message
  cases e with
  | faultySource name line column excerpt =>
    have colon : OnOneLine ":" := by decide
    have place : OnOneLine (name ++ ":" ++ toString line ++ ":" ++ toString column) :=
      ((((named name List.mem_cons_self).append colon).append (onOneLine_toString line)).append
        colon).append (onOneLine_toString column)
    exact ((place.append (by decide)).append (quoted excerpt rfl)).append (by decide)
  | unknownOperator operator kind =>
    obtain ⟨operator, kind⟩ : OnOneLine operator ∧ OnOneLine kind := by simpa [names] using named
    exact ((OnOneLine.append (by decide) operator).append (by decide)).append kind
  | malformed kind field excerpt =>
    obtain ⟨kind, field⟩ : OnOneLine kind ∧ OnOneLine field := by simpa [names] using named
    exact ((((OnOneLine.append (by decide) kind).append (by decide)).append field).append
      (by decide)).append (quoted excerpt rfl)
  | unknownKind name excerpt | unsupported name excerpt | unknownKeyword name excerpt
  | misplaced name excerpt =>
    have name := named name List.mem_cons_self
    exact ((OnOneLine.append (by decide) name).append (by decide)).append (quoted excerpt rfl)

end BuildError

/-! ## Conversions -/

namespace Conversion

variable {α β : Type} {source : Source}

/-- What failures of a computation quote is the excerpt of a part of the source. -/
def Quotes (source : Source) (x : Conversion α) : Prop :=
  ∀ ⦃st e st'⦄, x st = .error e st' → ∀ q, e.excerpt? = some q → ∃ span, q = source.excerpt span

namespace Quotes

@[grind ←]
theorem pure (a : α) : Quotes source (Pure.pure a) :=
  fun _ _ _ h => (pure_error.1 h).elim

@[grind ←]
theorem bind {x : Conversion α} {f : α → Conversion β} (hx : Quotes source x)
    (hf : ∀ a, Quotes source (f a)) : Quotes source (x >>= f) := by
  intro st e st' h
  rcases bind_error.1 h with h | ⟨a, st₁, -, h⟩
  · exact hx h
  · exact hf a h

@[grind ←]
theorem throw {e : BuildError}
    (h : ∀ q, e.excerpt? = some q → ∃ span, q = source.excerpt span) :
    Quotes source (MonadExcept.throw e : Conversion α) := by
  rintro _ _ _ ⟨⟩
  exact h

/-- What never fails quotes nothing. -/
theorem of_ok {x : Conversion α} (h : ∀ st, ∃ a st', x st = .ok a st') : Quotes source x := by
  intro st e st' failed
  obtain ⟨a, st₁, succeeded⟩ := h st
  cases failed.symm.trans succeeded

end Quotes

/-! ## Steps that all constructs share -/

section

variable {ctx : BuildContext} {s : Site}

attribute [grind =] BuildError.excerpt? BuildContext.excerpt

@[grind ←]
theorem refuse_quotes (feature : String) :
    Quotes ctx.source (ctx.refuse feature s : Conversion α) := by
  unfold BuildContext.refuse
  grind

/-- What comes after a refusal is never reached. -/
@[grind ←]
theorem refused_quotes (feature : String) {f : α → Conversion β} :
    Quotes ctx.source (ctx.refuse feature s >>= f) := by
  intro st e st' h
  rcases bind_error.1 h with h | ⟨_, _, succeeded, -⟩
  · exact refuse_quotes feature h
  · exact (refuse_ok.1 succeeded).elim

@[grind ←]
theorem ctxField_quotes (name : String) : Quotes ctx.source (ctx.field s name) := by
  unfold BuildContext.field Site.requiredField
  cases s.field? name with
  | none => exact .throw (by grind)
  | some child => exact .pure child

@[grind ←]
theorem ctxFirstMember_quotes : Quotes ctx.source (ctx.firstMember s) := by
  unfold BuildContext.firstMember
  grind

@[grind ←]
theorem enter_quotes (origin : Origin) : Quotes source (enter origin) :=
  .of_ok fun _ => ⟨_, _, rfl⟩

@[grind ←]
theorem register_quotes : Quotes source (register ctx s) :=
  enter_quotes _

@[grind ←]
theorem registerBare_quotes : Quotes source (registerBare ctx s) :=
  enter_quotes _

@[grind ←]
theorem registerSpan_quotes (kind : String) (span : Span) (line : Nat) :
    Quotes source (registerSpan kind span line) :=
  enter_quotes _

@[grind ←]
theorem finish_quotes (place : Nat) (c : Construct Node) : Quotes source (finish place c) :=
  .of_ok fun st => ⟨_, _, finish_run place c st⟩

@[grind ←]
theorem bareIdentifier_quotes : Quotes source (bareIdentifier ctx s) :=
  .of_ok fun st => ⟨_, _, bareIdentifier_run ctx s st⟩

/-! ## Operators, keywords and refusals -/

@[grind ←]
theorem variableKind_quotes : Quotes ctx.source (variableKind ctx s) := by
  unfold variableKind
  grind

@[grind ←]
theorem operator_quotes (token : String) (found : Option α) :
    Quotes source (operator s token found) := by
  unfold operator
  grind

@[grind ←]
theorem operatorToken_quotes : Quotes ctx.source (operatorToken ctx s) := by
  unfold operatorToken
  grind

@[grind ←]
theorem refuseOptionalChain_quotes : Quotes ctx.source (refuseOptionalChain ctx s) := by
  unfold refuseOptionalChain
  grind

@[grind ←]
theorem refuseModifiers_quotes : Quotes ctx.source (refuseModifiers ctx s) := by
  unfold refuseModifiers
  grind

@[grind ←]
theorem keyword_quotes : Quotes ctx.source (keyword ctx s) := by
  unfold keyword
  grind

@[grind ←]
theorem number_quotes : Quotes ctx.source (number ctx s) := by
  unfold number
  grind

@[grind ←]
theorem shorthandProperty_quotes : Quotes source (shorthandProperty ctx s) := by
  unfold shorthandProperty
  grind

/-! ## Parts -/

variable {convert : Converter} (parts : ∀ s, Quotes ctx.source (convert s))
include parts

@[grind ←]
theorem all_quotes (sites : List Site) : Quotes ctx.source (all convert sites) := by
  induction sites with
  | nil => exact .pure []
  | cons s rest ih => grind [all]

@[grind ←]
theorem optional_quotes (target : Option Site) : Quotes ctx.source (optional convert target) := by
  cases target with
  | none => exact .pure none
  | some s => grind [optional]

@[grind ←]
theorem field_quotes (name : String) : Quotes ctx.source (field ctx convert s name) := by
  unfold field
  grind

@[grind ←]
theorem optionalField_quotes (name : String) :
    Quotes ctx.source (optionalField convert s name) :=
  optional_quotes parts _

@[grind ←]
theorem firstMember_quotes : Quotes ctx.source (firstMember ctx convert s) := by
  unfold firstMember
  grind

@[grind ←]
theorem elements_quotes (awaiting : Bool) (sites : List Site) :
    Quotes ctx.source (elements convert awaiting sites) := by
  induction sites generalizing awaiting with
  | nil => exact .pure []
  | cons s rest ih => grind [elements]

@[grind ←]
theorem loopCondition_quotes : Quotes ctx.source (loopCondition ctx convert s) := by
  unfold loopCondition
  grind

/-! ## Constructs -/

@[grind ←]
theorem headDeclaration_quotes (keyword left : Site) (value : Option Site) :
    Quotes ctx.source (headDeclaration ctx convert keyword left value) := by
  refine .bind variableKind_quotes fun kind => .bind (registerSpan_quotes _ _ _) fun place => ?_
  grind

@[grind ←]
theorem loopTarget_quotes (target : Site) :
    Quotes ctx.source (loopTarget ctx convert s target) := by
  unfold loopTarget
  grind

@[grind ←]
theorem forInStatement_quotes : Quotes ctx.source (forInStatement ctx convert s) := by
  unfold forInStatement
  split
  · exact refused_quotes "for await"
  · refine .bind (ctxField_quotes "left") fun target => .bind (loopTarget_quotes parts target) ?_
    grind

theorem shorthandDefault_quotes : Quotes ctx.source (shorthandDefault ctx convert s) := by
  refine .bind (ctxField_quotes "left") fun left => ?_
  split
  · exact .bind register_quotes fun place => by grind
  · exact parts s

theorem objectMember_quotes (s : Site) : Quotes ctx.source (objectMember ctx convert s) := by
  unfold objectMember
  grind

theorem patternMember_quotes (s : Site) : Quotes ctx.source (patternMember ctx convert s) := by
  have shorthand := shorthandDefault_quotes (s := s) parts
  unfold patternMember
  grind

@[grind ←]
theorem methodFunction_quotes : Quotes ctx.source (methodFunction ctx convert s) := by
  unfold methodFunction
  grind

@[grind ←]
theorem function_quotes (generator : Bool) :
    Quotes ctx.source (function ctx convert s generator) := by
  unfold function
  grind

@[grind ←]
theorem callExpression_quotes : Quotes ctx.source (callExpression ctx convert s) := by
  unfold callExpression
  grind

/-- Most constructs take a row of steps, and all of these are known to quote the source. -/
theorem construct_quotes (kind : GrammarKind) :
    Quotes ctx.source (construct ctx convert kind s) := by
  have objectMembers := all_quotes (objectMember_quotes parts) s.members
  have patternMembers := all_quotes (patternMember_quotes parts) s.members
  cases kind <;> unfold construct <;>
    grind [variableDeclaration, forStatement, tryStatement, switchStatement, pair, method,
      binaryExpression, augmentedAssignment, unaryExpression, updateExpression, newExpression,
      memberExpression]

theorem step_quotes : Quotes ctx.source (step ctx convert s) := by
  have construct := construct_quotes (s := s) parts
  unfold step
  grind

end

theorem upTo_quotes (ctx : BuildContext) (levels : Nat) (s : Site) :
    Quotes ctx.source (upTo ctx levels s) := by
  induction levels generalizing s with
  | zero => exact .throw (by grind)
  | succ levels ih => exact step_quotes ih

end Conversion

/-! ## Builds -/

theorem BuildContext.convertBody_quotes (ctx : BuildContext) (root : ParseTree) :
    Conversion.Quotes ctx.source (ctx.convertBody root) :=
  Conversion.all_quotes (fun s => Conversion.upTo_quotes ctx s.tree.height s) _

namespace BuildSession

variable {session : BuildSession} {source : Source} {root : ParseTree} {e : BuildError}

/-- The error of a build quotes an excerpt of the source, or it names what is missing there. -/
theorem excerpt?_of_error (failed : (session.build source root).1 = .error e) {q : String}
    (quoted : e.excerpt? = some q) :
    (∃ span, q = source.excerpt span) ∨
      ∃ t, root.fault? = some t ∧ t.label.missing = true ∧ q = "missing " ++ t.label.kind := by
  unfold build BuildContext.run at failed
  cases fault : root.fault? with
  | some t =>
    rw [fault] at failed
    cases failed
    obtain rfl := Option.some.inj quoted
    split
    · next missing => exact .inr ⟨t, rfl, missing, rfl⟩
    · exact .inl ⟨t.label.span, rfl⟩
  | none =>
    rw [fault] at failed
    dsimp only at failed
    split at failed
    · cases failed
    · next e' st converted =>
      cases failed
      exact .inl (BuildContext.convertBody_quotes _ root converted q quoted)

/-- The message of a failed build is on one line, if the names in it are, and the kind of what is
missing. -/
theorem message_onOneLine (failed : (session.build source root).1 = .error e)
    (named : ∀ s ∈ e.names, OnOneLine s)
    (missing : ∀ t, root.fault? = some t → OnOneLine t.label.kind) : OnOneLine e.message := by
  refine BuildError.message_onOneLine (fun q quoted => ?_) named
  rcases excerpt?_of_error failed quoted with ⟨span, rfl⟩ | ⟨t, fault, -, rfl⟩
  · exact (Text.isTidy_excerpt _).onOneLine
  · exact OnOneLine.append (by decide) (missing t fault)

end BuildSession

section

open Text

/-- Excerpts are normal forms. An excerpt is tidy: it has no blanks but single spaces between other
characters. It has at most 83 characters. A text has one sequence of words; the excerpt is the same
for all texts with these words, and it has them all if they fit with single spaces between them. An
excerpt is its own excerpt. So the message of a failed build stays on one line, if the names in it
do, and the kind of what is missing. -/
theorem excerpts_are_normal_forms :
    (∀ text, IsTidy (excerpt text) ∧ (excerpt text).length ≤ 83 ∧
      (∃! ws, Spaced ws text) ∧
      (∀ ws, Spaced ws text →
        (∀ other, Spaced ws other → excerpt other = excerpt text) ∧
          (([' '].intercalate ws).length ≤ 80 →
            excerpt text = [' '].intercalate ws ∧ Spaced ws (excerpt text))) ∧
      excerpt (excerpt text) = excerpt text) ∧
    ∀ (session : BuildSession) (source : Source) (root : ParseTree) (e : BuildError),
      (session.build source root).1 = .error e → (∀ s ∈ e.names, OnOneLine s) →
        (∀ t, root.fault? = some t → OnOneLine t.label.kind) → OnOneLine e.message := by
  refine ⟨fun text => ⟨isTidy_excerpt text, length_excerpt_le text, existsUnique_spaced text, ?_,
    excerpt_excerpt text⟩, ?_⟩
  · exact fun ws h => ⟨fun other => h.excerpt_eq, h.excerpt_of_le⟩
  · exact fun session source root e failed => BuildSession.message_onOneLine failed

end

end ScriptTree
