import Mathlib.Data.List.Forall2
import ScriptTree.Build.Session
import ScriptTree.Proofs.Sites

/-!
# Conversions side by side

Two conversions that run next to each other, from sites that look alike, each in its own source, and
from states that correspond. What a construct looks at is listed in `Site.Alike`; if all conversions
of parts go in parallel, then so does the conversion of the construct (`construct_parallel`), whether
it succeeds or fails, and in the end that of a whole subtree (`node_parallel`). What corresponds is
left open: a `Correspondence` of states and nodes only has to be kept when an entry is made in the
identity table and when a node is finished.

Children that a construct looks at have to be more alike than those that it only hands on to be
converted: a part that is handed on may be in wrappers, which its conversion opens.
-/
namespace ScriptTree

open ParseTree (Site Label)

/-- Two things of which a relation holds. -/
structure Pair {α β : Type} (R : α → β → Prop) where
  left : α
  right : β
  related : R left right

/-- The construct with the handler of a `try` statement in a style. -/
def Construct.inStyle {α : Type} (style : CatchStyle) : Construct α → Construct α
  | tryStatement block handlers finalizer =>
    .tryStatement block (.ofOption style handlers.toList.head?) finalizer
  | construct => construct

theorem Construct.inStyle_map {α β : Type} (style : CatchStyle) (f : α → β) (c : Construct α) :
    (c.inStyle style).map f = (c.map f).inStyle style := by
  cases c with
  | tryStatement block handlers finalizer =>
    cases style <;> rcases handlers with (_ | _) | (_ | _) <;> rfl
  | _ => rfl

/-! ## What constructs look at -/

/-- Two sources read the same at a node: they have one text there, and it starts on one line. -/
structure Source.SameAt (source source' : Source) (label : Label) : Prop where
  slice : source.slice label.span = source'.slice label.span
  line : source.lineOf label = source'.lineOf label

theorem Source.SameAt.refl (source : Source) (label : Label) : source.SameAt source label :=
  ⟨rfl, rfl⟩

/-- The fields whose child a construct looks at, whether or not it hands the child on. -/
def GrammarKind.looksAt : GrammarKind → List String
  | lexicalDeclaration => ["kind"]
  | switchStatement => ["body"]
  | forInStatement => ["left", "kind", "operator"]
  | functionDeclaration | generatorFunctionDeclaration | functionExpression | generatorFunction =>
    ["parameters"]
  | pair | pairPattern => ["key"]
  | methodDefinition => ["name", "parameters", "body"]
  | objectAssignmentPattern => ["left"]
  | augmentedAssignmentExpression | binaryExpression | unaryExpression | updateExpression =>
    ["operator"]
  | callExpression | newExpression => ["arguments"]
  | _ => []

/-- The constructs that look at their members. -/
def GrammarKind.looksAtMembers : GrammarKind → Bool
  | variableDeclaration | lexicalDeclaration | object | objectPattern => true
  | _ => false

/-- A label without the field in which the node stands, which only its parent looks at. -/
def ParseTree.Label.outOfField (label : Label) : Label :=
  { label with field := none }

namespace ParseTree.Site

/-- Whether the construct of a site looks at the child in a field. -/
def looksAt (s : Site) (name : String) : Bool :=
  (GrammarKind.ofName? s.kind).any fun kind => kind.looksAt.contains name

/-- Whether the construct of a site looks at its members. -/
def looksAtMembers (s : Site) : Bool :=
  (GrammarKind.ofName? s.kind).any GrammarKind.looksAtMembers

theorem looksAt_of {s : Site} {kind : GrammarKind} (hk : GrammarKind.ofName? s.kind = some kind)
    {name : String} (h : kind.looksAt.contains name = true) : s.looksAt name = true := by
  rw [looksAt, hk, Option.any_some, h]

theorem looksAtMembers_of {s : Site} {kind : GrammarKind}
    (hk : GrammarKind.ofName? s.kind = some kind) (h : kind.looksAtMembers = true) :
    s.looksAtMembers = true := by
  rw [looksAtMembers, hk, Option.any_some, h]

/-- What is left of a site when wrappers around it are opened. -/
inductive Unwraps : Site → Site → Prop
  | here (s : Site) : Unwraps s s
  | wrapper {s c d : Site} {kind : GrammarKind} (known : GrammarKind.ofName? s.kind = some kind)
      (transparent : kind.isTransparent = true) (first : s.firstMember? = some c)
      (inner : Unwraps c d) : Unwraps s d

theorem Unwraps.height_le {s c : Site} (h : s.Unwraps c) : c.tree.height ≤ s.tree.height := by
  induction h with
  | here => exact Nat.le_refl _
  | @wrapper s c d kind known transparent first inner ih =>
    have child : c ∈ s.children :=
      s.firstMember?_sublist.subset (by rw [first]; exact List.mem_singleton_self c)
    exact Nat.le_trans ih (Nat.le_of_lt (height_lt_of_mem_children child))

/-- Two sites look alike to the conversion of a construct, each in its source: there is one text at
their place, they have one label apart from their fields, and the children that are read in any of
the ways are related one by one, closely where the construct looks at them. An operator stands
before its operand in both or in none. -/
structure Alike (source source' : Source) (Q P : Site → Site → Prop) (s s' : Site) : Prop where
  read : source.SameAt source' s.label
  label : s.label.outOfField = s'.label.outOfField
  members : List.Forall₂ P s.members s'.members
  tokens : List.Forall₂ P s.tokens s'.tokens
  field : ∀ name, Option.Rel P (s.field? name) (s'.field? name)
  fieldMembers : ∀ name, List.Forall₂ P (s.fieldMembers name) (s'.fieldMembers name)
  seen : ∀ name, s.looksAt name = true → Option.Rel Q (s.field? name) (s'.field? name)
  seenMembers : s.looksAtMembers = true → List.Forall₂ Q s.members s'.members
  leading : s.looksAt "operator" = true → ∀ ⦃c d c' d'⦄,
    s.field? "operator" = some c → s.field? "argument" = some d →
    s'.field? "operator" = some c' → s'.field? "argument" = some d' →
    c.span.start < c.span.stop → (c.span.start < d.span.start ↔ c'.span.start < d'.span.start)

end ParseTree.Site

/-- There is no text between a place and one that is not behind it. -/
theorem Source.slice_of_le (source : Source) {span : Span} (h : span.stop ≤ span.start) :
    source.slice span = [] := by
  rw [slice, slice?]
  split
  · rw [Nat.sub_eq_zero_of_le h]
    cases Text.dropBytes source.text span.start with
    | none => rfl
    | some rest => cases rest <;> rfl
  · rfl

theorem head?_rel {Q : Site → Site → Prop} {l l' : List Site} (h : List.Forall₂ Q l l') :
    Option.Rel Q l.head? l'.head? := by
  cases h with
  | nil => exact .none
  | cons first _ => exact .some first

theorem rel_mono {Q P : Site → Site → Prop} (imp : ∀ ⦃c c'⦄, Q c c' → P c c')
    {found found' : Option Site} (h : Option.Rel Q found found') : Option.Rel P found found' := by
  cases h with
  | none => exact .none
  | some related => exact .some (imp related)

/-- What is found is found at both sites. -/
theorem rel_found {Q : Site → Site → Prop} {found found' : Option Site}
    (h : Option.Rel Q found found') :
    Option.Rel (fun c c' => Q c c' ∧ found = some c ∧ found' = some c') found found' := by
  cases h with
  | none => exact .none
  | some related => exact .some ⟨related, rfl, rfl⟩

theorem forall₂_among {Q : Site → Site → Prop} {l l' m m' : List Site} (h : List.Forall₂ Q l l')
    (sub : l ⊆ m) (sub' : l' ⊆ m') :
    List.Forall₂ (fun c c' => Q c c' ∧ c ∈ m ∧ c' ∈ m') l l' := by
  induction h with
  | nil => exact .nil
  | cons first _ ih =>
    rw [List.cons_subset] at sub sub'
    exact .cons ⟨first, sub.1, sub'.1⟩ (ih sub.2 sub'.2)

theorem rel_among {Q : Site → Site → Prop} {found found' : Option Site} {m m' : List Site}
    (h : Option.Rel Q found found') (sub : ∀ c, found = some c → c ∈ m)
    (sub' : ∀ c, found' = some c → c ∈ m') :
    Option.Rel (fun c c' => Q c c' ∧ c ∈ m ∧ c' ∈ m') found found' := by
  cases h with
  | none => exact .none
  | some related => exact .some ⟨related, sub _ rfl, sub' _ rfl⟩

namespace ParseTree.Site.Alike

variable {source source' : Source} {Q P : Site → Site → Prop} {s s' : Site}

theorem kind (h : s.Alike source source' Q P s') : s.kind = s'.kind := by
  have same := congrArg Label.kind h.label
  exact same

theorem span (h : s.Alike source source' Q P s') : s.span = s'.span := by
  have same := congrArg Label.span h.label
  exact same

theorem id (h : s.Alike source source' Q P s') : s.id = s'.id := by
  have same := congrArg Label.id h.label
  exact same

theorem slice (h : s.Alike source source' Q P s') :
    source.slice s.span = source'.slice s'.span := by
  rw [← h.span]
  exact h.read.slice

theorem excerpt (h : s.Alike source source' Q P s') :
    source.excerpt s.span = source'.excerpt s'.span := by
  rw [Source.excerpt, Source.excerpt, h.slice]

theorem lineOf (h : s.Alike source source' Q P s') :
    source.lineOf s.label = source'.lineOf s'.label := by
  have same := congrArg source'.lineOf h.label
  exact h.read.line.trans same

theorem firstMember (h : s.Alike source source' Q P s') :
    Option.Rel P s.firstMember? s'.firstMember? :=
  head?_rel h.members

/-- Where nothing is ever put into wrappers, one relation will do. -/
theorem plain (read : source.SameAt source' s.label) (label : s.label = s'.label)
    (members : List.Forall₂ Q s.members s'.members)
    (tokens : List.Forall₂ Q s.tokens s'.tokens)
    (field : ∀ name, Option.Rel Q (s.field? name) (s'.field? name))
    (fieldMembers : ∀ name, List.Forall₂ Q (s.fieldMembers name) (s'.fieldMembers name))
    (span : ∀ ⦃c c'⦄, Q c c' → c.span = c'.span) : s.Alike source source' Q Q s' where
  read := read
  label := congrArg Label.outOfField label
  members := members
  tokens := tokens
  field := field
  fieldMembers := fieldMembers
  seen name _ := field name
  seenMembers _ := members
  leading _ c d c' d' hc hd hc' hd' _ := by
    have sign := field "operator"
    have target := field "argument"
    rw [hc, hc', Option.rel_some_some] at sign
    rw [hd, hd', Option.rel_some_some] at target
    rw [span sign, span target]

theorem mono {Q' P' : Site → Site → Prop} (h : s.Alike source source' Q P s')
    (closely : ∀ ⦃c c'⦄, Q c c' → Q' c c') (imp : ∀ ⦃c c'⦄, P c c' → P' c c') :
    s.Alike source source' Q' P' s' where
  read := h.read
  label := h.label
  members := h.members.imp imp
  tokens := h.tokens.imp imp
  field name := rel_mono imp (h.field name)
  fieldMembers name := (h.fieldMembers name).imp imp
  seen name looks := rel_mono closely (h.seen name looks)
  seenMembers looks := (h.seenMembers looks).imp closely
  leading := h.leading

/-- Sites that are related because two sites look alike are children of these. -/
theorem among (h : s.Alike source source' Q P s') :
    s.Alike source source' (fun c c' => Q c c' ∧ c ∈ s.children ∧ c' ∈ s'.children)
      (fun c c' => P c c' ∧ c ∈ s.children ∧ c' ∈ s'.children) s' := by
  have members := s.members_sublist.subset
  have members' := s'.members_sublist.subset
  exact {
    read := h.read
    label := h.label
    members := forall₂_among h.members members members'
    tokens := forall₂_among h.tokens s.tokens_sublist.subset s'.tokens_sublist.subset
    field name := rel_among (h.field name) (fun _ => mem_children_of_field?)
      fun _ => mem_children_of_field?
    fieldMembers name := forall₂_among (h.fieldMembers name)
      ((s.fieldMembers_sublist name).trans List.filter_sublist).subset
      ((s'.fieldMembers_sublist name).trans List.filter_sublist).subset
    seen name looks := rel_among (h.seen name looks) (fun _ => mem_children_of_field?)
      fun _ => mem_children_of_field?
    seenMembers looks := forall₂_among (h.seenMembers looks) members members'
    leading := h.leading }

end ParseTree.Site.Alike

namespace Conversion

/-- Two computations go the same way from states that correspond: both have a result, and the
results are the two views of one value, or both fail with one error, which is about a construct and
not about a fault of the source. The states after them correspond again. -/
def Parallel (S : BuildState → BuildState → Prop) {α β γ : Type} (left : γ → α) (right : γ → β)
    (x : Conversion α) (y : Conversion β) : Prop :=
  ∀ ⦃st st'⦄, S st st' →
    (∃ c t t', x st = .ok (left c) t ∧ y st' = .ok (right c) t' ∧ S t t') ∨
      ∃ e t t', e.isFault = false ∧ x st = .error e t ∧ y st' = .error e t' ∧ S t t'

namespace Parallel

variable {S : BuildState → BuildState → Prop} {α β γ α' β' γ' : Type} {left : γ → α}
  {right : γ → β} {left' : γ' → α'} {right' : γ' → β'}

theorem pure (c : γ) : Parallel S left right (Pure.pure (left c)) (Pure.pure (right c)) :=
  fun st st' h => .inl ⟨c, st, st', rfl, rfl, h⟩

theorem throw {e : BuildError} (construct : e.isFault = false) :
    Parallel S left right (MonadExcept.throw e) (MonadExcept.throw e) :=
  fun st st' h => .inr ⟨e, st, st', construct, rfl, rfl, h⟩

theorem bind {x : Conversion α} {y : Conversion β} {f : α → Conversion α'} {g : β → Conversion β'}
    (h : Parallel S left right x y)
    (hf : ∀ c, Parallel S left' right' (f (left c)) (g (right c))) :
    Parallel S left' right' (x >>= f) (y >>= g) := by
  intro st st' corresponding
  have bound {δ ε : Type} (z : Conversion δ) (k : δ → Conversion ε) (st : BuildState) :
      (z >>= k) st = EStateM.bind z k st := rfl
  rw [bound, bound, EStateM.bind, EStateM.bind]
  rcases h corresponding with ⟨c, t, t', hx, hy, after⟩ | ⟨e, t, t', construct, hx, hy, after⟩
  · rw [hx, hy]
    exact hf c after
  · rw [hx, hy]
    exact .inr ⟨e, t, t', construct, rfl, rfl, after⟩

theorem related {R : α → β → Prop} {a : α} {b : β} (h : R a b) :
    Parallel S (Pair.left (R := R)) Pair.right (Pure.pure a) (Pure.pure b) :=
  pure (Pair.mk a b h)

/-- What comes after a failure does not matter. -/
theorem throw_bind {e : BuildError} (construct : e.isFault = false) {f : α → Conversion α'}
    {g : β → Conversion β'} :
    Parallel S left' right' (MonadExcept.throw e >>= f) (MonadExcept.throw e >>= g) := by
  have failed : Parallel S (Empty.elim : Empty → α) (Empty.elim : Empty → β)
      (MonadExcept.throw e) (MonadExcept.throw e) := throw construct
  exact bind failed fun c => c.elim

end Parallel

/-- A construct as one of two conversions makes it from parts that correspond. -/
def viewed (ctx : BuildContext) {R : Node → Node → Prop} (view : Pair R → Node)
    (c : Construct (Pair R)) : Construct Node :=
  (c.map view).inStyle ctx.style

theorem Parallel.made (ctx ctx' : BuildContext) {S : BuildState → BuildState → Prop}
    {R : Node → Node → Prop} (c : Construct (Pair R)) :
    Parallel S (viewed ctx (Pair.left (R := R))) (viewed ctx' Pair.right)
      (Pure.pure (viewed ctx Pair.left c)) (Pure.pure (viewed ctx' Pair.right c)) :=
  .pure c

/-- A correspondence between the states, nodes and sites of two conversions. Places in the first
identity table may be shifted against those in the second one. Sites that are handed on to be
converted may be in wrappers on the second side. -/
structure Correspondence (ctx ctx' : BuildContext) (S : BuildState → BuildState → Prop)
    (shift : Nat → Nat) (R : Node → Node → Prop) (Q P : Site → Site → Prop) : Prop where
  alike : ∀ ⦃s s'⦄, Q s s' → s.Alike ctx.source ctx'.source Q P s'
  handOn : ∀ ⦃s s'⦄, Q s s' → P s s'
  inner : ∀ ⦃s s'⦄, P s s' → ∃ c', Q s c' ∧ s'.Unwraps c'
  token : ∀ ⦃s s'⦄, P s s' → s.label.named = s'.label.named ∧
    (s.label.named = false → s.kind = s'.kind)
  register : ∀ ⦃s s'⦄, Q s s' →
    Parallel S shift id (Conversion.register ctx s) (Conversion.register ctx' s')
  enter : ∀ o : Origin, Parallel S shift id (Conversion.enter o) (Conversion.enter o)
  registerSpan : ∀ ⦃s s'⦄, P s s' → ∀ kind start line,
    Parallel S shift id (Conversion.registerSpan kind ⟨start, s.span.stop⟩ line)
      (Conversion.registerSpan kind ⟨start, s'.span.stop⟩ line)
  finish : ∀ place (c : Construct (Pair R)), Parallel S (Pair.left (R := R)) Pair.right
    (Conversion.finish (shift place) (viewed ctx Pair.left c))
    (Conversion.finish place (viewed ctx' Pair.right c))

/-- Where nothing is ever put into wrappers, sites need to be related in one way only. -/
theorem Correspondence.plain {ctx ctx' : BuildContext} {S : BuildState → BuildState → Prop}
    {shift : Nat → Nat} {R : Node → Node → Prop} {Q : Site → Site → Prop}
    (label : ∀ ⦃s s'⦄, Q s s' → s.label = s'.label)
    (alike : ∀ ⦃s s'⦄, Q s s' → s.Alike ctx.source ctx'.source Q Q s')
    (register : ∀ ⦃s s'⦄, Q s s' →
      Parallel S shift id (Conversion.register ctx s) (Conversion.register ctx' s'))
    (enter : ∀ o : Origin, Parallel S shift id (Conversion.enter o) (Conversion.enter o))
    (finish : ∀ place (c : Construct (Pair R)), Parallel S (Pair.left (R := R)) Pair.right
      (Conversion.finish (shift place) (viewed ctx Pair.left c))
      (Conversion.finish place (viewed ctx' Pair.right c))) :
    Correspondence ctx ctx' S shift R Q Q where
  alike := alike
  handOn _ _ h := h
  inner _ s' h := ⟨s', h, .here s'⟩
  token _ _ h := ⟨congrArg Label.named (label h), fun _ => congrArg Label.kind (label h)⟩
  register := register
  enter := enter
  registerSpan s s' h _ _ _ := by
    have same : s.span = s'.span := congrArg Label.span (label h)
    rw [same]
    exact enter _
  finish := finish

section

variable {ctx ctx' : BuildContext} {S : BuildState → BuildState → Prop} {shift : Nat → Nat}
  {R : Node → Node → Prop} {Q P : Site → Site → Prop}
  (cor : Correspondence ctx ctx' S shift R Q P)
  {s s' : Site} (h : s.Alike ctx.source ctx'.source Q P s')
include h

/-! ## What is read of a node -/

theorem text_eq : ctx.text s = ctx'.text s' := by
  rw [BuildContext.text, BuildContext.text, h.slice]

theorem name_eq : ctx.name s = ctx'.name s' := by
  rw [BuildContext.name, BuildContext.name, text_eq h]

theorem excerpt_eq : ctx.excerpt s = ctx'.excerpt s' := by
  rw [BuildContext.excerpt, BuildContext.excerpt, h.excerpt]

theorem line_eq : ctx.line s = ctx'.line s' := by
  rw [BuildContext.line, BuildContext.line, h.lineOf]

include cor in
theorem hasToken_eq (token : String) : s.hasToken token = s'.hasToken token := by
  have any : ∀ {l l' : List Site}, List.Forall₂ P l l' →
      (l.any fun c => !c.label.named && c.kind == token) =
        l'.any fun c => !c.label.named && c.kind == token := by
    intro l l' related
    induction related with
    | nil => rfl
    | cons first _ ih =>
      obtain ⟨named, kind⟩ := cor.token first
      rw [List.any_cons, List.any_cons, ih, ← named]
      cases fixed : Label.named _ with
      | true => rfl
      | false => rw [kind fixed]
  exact any h.tokens

/-! ## Steps that all constructs share -/

variable {α β γ : Type} {left : γ → α} {right : γ → β}

theorem refuse_parallel (feature : String) :
    Parallel S left right (ctx.refuse feature s) (ctx'.refuse feature s') := by
  rw [BuildContext.refuse, BuildContext.refuse, excerpt_eq h]
  exact .throw rfl

/-- Both conversions go on, unless both have the same reason to refuse. -/
theorem unless_parallel {p p' : Prop} [Decidable p] [Decidable p'] (same : p ↔ p')
    {feature : String} {refused : PUnit → Conversion α} {refused' : PUnit → Conversion β}
    {x : Conversion α} {y : Conversion β} (hxy : Parallel S left right x y) :
    Parallel S left right (if p then ctx.refuse feature s >>= refused else x)
      (if p' then ctx'.refuse feature s' >>= refused' else y) := by
  by_cases hp : p
  · rw [if_pos hp, if_pos (same.1 hp), BuildContext.refuse, BuildContext.refuse, excerpt_eq h]
    exact .throw_bind rfl
  · rw [if_neg hp, if_neg fun hp' => hp (same.2 hp')]
    exact hxy

/-- The children in a field, with any relation that they are in. -/
theorem ctxField_of_rel {T : Site → Site → Prop} {name : String}
    (related : Option.Rel T (s.field? name) (s'.field? name)) :
    Parallel S (Pair.left (R := T)) Pair.right (ctx.field s name) (ctx'.field s' name) := by
  unfold BuildContext.field Site.requiredField
  generalize s.field? name = found, s'.field? name = found' at related ⊢
  cases related with
  | none =>
    rw [h.kind, h.excerpt]
    exact .throw rfl
  | some related => exact .related related

theorem ctxField_parallel (name : String) :
    Parallel S (Pair.left (R := P)) Pair.right (ctx.field s name) (ctx'.field s' name) :=
  ctxField_of_rel h (h.field name)

/-- A child that the construct looks at. -/
theorem ctxField_seen (name : String) (looks : s.looksAt name = true) :
    Parallel S (Pair.left (R := Q)) Pair.right (ctx.field s name) (ctx'.field s' name) :=
  ctxField_of_rel h (h.seen name looks)

theorem ctxFirstMember_parallel :
    Parallel S (Pair.left (R := P)) Pair.right (ctx.firstMember s) (ctx'.firstMember s') := by
  unfold BuildContext.firstMember
  have related := h.firstMember
  generalize s.firstMember? = found, s'.firstMember? = found' at related ⊢
  cases related with
  | none =>
    rw [h.kind, excerpt_eq h]
    exact .throw rfl
  | some related => exact .related related

include cor in
theorem registerBare_parallel :
    Parallel S shift id (registerBare ctx s) (registerBare ctx' s') := by
  unfold registerBare
  rw [h.kind, h.id, h.span, line_eq h]
  exact cor.enter _

include cor in
theorem bareIdentifier_parallel :
    Parallel S (Pair.left (R := R)) Pair.right (bareIdentifier ctx s) (bareIdentifier ctx' s') := by
  refine .bind (registerBare_parallel cor h) fun place => ?_
  rw [name_eq h]
  exact cor.finish place (.identifier (ctx'.name s'))

include cor in
theorem operatorToken_parallel (looks : s.looksAt "operator" = true) :
    Parallel S (id : String → String) id (operatorToken ctx s) (operatorToken ctx' s') := by
  refine .bind (ctxField_seen h _ looks) fun operator => ?_
  rw [name_eq (cor.alike operator.related)]
  exact .pure (ctx'.name operator.right)

theorem operator_parallel {δ : Type} (token : String) (found : Option δ) :
    Parallel S (id : δ → δ) id (operator s token found) (operator s' token found) := by
  unfold operator
  rw [h.kind]
  cases found with
  | some found => exact .pure found
  | none => exact .throw rfl

theorem variableKind_parallel :
    Parallel S (id : VariableKind → VariableKind) id (variableKind ctx s)
      (variableKind ctx' s') := by
  unfold variableKind
  dsimp only
  rw [name_eq h, excerpt_eq h]
  cases VariableKind.ofKeyword? (ctx'.name s') with
  | some kind => exact .pure kind
  | none => exact .throw rfl

theorem refuseOptionalChain_parallel :
    Parallel S (id : Unit → Unit) id (refuseOptionalChain ctx s) (refuseOptionalChain ctx' s') := by
  unfold refuseOptionalChain
  have related := h.field "optional_chain"
  generalize s.field? "optional_chain" = found, s'.field? "optional_chain" = found' at related ⊢
  cases related with
  | none => exact .pure ()
  | some _ => exact refuse_parallel h _

include cor in
theorem refuseModifiers_parallel :
    Parallel S (id : Unit → Unit) id (refuseModifiers ctx s) (refuseModifiers ctx' s') := by
  unfold refuseModifiers
  have tokens : s.hasToken = s'.hasToken := funext (hasToken_eq cor h)
  have decorated : (s.field? "decorator").isSome = (s'.field? "decorator").isSome := by
    have related := h.field "decorator"
    generalize s.field? "decorator" = found, s'.field? "decorator" = found' at related ⊢
    cases related <;> rfl
  rw [tokens, decorated]
  by_cases decorator : (s'.field? "decorator").isSome
  · rw [if_pos decorator, if_pos decorator]
    exact refuse_parallel h _
  · rw [if_neg decorator, if_neg decorator]
    cases refusedModifiers.find? s'.hasToken with
    | some modifier => exact refuse_parallel h _
    | none => exact .pure ()

/-! ## Leaves -/

theorem keyword_parallel :
    Parallel S (viewed ctx (Pair.left (R := R))) (viewed ctx' Pair.right) (keyword ctx s)
      (keyword ctx' s') := by
  unfold keyword
  rw [h.kind, excerpt_eq h]
  split
  · exact .made ctx ctx' (.literal (.boolean true) "true")
  · exact .made ctx ctx' (.literal (.boolean false) "false")
  · exact .made ctx ctx' (.literal .null "null")
  · exact .made ctx ctx' .thisExpression
  · exact .made ctx ctx' .debuggerStatement
  · exact .throw rfl

theorem number_parallel :
    Parallel S (viewed ctx (Pair.left (R := R))) (viewed ctx' Pair.right) (number ctx s)
      (number ctx' s') := by
  unfold number
  rw [text_eq h, name_eq h]
  cases Numeral.read? (ctx'.text s') with
  | some value => exact .made ctx ctx' (.literal (.number value) (ctx'.name s'))
  | none => exact refuse_parallel h _

/-! ## Parts -/

omit h in
theorem all_parallel {T : Site → Site → Prop} {f g : Converter} {sites sites' : List Site}
    (hf : ∀ ⦃c c'⦄, T c c' → Parallel S (Pair.left (R := R)) Pair.right (f c) (g c'))
    (related : List.Forall₂ T sites sites') :
    Parallel S (List.map (Pair.left (R := R))) (List.map Pair.right) (all f sites)
      (all g sites') := by
  induction related with
  | nil => exact .pure []
  | cons first _ ih =>
    exact .bind (hf first) fun node => .bind ih fun nodes => .pure (node :: nodes)

variable {convert convert' : Converter}
  (hc : ∀ ⦃c c'⦄, P c c' → Parallel S (Pair.left (R := R)) Pair.right (convert c) (convert' c'))
include hc

omit h in
theorem optional_parallel {site site' : Option Site} (related : Option.Rel P site site') :
    Parallel S (Option.map (Pair.left (R := R))) (Option.map Pair.right) (optional convert site)
      (optional convert' site') := by
  cases related with
  | none => exact .pure none
  | some related => exact .bind (hc related) fun node => .pure (some node)

theorem field_parallel (name : String) :
    Parallel S (Pair.left (R := R)) Pair.right (field ctx convert s name)
      (field ctx' convert' s' name) :=
  .bind (ctxField_parallel h name) fun child => hc child.related

theorem optionalField_parallel (name : String) :
    Parallel S (Option.map (Pair.left (R := R))) (Option.map Pair.right)
      (optionalField convert s name) (optionalField convert' s' name) :=
  optional_parallel hc (h.field name)

theorem firstMember_parallel :
    Parallel S (Pair.left (R := R)) Pair.right (firstMember ctx convert s)
      (firstMember ctx' convert' s') :=
  .bind (ctxFirstMember_parallel h) fun child => hc child.related

theorem loopCondition_parallel :
    Parallel S (Pair.left (R := R)) Pair.right (loopCondition ctx convert s)
      (loopCondition ctx' convert' s') := by
  unfold loopCondition
  have related := head?_rel (h.fieldMembers "condition")
  generalize (s.fieldMembers "condition").head? = found,
    (s'.fieldMembers "condition").head? = found' at related ⊢
  cases related with
  | none =>
    rw [h.kind, excerpt_eq h]
    exact .throw rfl
  | some related => exact hc related

include cor

omit h in
theorem inside_parallel (list : Pair Q) :
    Parallel S (List.map (Pair.left (R := R))) (List.map Pair.right)
      (all convert list.left.members) (all convert' list.right.members) :=
  all_parallel hc (cor.alike list.related).members

theorem insideOptional_parallel {name : String} (looks : s.looksAt name = true) :
    Parallel S (List.map (Pair.left (R := R))) (List.map Pair.right)
      (all convert ((s.field? name).toList.flatMap Site.members))
      (all convert' ((s'.field? name).toList.flatMap Site.members)) := by
  have related := h.seen name looks
  generalize s.field? name = found, s'.field? name = found' at related ⊢
  cases related with
  | none => exact all_parallel hc .nil
  | some related =>
    simp only [Option.toList_some, List.flatMap_singleton]
    exact all_parallel hc (cor.alike related).members

theorem variableDeclaration_parallel (looks : s.looksAtMembers = true) (kind : VariableKind) :
    Parallel S (viewed ctx (Pair.left (R := R))) (viewed ctx' Pair.right)
      (variableDeclaration convert s kind) (variableDeclaration convert' s' kind) := by
  have declarators := List.rel_filter (p := fun c => c.kind == "variable_declarator")
    (q := fun c => c.kind == "variable_declarator") ?_ (h.seenMembers looks)
  · exact .bind (all_parallel (fun _ _ related => hc (cor.handOn related)) declarators)
      fun declarations => .made ctx ctx' (.variableDeclaration declarations kind)
  intro c c' related
  show (c.kind == _) = true ↔ (c'.kind == _) = true
  rw [(cor.alike related).kind]

theorem function_parallel (looks : s.looksAt "parameters" = true) (generator : Bool) :
    Parallel S (Function.map (Pair.left (R := R))) (Function.map Pair.right)
      (function ctx convert s generator) (function ctx' convert' s' generator) := by
  refine unless_parallel h (by rw [hasToken_eq cor h]) ?_
  refine .bind (optionalField_parallel h hc "name") fun id => ?_
  refine .bind (ctxField_seen h _ looks) fun parameters => ?_
  refine .bind (inside_parallel cor hc parameters) fun params => ?_
  refine .bind (field_parallel h hc "body") fun body => ?_
  exact .pure (Function.mk id params body generator)

/-! ## Loops over objects, and methods -/

omit h in
theorem headDeclaration_parallel {keyword keyword' left left' : Site} {value value' : Option Site}
    (hk : Q keyword keyword') (hl : Q left left') (hv : Option.Rel P value value') :
    Parallel S (Pair.left (R := R)) Pair.right (headDeclaration ctx convert keyword left value)
      (headDeclaration ctx' convert' keyword' left' value') := by
  have last : P (value.getD left) (value'.getD left') := by
    cases hv with
    | none => exact cor.handOn hl
    | some related => exact related
  refine .bind (variableKind_parallel (cor.alike hk)) fun kind => ?_
  rw [(cor.alike hk).span, line_eq (cor.alike hk), (cor.alike hl).span,
    line_eq (cor.alike hl)]
  refine .bind (cor.registerSpan last _ _ _) fun declaration => ?_
  refine .bind (cor.registerSpan last _ _ _) fun declarator => ?_
  refine .bind (hc (cor.handOn hl)) fun id => ?_
  refine .bind (optional_parallel hc hv) fun init => ?_
  refine .bind (cor.finish declarator (.variableDeclarator id init)) fun node => ?_
  exact cor.finish declaration (.variableDeclaration [node] kind)

theorem loopTarget_parallel (looks : s.looksAt "kind" = true) (target : Pair Q) :
    Parallel S (Pair.left (R := R)) Pair.right (loopTarget ctx convert s target.left)
      (loopTarget ctx' convert' s' target.right) := by
  unfold loopTarget
  have related := h.seen "kind" looks
  generalize s.field? "kind" = found, s'.field? "kind" = found' at related ⊢
  cases related with
  | none => exact hc (cor.handOn target.related)
  | some related => exact headDeclaration_parallel cor hc related target.related (h.field "value")

theorem forInStatement_parallel
    (looks : GrammarKind.ofName? s.kind = some .forInStatement) :
    Parallel S (viewed ctx (Pair.left (R := R))) (viewed ctx' Pair.right)
      (forInStatement ctx convert s) (forInStatement ctx' convert' s') := by
  refine unless_parallel h (by rw [hasToken_eq cor h]) ?_
  refine .bind (ctxField_seen h "left" (Site.looksAt_of looks rfl)) fun target => ?_
  refine .bind (loopTarget_parallel cor h hc (Site.looksAt_of looks rfl) target) fun left => ?_
  refine .bind (field_parallel h hc "right") fun right => ?_
  refine .bind (field_parallel h hc "body") fun body => ?_
  refine .bind (ctxField_seen h "operator" (Site.looksAt_of looks rfl))
    fun operator => ?_
  dsimp only
  rw [name_eq (cor.alike operator.related), h.kind]
  by_cases isIn : ctx'.name operator.right = "in"
  · rw [if_pos isIn, if_pos isIn]
    exact .made ctx ctx' (.forInStatement left right body)
  rw [if_neg isIn, if_neg isIn]
  by_cases isOf : ctx'.name operator.right = "of"
  · rw [if_pos isOf, if_pos isOf]
    exact .made ctx ctx' (.forOfStatement left right body)
  · rw [if_neg isOf, if_neg isOf]
    exact .throw rfl

theorem methodFunction_parallel
    (looks : GrammarKind.ofName? s.kind = some .methodDefinition) :
    Parallel S (Pair.left (R := R)) Pair.right (methodFunction ctx convert s)
      (methodFunction ctx' convert' s') := by
  refine .bind (ctxField_seen h "parameters" (Site.looksAt_of looks rfl))
    fun parameters => ?_
  refine .bind (ctxField_seen h "body" (Site.looksAt_of looks rfl)) fun block => ?_
  have hp := cor.alike parameters.related
  rw [h.kind, hp.span, (cor.alike block.related).span, line_eq hp]
  refine .bind (cor.enter _) fun place => ?_
  refine .bind (inside_parallel cor hc parameters) fun params => ?_
  refine .bind (hc (cor.handOn block.related)) fun body => ?_
  rw [hasToken_eq cor h]
  exact cor.finish place
    (.functionExpression { id := none, params, body, generator := s'.hasToken "*" })

theorem method_parallel (looks : GrammarKind.ofName? s.kind = some .methodDefinition) :
    Parallel S (viewed ctx (Pair.left (R := R))) (viewed ctx' Pair.right) (method ctx convert s)
      (method ctx' convert' s') := by
  refine .bind (refuseModifiers_parallel cor h) fun _ => ?_
  refine .bind (ctxField_seen h "name" (Site.looksAt_of looks rfl)) fun name => ?_
  refine .bind (hc (cor.handOn name.related)) fun key => ?_
  refine .bind (methodFunction_parallel cor h hc looks) fun value => ?_
  rw [hasToken_eq cor h, hasToken_eq cor h, (cor.alike name.related).kind]
  exact .made ctx ctx' (.property key value _ (name.right.kind == "computed_property_name") false _)

/-! ## Objects and arrays -/

omit h hc in
theorem shorthandProperty_parallel (hq : Q s s') :
    Parallel S (Pair.left (R := R)) Pair.right (shorthandProperty ctx s)
      (shorthandProperty ctx' s') := by
  have name := bareIdentifier_parallel cor (cor.alike hq)
  exact .bind (cor.register hq) fun place => .bind name fun key => .bind name fun value =>
    cor.finish place (.property key value .init false true false)

omit h in
theorem shorthandDefault_parallel (hq : Q s s') (member : s.kind = "object_assignment_pattern") :
    Parallel S (Pair.left (R := R)) Pair.right (shorthandDefault ctx convert s)
      (shorthandDefault ctx' convert' s') := by
  have h := cor.alike hq
  have known : GrammarKind.ofName? s.kind = some .objectAssignmentPattern := by rw [member]; rfl
  refine .bind (ctxField_seen h "left" (Site.looksAt_of known rfl)) fun left => ?_
  have hl := cor.alike left.related
  rw [hl.kind]
  by_cases short : left.right.kind = "shorthand_property_identifier_pattern"
  · rw [if_pos short, if_pos short]
    refine .bind (cor.register hq) fun place => ?_
    refine .bind (bareIdentifier_parallel cor hl) fun key => ?_
    refine .bind (registerBare_parallel cor h) fun pattern => ?_
    refine .bind (bareIdentifier_parallel cor hl) fun target => ?_
    refine .bind (field_parallel h hc "right") fun right => ?_
    refine .bind (cor.finish pattern (.assignmentPattern target right)) fun value => ?_
    exact cor.finish place (.property key value .init false true false)
  · rw [if_neg short, if_neg short]
    exact hc (cor.handOn hq)

omit h in
theorem objectMember_parallel (hq : Q s s') :
    Parallel S (Pair.left (R := R)) Pair.right (objectMember ctx convert s)
      (objectMember ctx' convert' s') := by
  unfold objectMember
  rw [(cor.alike hq).kind]
  split
  · exact shorthandProperty_parallel cor hq
  · exact hc (cor.handOn hq)

omit h in
theorem patternMember_parallel (hq : Q s s') :
    Parallel S (Pair.left (R := R)) Pair.right (patternMember ctx convert s)
      (patternMember ctx' convert' s') := by
  have kind := (cor.alike hq).kind
  unfold patternMember
  rw [← kind]
  split
  · exact shorthandProperty_parallel cor hq
  split
  · next member => exact shorthandDefault_parallel cor hc hq member
  · exact hc (cor.handOn hq)

omit h in
theorem elements_parallel (awaiting : Bool) {sites sites' : List Site}
    (related : List.Forall₂ P sites sites') :
    Parallel S (List.map (Option.map (Pair.left (R := R)))) (List.map (Option.map Pair.right))
      (elements convert awaiting sites) (elements convert' awaiting sites') := by
  induction related generalizing awaiting with
  | nil => exact .pure []
  | @cons s s' _ _ first _ ih =>
    obtain ⟨same, kind⟩ := cor.token first
    rw [elements, elements, ← same]
    by_cases named : s.label.named
    · rw [if_pos named, if_pos named]
      exact .bind (hc first) fun node => .bind (ih false) fun nodes => .pure (some node :: nodes)
    rw [if_neg named, if_neg named, ← kind (Bool.eq_false_iff.2 named)]
    by_cases comma : s.kind = ","
    · rw [if_pos comma, if_pos comma]
      refine .bind (ih true) fun nodes => ?_
      cases awaiting with
      | true => exact .pure (none :: nodes)
      | false => exact .pure nodes
    · rw [if_neg comma, if_neg comma]
      exact ih awaiting

/-! ## Expressions -/

theorem binaryExpression_parallel (looks : s.looksAt "operator" = true) :
    Parallel S (viewed ctx (Pair.left (R := R))) (viewed ctx' Pair.right)
      (binaryExpression ctx convert s) (binaryExpression ctx' convert' s') := by
  refine .bind (operatorToken_parallel cor h looks) fun token => ?_
  refine .bind (field_parallel h hc "left") fun left => ?_
  refine .bind (field_parallel h hc "right") fun right => ?_
  dsimp only [id]
  cases LogicalOperator.ofSymbol? token with
  | some operator => exact .made ctx ctx' (.logicalExpression operator left right)
  | none =>
    exact .bind (operator_parallel h token _) fun operator =>
      .made ctx ctx' (.binaryExpression operator left right)

theorem updateExpression_parallel (looks : s.looksAt "operator" = true) :
    Parallel S (viewed ctx (Pair.left (R := R))) (viewed ctx' Pair.right)
      (updateExpression ctx convert s) (updateExpression ctx' convert' s') := by
  refine .bind (ctxField_of_rel h (rel_found (h.seen _ looks))) fun sign => ?_
  refine .bind (ctxField_of_rel h (rel_found (h.field "argument"))) fun target => ?_
  obtain ⟨sign, sign', closely, found, found'⟩ := sign
  obtain ⟨target, target', related, foundTarget, foundTarget'⟩ := target
  dsimp only
  rw [name_eq (cor.alike closely)]
  cases known : UpdateOperator.ofSymbol? (ctx'.name sign') with
  | none =>
    rw [operator, operator, h.kind]
    exact .throw_bind rfl
  | some operator =>
    -- The sign is not empty, so it cannot stand where its operand starts.
    have long : sign.span.start < sign.span.stop := by
      by_contra short
      have empty : ctx'.name sign' = "" := by
        rw [← name_eq (cor.alike closely), BuildContext.name, BuildContext.text,
          ctx.source.slice_of_le (Nat.le_of_not_lt short)]
      have unknown : UpdateOperator.ofSymbol? "" = none := by decide
      rw [empty, unknown] at known
      cases known
    have side : decide (sign.span.start < target.span.start) =
        decide (sign'.span.start < target'.span.start) :=
      decide_eq_decide.2 (h.leading looks found foundTarget found' foundTarget' long)
    rw [side]
    exact .bind (.pure operator) fun operator => .bind (hc related) fun argument =>
      .made ctx ctx' (.updateExpression operator _ argument)

theorem callExpression_parallel (looks : s.looksAt "arguments" = true) :
    Parallel S (viewed ctx (Pair.left (R := R))) (viewed ctx' Pair.right)
      (callExpression ctx convert s) (callExpression ctx' convert' s') := by
  refine .bind (refuseOptionalChain_parallel h) fun _ => ?_
  refine .bind (field_parallel h hc "function") fun callee => ?_
  refine .bind (ctxField_seen h _ looks) fun list => ?_
  refine unless_parallel h (by rw [(cor.alike list.related).kind]) ?_
  exact .bind (inside_parallel cor hc list) fun arguments =>
    .made ctx ctx' (.callExpression callee arguments)

omit cor in
theorem memberExpression_parallel (member : String) (computed : Bool) :
    Parallel S (viewed ctx (Pair.left (R := R))) (viewed ctx' Pair.right)
      (memberExpression ctx convert s member computed)
      (memberExpression ctx' convert' s' member computed) :=
  .bind (refuseOptionalChain_parallel h) fun _ =>
    .bind (field_parallel h hc "object") fun object =>
      .bind (field_parallel h hc member) fun property =>
        .made ctx ctx' (.memberExpression object property computed)

omit cor in
theorem tryStatement_parallel :
    Parallel S (viewed ctx (Pair.left (R := R))) (viewed ctx' Pair.right)
      (tryStatement ctx convert s) (tryStatement ctx' convert' s') := by
  refine .bind (field_parallel h hc "body") fun block => ?_
  refine .bind (optionalField_parallel h hc "handler") fun handler => ?_
  refine .bind (optionalField_parallel h hc "finalizer") fun finalizer => ?_
  cases handler with
  | none => exact .made ctx ctx' (.tryStatement block (.single none) finalizer)
  | some handler => exact .made ctx ctx' (.tryStatement block (.single (some handler)) finalizer)

/-! ## All constructs -/

/-- A construct is converted in parallel if its parts are. -/
theorem construct_parallel {kind : GrammarKind} (hk : GrammarKind.ofName? s.kind = some kind) :
    Parallel S (viewed ctx (Pair.left (R := R))) (viewed ctx' Pair.right)
      (construct ctx convert kind s) (construct ctx' convert' kind s') := by
  cases kind with
  | expressionStatement =>
    exact .bind (firstMember_parallel h hc) fun e => .made ctx ctx' (.expressionStatement e)
  | throwStatement =>
    exact .bind (firstMember_parallel h hc) fun e => .made ctx ctx' (.throwStatement e)
  | returnStatement =>
    exact .bind (optional_parallel hc (h.firstMember)) fun e =>
      .made ctx ctx' (.returnStatement e)
  | yieldExpression =>
    simp only [construct, hasToken_eq cor h]
    exact .bind (optional_parallel hc (h.firstMember)) fun e =>
      .made ctx ctx' (.yieldExpression e _)
  | variableDeclaration =>
    exact variableDeclaration_parallel cor h hc (Site.looksAtMembers_of hk rfl) .var
  | lexicalDeclaration =>
    exact .bind (ctxField_seen h _ (Site.looksAt_of hk rfl)) fun keyword =>
      .bind (variableKind_parallel (cor.alike keyword.related)) fun kind =>
        variableDeclaration_parallel cor h hc (Site.looksAtMembers_of hk rfl) kind
  | variableDeclarator =>
    exact .bind (field_parallel h hc "name") fun id =>
      .bind (optionalField_parallel h hc "value") fun init =>
        .made ctx ctx' (.variableDeclarator id init)
  | statementBlock =>
    exact .bind (all_parallel hc h.members) fun body => .made ctx ctx' (.blockStatement body)
  | sequenceExpression =>
    exact .bind (all_parallel hc h.members) fun expressions =>
      .made ctx ctx' (.sequenceExpression expressions)
  | ifStatement =>
    exact .bind (field_parallel h hc "condition") fun test =>
      .bind (field_parallel h hc "consequence") fun consequent =>
        .bind (optionalField_parallel h hc "alternative") fun alternate =>
          .made ctx ctx' (.ifStatement test consequent alternate)
  | switchStatement =>
    exact .bind (field_parallel h hc "value") fun discriminant =>
      .bind (ctxField_seen h _ (Site.looksAt_of hk rfl)) fun body =>
        .bind (inside_parallel cor hc body) fun cases =>
          .made ctx ctx' (.switchStatement discriminant cases)
  | switchCase =>
    exact .bind (field_parallel h hc "value") fun test =>
      .bind (all_parallel hc (h.fieldMembers "body")) fun consequent =>
        .made ctx ctx' (.switchCase (some test) consequent)
  | switchDefault =>
    exact .bind (all_parallel hc (h.fieldMembers "body")) fun consequent =>
      .made ctx ctx' (.switchCase none consequent)
  | forStatement =>
    exact .bind (field_parallel h hc "initializer") fun init =>
      .bind (loopCondition_parallel h hc) fun test =>
        .bind (optionalField_parallel h hc "increment") fun update =>
          .bind (field_parallel h hc "body") fun body =>
            .made ctx ctx' (.forStatement (some init) (some test) update body)
  | forInStatement => exact forInStatement_parallel cor h hc hk
  | whileStatement =>
    exact .bind (field_parallel h hc "condition") fun test =>
      .bind (field_parallel h hc "body") fun body => .made ctx ctx' (.whileStatement test body)
  | doStatement =>
    exact .bind (field_parallel h hc "body") fun body =>
      .bind (field_parallel h hc "condition") fun test =>
        .made ctx ctx' (.doWhileStatement body test)
  | tryStatement => exact tryStatement_parallel h hc
  | catchClause =>
    exact .bind (optionalField_parallel h hc "parameter") fun param =>
      .bind (field_parallel h hc "body") fun body => .made ctx ctx' (.catchClause param body)
  | withStatement =>
    exact .bind (field_parallel h hc "object") fun object =>
      .bind (field_parallel h hc "body") fun body => .made ctx ctx' (.withStatement object body)
  | breakStatement =>
    exact .bind (optionalField_parallel h hc "label") fun label =>
      .made ctx ctx' (.breakStatement label)
  | continueStatement =>
    exact .bind (optionalField_parallel h hc "label") fun label =>
      .made ctx ctx' (.continueStatement label)
  | emptyStatement => exact .made ctx ctx' .emptyStatement
  | labeledStatement =>
    exact .bind (field_parallel h hc "label") fun label =>
      .bind (field_parallel h hc "body") fun body =>
        .made ctx ctx' (.labeledStatement label body)
  | functionDeclaration | generatorFunctionDeclaration =>
    exact .bind (function_parallel cor h hc (Site.looksAt_of hk rfl) _) fun f =>
      .made ctx ctx' (.functionDeclaration f)
  | functionExpression | generatorFunction =>
    exact .bind (function_parallel cor h hc (Site.looksAt_of hk rfl) _) fun f =>
      .made ctx ctx' (.functionExpression f)
  | keywordLiteral => exact keyword_parallel h
  | identifier | propertyIdentifier | shorthandPropertyIdentifier
  | shorthandPropertyIdentifierPattern | statementIdentifier | undefined =>
    simp only [construct, name_eq h]
    exact .made ctx ctx' (.identifier (ctx'.name s'))
  | number => exact number_parallel h
  | string =>
    simp only [construct, text_eq h, name_eq h]
    exact .made ctx ctx' (.literal (.string _) (ctx'.name s'))
  | regex =>
    simp only [construct, name_eq h]
    exact .made ctx ctx' (.literal (.string (ctx'.name s')) (ctx'.name s'))
  | array =>
    exact .bind (elements_parallel cor hc true h.tokens) fun nodes =>
      .made ctx ctx' (.arrayExpression nodes)
  | arrayPattern =>
    exact .bind (elements_parallel cor hc true h.tokens) fun nodes =>
      .made ctx ctx' (.arrayPattern nodes)
  | object =>
    have members := h.seenMembers (Site.looksAtMembers_of hk rfl)
    exact .bind (all_parallel (fun _ _ => objectMember_parallel cor hc) members) fun nodes =>
      .made ctx ctx' (.objectExpression nodes)
  | objectPattern =>
    have members := h.seenMembers (Site.looksAtMembers_of hk rfl)
    exact .bind (all_parallel (fun _ _ => patternMember_parallel cor hc) members) fun nodes =>
      .made ctx ctx' (.objectPattern nodes)
  | pair | pairPattern =>
    simp only [construct, pair]
    refine .bind (ctxField_seen h _ (Site.looksAt_of hk rfl)) fun name => ?_
    rw [(cor.alike name.related).kind]
    exact .bind (hc (cor.handOn name.related)) fun key =>
      .bind (field_parallel h hc "value") fun value =>
        .made ctx ctx' (.property key value .init _ false false)
  | methodDefinition => exact method_parallel cor h hc hk
  | assignmentPattern | objectAssignmentPattern =>
    exact .bind (field_parallel h hc "left") fun left =>
      .bind (field_parallel h hc "right") fun right =>
        .made ctx ctx' (.assignmentPattern left right)
  | assignmentExpression =>
    exact .bind (field_parallel h hc "left") fun left =>
      .bind (field_parallel h hc "right") fun right =>
        .made ctx ctx' (.assignmentExpression .assign left right)
  | augmentedAssignmentExpression =>
    exact .bind (operatorToken_parallel cor h (Site.looksAt_of hk rfl)) fun token =>
      .bind (operator_parallel h token _) fun operator =>
        .bind (field_parallel h hc "left") fun left =>
          .bind (field_parallel h hc "right") fun right =>
            .made ctx ctx' (.assignmentExpression operator left right)
  | binaryExpression => exact binaryExpression_parallel cor h hc (Site.looksAt_of hk rfl)
  | unaryExpression =>
    exact .bind (operatorToken_parallel cor h (Site.looksAt_of hk rfl)) fun token =>
      .bind (operator_parallel h token _) fun operator =>
        .bind (field_parallel h hc "argument") fun argument =>
          .made ctx ctx' (.unaryExpression operator argument)
  | updateExpression => exact updateExpression_parallel cor h hc (Site.looksAt_of hk rfl)
  | ternaryExpression =>
    exact .bind (field_parallel h hc "condition") fun test =>
      .bind (field_parallel h hc "consequence") fun consequent =>
        .bind (field_parallel h hc "alternative") fun alternate =>
          .made ctx ctx' (.conditionalExpression test consequent alternate)
  | callExpression => exact callExpression_parallel cor h hc (Site.looksAt_of hk rfl)
  | newExpression =>
    exact .bind (field_parallel h hc "constructor") fun callee =>
      .bind (insideOptional_parallel cor h hc (Site.looksAt_of hk rfl)) fun arguments =>
        .made ctx ctx' (.newExpression callee arguments)
  | memberExpression => exact memberExpression_parallel h hc "property" false
  | subscriptExpression => exact memberExpression_parallel h hc "index" true
  | unsupported =>
    simp only [construct, h.kind]
    exact refuse_parallel h _
  | program | hashBangLine | comment | htmlComment | elseClause | finallyClause
  | parenthesizedExpression | computedPropertyName | switchBody | formalParameters | arguments
  | lexicalPart =>
    simp only [construct, h.kind, excerpt_eq h]
    exact .throw rfl

theorem step_parallel (entered : Parallel S shift id (register ctx s) (register ctx' s')) :
    Parallel S (Pair.left (R := R)) Pair.right (step ctx convert s) (step ctx' convert' s') := by
  have excerpt := excerpt_eq h
  unfold step
  rw [← h.kind, excerpt]
  cases hk : GrammarKind.ofName? s.kind with
  | none => exact .throw rfl
  | some kind =>
    dsimp only
    by_cases transparent : kind.isTransparent
    · rw [if_pos transparent, if_pos transparent]
      exact firstMember_parallel h hc
    · rw [if_neg transparent, if_neg transparent]
      exact .bind entered fun place =>
        .bind (construct_parallel cor h hc hk) fun c => cor.finish place c

end

/-! ## Whole subtrees -/

/-- A site in wrappers is converted as what is left when they are opened. -/
theorem upTo_unwraps (ctx : BuildContext) {s c : Site} (h : s.Unwraps c) {n : Nat}
    (hn : s.tree.height ≤ n) :
    ∃ m, c.tree.height ≤ m ∧ m ≤ n ∧ upTo ctx n s = upTo ctx m c := by
  induction h generalizing n with
  | here s => exact ⟨n, hn, Nat.le_refl n, rfl⟩
  | @wrapper s c d kind known transparent first inner ih =>
    cases n with
    | zero => exact absurd s.height_pos (by omega)
    | succ n =>
      have child : c ∈ s.children :=
        s.firstMember?_sublist.subset (by rw [first]; exact List.mem_singleton_self c)
      have lower := ParseTree.Site.height_lt_of_mem_children child
      obtain ⟨m, hm, le, same⟩ := ih (n := n) (by omega)
      refine ⟨m, hm, Nat.le_succ_of_le le, ?_⟩
      rw [upTo, step, known]
      dsimp only
      rw [if_pos transparent, firstMember, BuildContext.firstMember, first]
      exact same

section

variable {ctx ctx' : BuildContext} {S : BuildState → BuildState → Prop} {shift : Nat → Nat}
  {R : Node → Node → Prop} {Q P : Site → Site → Prop}
  (cor : Correspondence ctx ctx' S shift R Q P)
  {s s' : Site}
include cor

/-- Sites that look alike down to the bottom, but for wrappers, are converted in parallel. The two
bounds on levels go down together, but one may be higher than the other. -/
theorem upTo_parallel {m n : Nat} (h : P s s') (hm : s.tree.height ≤ m) (hn : s'.tree.height ≤ n) :
    Parallel S (Pair.left (R := R)) Pair.right (upTo ctx m s) (upTo ctx' n s') := by
  induction m generalizing n s s' with
  | zero => exact absurd s.height_pos (by omega)
  | succ m ih =>
    obtain ⟨i, h, unwraps⟩ := cor.inner h
    obtain ⟨n, hn, -, same⟩ := upTo_unwraps ctx' unwraps hn
    rw [same]
    cases n with
    | zero => exact absurd i.height_pos (by omega)
    | succ n =>
      -- Below the two sites the bounds hold again, so related sites keep to them.
      let Within (T : Site → Site → Prop) : Site → Site → Prop := fun c c' =>
        T c c' ∧ c.tree.height ≤ m ∧ c'.tree.height ≤ n
      have alike {s s' : Site} (h : Q s s') (hm : s.tree.height ≤ m + 1)
          (hn : s'.tree.height ≤ n + 1) : 
            s.Alike ctx.source ctx'.source (Within Q) (Within P) s' := by
        have lower {T : Site → Site → Prop} {c c' : Site}
            (related : T c c' ∧ c ∈ s.children ∧ c' ∈ s'.children) : Within T c c' := by
          have lower := ParseTree.Site.height_lt_of_mem_children related.2.1
          have lower' := ParseTree.Site.height_lt_of_mem_children related.2.2
          exact ⟨related.1, by omega, by omega⟩
        exact (cor.alike h).among.mono (fun _ _ => lower) fun _ _ => lower
      have within : Correspondence ctx ctx' S shift R (Within Q) (Within P) :=
        { cor with
          alike := fun s s' h => alike h.1 (by omega) (by omega)
          handOn := fun s s' h => ⟨cor.handOn h.1, h.2⟩
          inner := fun s s' h => by
            obtain ⟨c, closely, unwraps⟩ := cor.inner h.1
            exact ⟨c, ⟨closely, h.2.1, Nat.le_trans unwraps.height_le h.2.2⟩, unwraps⟩
          token := fun s s' h => cor.token h.1
          register := fun s s' h => cor.register h.1
          registerSpan := fun s s' h => cor.registerSpan h.1 }
      exact step_parallel within (alike h hm hn) (fun c c' h => ih h.1 h.2.1 h.2.2)
        (cor.register h)

theorem node_parallel (h : P s s') :
    Parallel S (Pair.left (R := R)) Pair.right (node ctx s) (node ctx' s') :=
  upTo_parallel cor h (Nat.le_refl _) (Nat.le_refl _)

theorem convertBody_parallel {root root' : ParseTree}
    (h : Q (ParseTree.rootSite root) (ParseTree.rootSite root')) :
    Parallel S (List.map (Pair.left (R := R))) (List.map Pair.right) (ctx.convertBody root)
      (ctx'.convertBody root') :=
  all_parallel (fun _ _ => node_parallel cor) (cor.alike h).members

end

end Conversion

end ScriptTree
