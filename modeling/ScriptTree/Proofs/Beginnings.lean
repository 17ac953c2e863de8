import ScriptTree.Proofs.Constructs
import ScriptTree.Proofs.Levels

/-!
# Where conversions begin

The conversion of a part begins in the state that all conversions before it have left behind.
`Begun` lists the sites that are converted in the course of a build, each with that state. What is
`Inherited` along a plan, by what comes after a conversion and by the parts of a node, holds
wherever a conversion begins if it holds before the first statement (`Begun.holds`): if two
converters differ only where it does not hold, no construct can tell them apart
(`construct_agree`).
-/
namespace ScriptTree

open ParseTree (Site)

namespace Conversion

variable {α β : Type}

/-! ## The conversions of a build -/

/-- A computation comes to the conversion of a site in a state: with a converter that differs there
and nowhere else its outcome can be another one. -/
def ComesTo (run : Converter → Conversion α) (convert : Converter) (st : BuildState) (c : Site)
    (before : BuildState) : Prop :=
  ∃ other : Converter, (∀ d t, d ≠ c ∨ t ≠ before → other d t = convert d t) ∧
    run other st ≠ run convert st

/-- The sites that are converted during a build, each with the state in which its conversion begins:
the statements of an unmarked tree, and the parts that the conversion of such a site comes to. -/
inductive Begun (ctx : BuildContext) (root : ParseTree) : Site → BuildState → Prop where
  | statement {c : Site} {before : BuildState} (unmarked : root.fault? = none)
      (comes : ComesTo (all · (ParseTree.rootSite root).members) (node ctx)
        (ctx.recorded root .empty) c before) : Begun ctx root c before
  | part {s c : Site} {st before : BuildState} (whole : Begun ctx root s st)
      (comes : ComesTo (step ctx · s) (node ctx) st c before) : Begun ctx root c before

/-! ## Conversions that agree -/

/-- What is passed on, of plans that are still to be carried out and of the state before them: to
the plans in front, to those after them, and to what a site or a node is made from. -/
structure Inherited (ctx : BuildContext) (W : List Plan → BuildState → Prop) : Prop where
  front : ∀ ⦃as bs st⦄, W (as ++ bs) st → W as st
  rest : ∀ ⦃as bs st nodes st'⦄, W (as ++ bs) st → Converts ctx as st nodes st' → W bs st'
  frame : ∀ ⦃s st⦄, W [.convert s] st → W (frame s) st
  parts : ∀ ⦃entry key parts st⦄, W [.node entry key parts] st →
    W parts ((entry :: key.toList.map .bare).foldl (·.entered ctx) st)

/-- Two computations do the same from every state that goes with some plans. -/
def Agree (W : List Plan → BuildState → Prop) (plans : List Plan) (x y : Conversion α) : Prop :=
  ∀ ⦃st⦄, W plans st → x st = y st

/-- Two computations that agree on some plans, and the first carries them out if it succeeds. -/
structure CarryOut (ctx : BuildContext) (W : List Plan → BuildState → Prop) (plans : List Plan)
    (x y : Conversion α) : Prop where
  agree : Agree W plans x y
  made : ∀ ⦃st a st'⦄, x st = .ok a st' → ∃ nodes, Converts ctx plans st nodes st'

namespace Agree

variable {ctx : BuildContext} {W : List Plan → BuildState → Prop} {as bs : List Plan}
  {x y : Conversion α} {f g : α → Conversion β}

/-- A step that makes nothing, and leaves the state as it was. -/
theorem after (kept : ∀ ⦃st a st'⦄, x st = .ok a st' → st = st')
    (hf : ∀ ⦃a st⦄, x st = .ok a st → Agree W as (f a) (g a)) : Agree W as (x >>= f) (x >>= g) := by
  intro st w
  show EStateM.bind x f st = EStateM.bind x g st
  unfold EStateM.bind
  cases hx : x st with
  | ok a st' =>
    obtain rfl := kept hx
    exact hf hx w
  | error e st' => rfl

/-- What comes after all plans is the same on both sides. -/
theorem last {f : α → Conversion β} (h : CarryOut ctx W as x y) :
    Agree W as (x >>= f) (y >>= f) := by
  intro st w
  show EStateM.bind x f st = EStateM.bind y f st
  rw [EStateM.bind, EStateM.bind, h.agree w]

/-- Both go on, unless both refuse for the same reason. -/
theorem orRefuse {p : Prop} [Decidable p] {feature : String} {s : Site}
    {refused refused' : PUnit → Conversion α} (h : Agree W as x y) :
    Agree W as (if p then ctx.refuse feature s >>= refused else x)
      (if p then ctx.refuse feature s >>= refused' else y) := by
  by_cases hp : p
  · rw [if_pos hp, if_pos hp]
    exact fun _ _ => rfl
  · rw [if_neg hp, if_neg hp]
    exact h

variable (inh : Inherited ctx W)
include inh

theorem bind (h : CarryOut ctx W as x y) (hf : ∀ a, Agree W bs (f a) (g a)) :
    Agree W (as ++ bs) (x >>= f) (y >>= g) := by
  intro st w
  have same := h.agree (inh.front w)
  show EStateM.bind x f st = EStateM.bind y g st
  rw [EStateM.bind, EStateM.bind, ← same]
  cases hx : x st with
  | ok a st' =>
    obtain ⟨nodes, made⟩ := h.made hx
    exact hf a (inh.rest w made)
  | error e st' => rfl

/-- A node is entered before its parts are converted. -/
theorem enter {entry : Registration} {enter : Conversion Nat} {f g : Nat → Conversion β}
    (entered : ∀ st, enter st = .ok st.table.size (st.entered ctx entry))
    (hf : ∀ place, Agree W as (f place) (g place)) :
    Agree W [.node entry none as] (enter >>= f) (enter >>= g) := by
  intro st w
  show EStateM.bind enter f st = EStateM.bind enter g st
  rw [EStateM.bind, EStateM.bind, entered]
  exact hf _ (inh.parts w)

/-- The key of a shorthand property is entered and finished right after the property. -/
theorem enterKeyed {entry : Registration} {key : Site} {enter : Conversion Nat}
    {f g : Nat → Node → Conversion β}
    (entered : ∀ st, enter st = .ok st.table.size (st.entered ctx entry))
    (hf : ∀ place node, Agree W as (f place node) (g place node)) :
    Agree W [.node entry (some key) as] (enter >>= fun place => bareIdentifier ctx key >>= f place)
      (enter >>= fun place => bareIdentifier ctx key >>= g place) := by
  intro st w
  show EStateM.bind enter (fun place => EStateM.bind (bareIdentifier ctx key) (f place)) st =
    EStateM.bind enter (fun place => EStateM.bind (bareIdentifier ctx key) (g place)) st
  simp only [EStateM.bind, entered, bareIdentifier_run]
  exact hf _ _ (inh.parts w)

end Agree

/-! ## Parts -/

section

variable {ctx : BuildContext} {W : List Plan → BuildState → Prop} (inh : Inherited ctx W)
  {convert other : Converter} (hc : Follows ctx convert .convert)
  (ho : ∀ c, Agree W [.convert c] (convert c) (other c)) {s : Site}

section

include hc ho

theorem convert_carryOut (c : Site) : CarryOut ctx W [.convert c] (convert c) (other c) :=
  ⟨ho c, fun _ _ _ h => ⟨_, hc h⟩⟩

theorem optional_carryOut (target : Option Site) :
    CarryOut ctx W (target.toList.map .convert) (optional convert target)
      (optional other target) := by
  refine ⟨?_, fun _ _ _ h => ⟨_, optional_converts hc h⟩⟩
  cases target with
  | none => exact fun _ _ => rfl
  | some target => exact .last (convert_carryOut hc ho target)

theorem firstMember_carryOut :
    CarryOut ctx W (s.firstMember?.toList.map .convert) (firstMember ctx convert s)
      (firstMember ctx other s) := by
  refine ⟨.after (fun _ _ _ h => (ctx_firstMember_ok.1 h).2) fun child _ h => ?_,
    fun _ _ _ h => ⟨_, firstMember_converts hc h⟩⟩
  rw [(ctx_firstMember_ok.1 h).1]
  exact ho child

theorem child_carryOut {name : String} {child : Site} (hf : s.field? name = some child) :
    CarryOut ctx W ((s.reading (name, .first)).map .convert) (convert child) (other child) := by
  rw [ParseTree.Site.reading, hf]
  exact convert_carryOut hc ho child

theorem field_carryOut (name : String) :
    CarryOut ctx W ((s.reading (name, .first)).map .convert) (field ctx convert s name)
      (field ctx other s name) :=
  ⟨.after (fun _ _ _ h => (ctx_field_ok.1 h).2) fun _ _ h =>
    (child_carryOut hc ho (ctx_field_ok.1 h).1).agree, fun _ _ _ h => ⟨_, field_converts hc h⟩⟩

theorem optionalField_carryOut (name : String) :
    CarryOut ctx W ((s.reading (name, .first)).map .convert) (optionalField convert s name)
      (optionalField other s name) :=
  optional_carryOut hc ho (s.field? name)

theorem loopCondition_carryOut :
    CarryOut ctx W ((s.reading ("condition", .firstMember)).map .convert)
      (loopCondition ctx convert s) (loopCondition ctx other s) := by
  refine ⟨?_, fun _ _ _ h => ⟨_, loopCondition_converts hc h⟩⟩
  unfold loopCondition
  dsimp only [ParseTree.Site.reading]
  cases (s.fieldMembers "condition").head? with
  | none => exact fun _ _ => rfl
  | some condition => exact ho condition

end

include inh

theorem all_carryOut {f g : Converter} {plan : Site → Plan} (hf : Follows ctx f plan)
    (same : ∀ c, Agree W [plan c] (f c) (g c)) (sites : List Site) :
    CarryOut ctx W (sites.map plan) (all f sites) (all g sites) := by
  refine ⟨?_, fun _ _ _ h => ⟨_, all_converts hf h⟩⟩
  induction sites with
  | nil => exact fun _ _ => rfl
  | cons c sites ih =>
    have rest : CarryOut ctx W (sites.map plan) (all f sites) (all g sites) :=
      ⟨ih, fun _ _ _ h => ⟨_, all_converts hf h⟩⟩
    exact .bind inh ⟨same c, fun _ _ _ h => ⟨_, hf h⟩⟩ fun node => .last rest

omit inh in
theorem bareName_carryOut (c : Site) :
    CarryOut ctx W [.node (.bare c) none []] (bareIdentifier ctx c) (bareIdentifier ctx c) := by
  refine ⟨fun _ _ => rfl, fun st _ _ h => ?_⟩
  rw [bareIdentifier_run] at h
  cases h
  exact ⟨_, bareName_converts ctx c st⟩

/-- Fields are read one after another. -/
theorem Agree.read {field : String × FieldUse} {reads : List (String × FieldUse)}
    {x y : Conversion α} {f g : α → Conversion β}
    (h : CarryOut ctx W ((s.reading field).map .convert) x y)
    (hf : ∀ a, Agree W ((reads.flatMap s.reading).map .convert) (f a) (g a)) :
    Agree W (((field :: reads).flatMap s.reading).map .convert) (x >>= f) (y >>= g) := by
  rw [List.flatMap_cons, List.map_append]
  exact .bind inh h hf

omit inh in
theorem Agree.readLast {field : String × FieldUse} {x y : Conversion α} {f : α → Conversion β}
    (h : CarryOut ctx W ((s.reading field).map .convert) x y) :
    Agree W (([field].flatMap s.reading).map .convert) (x >>= f) (y >>= f) := by
  rw [List.flatMap_singleton]
  exact .last h

include hc ho

theorem sites_carryOut (sites : List Site) :
    CarryOut ctx W (sites.map .convert) (all convert sites) (all other sites) :=
  all_carryOut inh hc ho sites

theorem inside_carryOut {name : String} {child : Site} (hf : s.field? name = some child) :
    CarryOut ctx W ((s.reading (name, .inside)).map .convert) (all convert child.members)
      (all other child.members) := by
  simp only [ParseTree.Site.reading, hf, Option.toList_some, List.flatMap_singleton]
  exact sites_carryOut inh hc ho child.members

theorem elements_carryOut (awaiting : Bool) (sites : List Site) :
    CarryOut ctx W ((sites.filter fun c => c.label.named).map .convert)
      (elements convert awaiting sites) (elements other awaiting sites) := by
  refine ⟨?_, fun _ _ _ h => ⟨_, elements_converts hc h⟩⟩
  induction sites generalizing awaiting with
  | nil => exact fun _ _ => rfl
  | cons c sites ih =>
    have rest (awaiting : Bool) :
        CarryOut ctx W ((sites.filter fun c => c.label.named).map .convert)
          (elements convert awaiting sites) (elements other awaiting sites) :=
      ⟨ih awaiting, fun _ _ _ h => ⟨_, elements_converts hc h⟩⟩
    rw [elements, elements]
    by_cases named : c.label.named
    · rw [if_pos named, if_pos named]
      simp only [List.filter_cons, named, if_true]
      exact .bind inh (convert_carryOut hc ho c) fun node => .last (rest false)
    rw [if_neg named, if_neg named]
    simp only [List.filter_cons, named, Bool.false_eq_true, if_false]
    by_cases comma : c.kind = ","
    · rw [if_pos comma, if_pos comma]
      exact .last (rest true)
    · rw [if_neg comma, if_neg comma]
      exact ih awaiting

/-! ## Members, loops over objects, and methods -/

omit hc inh in
theorem objectMember_agree (c : Site) :
    Agree W [.objectMember c] (objectMember ctx convert c) (objectMember ctx other c) := by
  unfold objectMember Plan.objectMember
  by_cases short : c.kind = "shorthand_property_identifier"
  · rw [if_pos short, if_pos short, if_pos short]
    exact fun _ _ => rfl
  · rw [if_neg short, if_neg short, if_neg short]
    exact ho c

theorem patternMember_agree (c : Site) :
    Agree W [.patternMember c] (patternMember ctx convert c) (patternMember ctx other c) := by
  unfold patternMember Plan.patternMember
  by_cases short : c.kind = "shorthand_property_identifier_pattern"
  · rw [if_pos short, if_pos short, if_pos short]
    exact fun _ _ => rfl
  rw [if_neg short, if_neg short, if_neg short]
  by_cases assigned : c.kind = "object_assignment_pattern"
  · rw [if_pos assigned, if_pos assigned, if_pos assigned]
    refine .after (fun _ _ _ h => (ctx_field_ok.1 h).2) fun left _ h => ?_
    rw [(ctx_field_ok.1 h).1]
    dsimp only
    by_cases short : left.kind = "shorthand_property_identifier_pattern"
    · rw [if_pos short, if_pos short, if_pos short]
      refine .enterKeyed inh (fun _ => rfl) fun place key => ?_
      refine .enter inh (fun _ => rfl) fun pattern => ?_
      refine .bind inh (bareName_carryOut left) fun target => ?_
      exact .last (field_carryOut hc ho "right")
    · rw [if_neg short, if_neg short, if_neg short]
      exact ho c
  · rw [if_neg assigned, if_neg assigned, if_neg assigned]
    exact ho c

theorem headDeclaration_agree (keyword left : Site) (value : Option Site) :
    Agree W [.headDeclaration keyword left value] (headDeclaration ctx convert keyword left value)
      (headDeclaration ctx other keyword left value) := by
  refine .after (fun _ _ _ => variableKind_ok) fun kind _ _ => ?_
  refine .enter inh (fun _ => rfl) fun declaration => ?_
  refine .enter inh (fun _ => rfl) fun declarator => ?_
  exact .bind inh (convert_carryOut hc ho left) fun id => .last (optional_carryOut hc ho value)

theorem loopTarget_carryOut (target : Site) :
    CarryOut ctx W [.headTarget s target] (loopTarget ctx convert s target)
      (loopTarget ctx other s target) := by
  refine ⟨?_, fun _ _ _ h => ⟨_, loopTarget_converts hc h⟩⟩
  unfold loopTarget Plan.headTarget
  cases s.field? "kind" with
  | none => exact ho target
  | some keyword => exact headDeclaration_agree inh hc ho keyword target _

theorem forInStatement_agree :
    Agree W (plan s .forInStatement) (forInStatement ctx convert s)
      (forInStatement ctx other s) := by
  refine .orRefuse (.after (fun _ _ _ h => (ctx_field_ok.1 h).2) fun target _ h => ?_)
  rw [plan, (ctx_field_ok.1 h).1, List.map_append]
  exact .bind inh (loopTarget_carryOut inh hc ho target) fun left =>
    .bind inh (field_carryOut hc ho "right") fun right => .last (field_carryOut hc ho "body")

theorem methodFunction_carryOut :
    CarryOut ctx W
      (match s.field? "parameters", s.field? "body" with
        | some parameters, some body => [.methodFunction s parameters body]
        | _, _ => [])
      (methodFunction ctx convert s) (methodFunction ctx other s) := by
  refine ⟨.after (fun _ _ _ h => (ctx_field_ok.1 h).2) fun parameters _ hp =>
    .after (fun _ _ _ h => (ctx_field_ok.1 h).2) fun body _ hb => ?_, fun _ _ _ h => ?_⟩
  · rw [(ctx_field_ok.1 hp).1, (ctx_field_ok.1 hb).1]
    refine .enter inh (fun _ => rfl) fun place => ?_
    rw [List.map_append]
    exact .bind inh (sites_carryOut inh hc ho parameters.members) fun params =>
      .last (convert_carryOut hc ho body)
  · obtain ⟨parameters, body, hp, hb, made⟩ := methodFunction_converts hc h
    rw [hp, hb]
    exact ⟨_, made⟩

theorem method_agree :
    Agree W (plan s .methodDefinition) (method ctx convert s) (method ctx other s) := by
  refine .after (fun _ _ _ => refuseModifiers_ok) fun _ _ _ => ?_
  refine .after (fun _ _ _ h => (ctx_field_ok.1 h).2) fun name _ h => ?_
  exact .bind inh (child_carryOut hc ho (ctx_field_ok.1 h).1) fun key =>
    .last (methodFunction_carryOut inh hc ho)

/-! ## All constructs -/

theorem function_carryOut (generator : Bool) :
    CarryOut ctx W
      (([("name", .first), ("parameters", .inside), ("body", .first)].flatMap s.reading).map
        .convert) (function ctx convert s generator) (function ctx other s generator) := by
  refine ⟨?_, fun _ _ _ h => ⟨_, function_converts hc h⟩⟩
  refine .orRefuse (.read inh (optionalField_carryOut hc ho "name") fun id => ?_)
  refine .after (fun _ _ _ h => (ctx_field_ok.1 h).2) fun parameters _ h => ?_
  exact .read inh (inside_carryOut inh hc ho (ctx_field_ok.1 h).1) fun params =>
    .readLast (field_carryOut hc ho "body")

/-- Two converters that differ only where the property does not hold make the same construct. -/
theorem construct_agree (kind : GrammarKind) :
    Agree W (plan s kind) (construct ctx convert kind s) (construct ctx other kind s) := by
  have required := fun name => field_carryOut (s := s) hc ho name
  have optional := fun name => optionalField_carryOut (s := s) hc ho name
  cases kind with
  | expressionStatement | throwStatement => exact .last (firstMember_carryOut hc ho)
  | returnStatement | yieldExpression => exact .last (optional_carryOut hc ho s.firstMember?)
  | variableDeclaration => exact .last (sites_carryOut inh hc ho _)
  | lexicalDeclaration =>
    exact .after (fun _ _ _ h => (ctx_field_ok.1 h).2) fun keyword _ _ =>
      .after (fun _ _ _ => variableKind_ok) fun kind _ _ => .last (sites_carryOut inh hc ho _)
  | statementBlock | sequenceExpression => exact .last (sites_carryOut inh hc ho s.members)
  | array | arrayPattern => exact .last (elements_carryOut inh hc ho true s.tokens)
  | object =>
    exact .last (all_carryOut inh (objectMember_follows hc) (objectMember_agree ho) s.members)
  | objectPattern =>
    exact .last
      (all_carryOut inh (patternMember_follows hc) (patternMember_agree inh hc ho) s.members)
  | forInStatement => exact forInStatement_agree inh hc ho
  | methodDefinition => exact method_agree inh hc ho
  | variableDeclarator =>
    exact .read inh (required "name") fun id => .readLast (optional "value")
  | ifStatement =>
    exact .read inh (required "condition") fun test => .read inh (required "consequence")
      fun consequent => .readLast (optional "alternative")
  | switchStatement =>
    refine .read inh (required "value") fun discriminant => ?_
    exact .after (fun _ _ _ h => (ctx_field_ok.1 h).2) fun body _ h =>
      .readLast (inside_carryOut inh hc ho (ctx_field_ok.1 h).1)
  | switchCase =>
    exact .read inh (required "value") fun test => .readLast (sites_carryOut inh hc ho _)
  | switchDefault => exact .readLast (sites_carryOut inh hc ho _)
  | forStatement =>
    exact .read inh (required "initializer") fun init => .read inh (loopCondition_carryOut hc ho)
      fun test => .read inh (optional "increment") fun update => .readLast (required "body")
  | whileStatement => exact .read inh (required "condition") fun test => .readLast (required "body")
  | doStatement => exact .read inh (required "body") fun body => .readLast (required "condition")
  | tryStatement =>
    exact .read inh (required "body") fun block => .read inh (optional "handler") fun handler =>
      .readLast (optional "finalizer")
  | catchClause =>
    exact .read inh (optional "parameter") fun param => .readLast (required "body")
  | withStatement => exact .read inh (required "object") fun object => .readLast (required "body")
  | breakStatement | continueStatement => exact .readLast (optional "label")
  | labeledStatement => exact .read inh (required "label") fun label => .readLast (required "body")
  | functionDeclaration | generatorFunctionDeclaration | functionExpression | generatorFunction =>
    exact .last (function_carryOut inh hc ho _)
  | pair | pairPattern =>
    exact .after (fun _ _ _ h => (ctx_field_ok.1 h).2) fun name _ h =>
      .read inh (child_carryOut hc ho (ctx_field_ok.1 h).1) fun key => .readLast (required "value")
  | assignmentPattern | objectAssignmentPattern | assignmentExpression =>
    exact .read inh (required "left") fun left => .readLast (required "right")
  | augmentedAssignmentExpression =>
    exact .after (fun _ _ _ => operatorToken_ok) fun token _ _ =>
      .after (fun _ _ _ h => (operator_ok.1 h).2) fun operator _ _ =>
        .read inh (required "left") fun left => .readLast (required "right")
  | binaryExpression =>
    exact .after (fun _ _ _ => operatorToken_ok) fun token _ _ =>
      .read inh (required "left") fun left => .readLast (required "right")
  | unaryExpression =>
    exact .after (fun _ _ _ => operatorToken_ok) fun token _ _ =>
      .after (fun _ _ _ h => (operator_ok.1 h).2) fun operator _ _ =>
        .readLast (required "argument")
  | updateExpression =>
    exact .after (fun _ _ _ h => (ctx_field_ok.1 h).2) fun sign _ _ =>
      .after (fun _ _ _ h => (ctx_field_ok.1 h).2) fun target _ h =>
        .after (fun _ _ _ h => (operator_ok.1 h).2) fun operator _ _ =>
          .readLast (child_carryOut hc ho (ctx_field_ok.1 h).1)
  | ternaryExpression =>
    exact .read inh (required "condition") fun test => .read inh (required "consequence")
      fun consequent => .readLast (required "alternative")
  | callExpression =>
    refine .after (fun _ _ _ => refuseOptionalChain_ok) fun _ _ _ => ?_
    refine .read inh (required "function") fun callee => ?_
    exact .after (fun _ _ _ h => (ctx_field_ok.1 h).2) fun list _ h =>
      .orRefuse (.readLast (inside_carryOut inh hc ho (ctx_field_ok.1 h).1))
  | newExpression =>
    exact .read inh (required "constructor") fun callee => .readLast (sites_carryOut inh hc ho _)
  | memberExpression =>
    exact .after (fun _ _ _ => refuseOptionalChain_ok) fun _ _ _ =>
      .read inh (required "object") fun object => .readLast (required "property")
  | subscriptExpression =>
    exact .after (fun _ _ _ => refuseOptionalChain_ok) fun _ _ _ =>
      .read inh (required "object") fun object => .readLast (required "index")
  | _ => exact fun _ _ => rfl

theorem step_agree (s : Site) : Agree W [.convert s] (step ctx convert s) (step ctx other s) := by
  intro st w
  have w := inh.frame w
  unfold step
  unfold frame at w
  cases hk : GrammarKind.ofName? s.kind with
  | none => rfl
  | some kind =>
    simp only [hk] at w ⊢
    by_cases transparent : kind.isTransparent
    · simp only [transparent, if_true] at w ⊢
      exact (firstMember_carryOut hc ho).agree w
    · simp only [transparent, Bool.false_eq_true, if_false] at w ⊢
      have made : CarryOut ctx W (plan s kind) (construct ctx convert kind s)
          (construct ctx other kind s) :=
        ⟨construct_agree inh hc ho kind, fun _ _ _ h => ⟨_, (construct_converts hc h).2.2⟩⟩
      have entered : ∀ st, register ctx s st = .ok st.table.size (st.entered ctx (.documented s)) :=
        fun _ => rfl
      exact Agree.enter inh entered (fun place => .last made) w

end

/-! ## What holds wherever a conversion begins -/

section

variable {ctx : BuildContext} {W : List Plan → BuildState → Prop} (inh : Inherited ctx W)
  {run : Converter → Conversion α} {st before : BuildState} {c : Site}

/-- If converters that agree where the property holds are the same to a computation, then the
property holds where the computation comes to a conversion. -/
theorem ComesTo.holds (comes : ComesTo run (node ctx) st c before)
    (agree : ∀ other : Converter, (∀ d, Agree W [.convert d] (node ctx d) (other d)) →
      run (node ctx) st = run other st) : W [.convert c] before := by
  obtain ⟨other, same, different⟩ := comes
  by_contra fails
  refine different (agree other fun d t w => (same d t ?_).symm).symm
  by_contra here
  obtain ⟨rfl, rfl⟩ : d = c ∧ t = before := by
    rw [not_or, not_not, not_not] at here
    exact here
  exact fails w

include inh

/-- What is inherited holds wherever a conversion begins. -/
theorem Begun.holds {root : ParseTree}
    (start : W ((ParseTree.rootSite root).members.map .convert) (ctx.recorded root .empty))
    (h : Begun ctx root c before) : W [.convert c] before := by
  induction h with
  | statement _ comes =>
    exact comes.holds fun other same =>
      (sites_carryOut inh (node_follows ctx) same _).agree start
  | part _ comes ih =>
    exact comes.holds fun other same => step_agree inh (node_follows ctx) same _ ih

end

/-! ## Conversions that begin -/

section

variable {ctx : BuildContext} {root : ParseTree} {run : Converter → Conversion α}
  {convert : Converter} {st before : BuildState} {s c : Site}

/-- A computation that passes on the error of a conversion comes to this conversion. -/
theorem ComesTo.of_fails (fails : ∀ (other : Converter) (e : BuildError),
      (∀ d t, d ≠ c ∨ t ≠ before → other d t = convert d t) → other c before = .error e before →
        ∃ st', run other st = .error e st') : ComesTo run convert st c before := by
  classical
  let failing (e : BuildError) : Converter := fun d t =>
    if d = c ∧ t = before then .error e before else convert d t
  have elsewhere (e : BuildError) (d : Site) (t : BuildState) (h : d ≠ c ∨ t ≠ before) :
      failing e d t = convert d t :=
    if_neg (not_and_or.2 h)
  have here (e : BuildError) : failing e c before = .error e before := if_pos ⟨rfl, rfl⟩
  by_contra never
  -- The computation would have to end with each of two errors.
  have same (e : BuildError) : run (failing e) st = run convert st := by
    by_contra different
    exact never ⟨failing e, elsewhere e, different⟩
  obtain ⟨st₁, unknown⟩ := fails _ (.unknownKind "" "") (elsewhere _) (here _)
  obtain ⟨st₂, misplaced⟩ := fails _ (.misplaced "" "") (elsewhere _) (here _)
  rw [same] at unknown misplaced
  cases unknown.symm.trans misplaced

/-- Converters that agree on some sites convert them to the same nodes. -/
theorem all_congr {f g : Converter} {sites : List Site} (same : ∀ d ∈ sites, f d = g d) :
    all f sites = all g sites := by
  induction sites with
  | nil => rfl
  | cons d sites ih =>
    rw [all, all, same d List.mem_cons_self, ih fun d hd => same d (List.mem_cons_of_mem _ hd)]

theorem all_append (convert : Converter) (done sites : List Site) :
    all convert (done ++ sites) = do
      let nodes ← all convert done
      let more ← all convert sites
      return nodes ++ more := by
  induction done with
  | nil =>
    rw [List.nil_append, all, pure_bind]
    exact (bind_pure _).symm
  | cons d done ih =>
    rw [List.cons_append, all, all, ih]
    simp only [bind_assoc, pure_bind, List.cons_append]

/-- When the statements in front have been converted, the conversion of the next one begins. -/
theorem begun_statement (distinct : (root.preorder.map fun t => t.label.id).Nodup)
    (unmarked : root.fault? = none) {done rest : List Site}
    (members : (ParseTree.rootSite root).members = done ++ c :: rest) {nodes : List Node}
    (converted : all (node ctx) done (ctx.recorded root .empty) = .ok nodes before) :
    Begun ctx root c before := by
  refine .statement unmarked (.of_fails fun other e same failing => ⟨before, ?_⟩)
  have apart : (done ++ c :: rest).Nodup :=
    members ▸ (Site.members_nodup distinct : (ParseTree.rootSite root).members.Nodup)
  have fresh : c ∉ done := fun h =>
    (List.nodup_append.1 apart).2.2 c h c List.mem_cons_self rfl
  have front : all other done = all (node ctx) done := all_congr fun d hd =>
    funext fun t => same d t (.inl fun h => fresh (h ▸ hd))
  rw [members, all_append, front, all]
  exact bind_error.2 (.inr ⟨nodes, before, converted,
    bind_error.2 (.inl (bind_error.2 (.inl failing)))⟩)

/-- The conversion of the expression in a statement begins right after the statement is entered. -/
theorem begun_expression (whole : Begun ctx root s st)
    (kind : GrammarKind.ofName? s.kind = some .expressionStatement)
    (first : s.firstMember? = some c) : Begun ctx root c (st.entered ctx (.documented s)) := by
  refine .part whole (.of_fails fun other e _ failing => ⟨st.entered ctx (.documented s), ?_⟩)
  have converted : firstMember ctx other s (st.entered ctx (.documented s)) =
      .error e (st.entered ctx (.documented s)) :=
    bind_error.2 (.inr ⟨c, _, ctx_firstMember_ok.2 ⟨first, rfl⟩, failing⟩)
  rw [step, kind]
  exact bind_error.2 (.inr ⟨st.table.size, _, rfl,
    bind_error.2 (.inl (bind_error.2 (.inl converted)))⟩)

end

end Conversion

end ScriptTree
