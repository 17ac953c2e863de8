import ScriptTree.Build.Session
import ScriptTree.Proofs.Converts

/-!
# Each construct follows its plan

The parts of a construct that has been converted are those of `plan`, entered and converted in that
order. Main result `build_converts`: a build that succeeds is a run of `Converts` over the members
of the program.
-/
namespace ScriptTree

namespace Conversion

open ParseTree (Site)

variable {ctx : BuildContext} {convert : Converter} (hc : Follows ctx convert .convert) {s : Site}
  {st st₁ st' : BuildState}

/-! ## Members of objects and patterns -/

theorem shorthandProperty_converts {n : Node} (h : shorthandProperty ctx s st = .ok n st') :
    Converts ctx [.shorthandProperty s] st [n] st' := by
  simp only [shorthandProperty, bind_ok, bareIdentifier_run] at h
  obtain ⟨place, _, hr, key, _, hk, value, _, hv, hf⟩ := h
  cases hr
  cases hk
  cases hv
  exact finish_converts rfl (bareName_converts ctx s _) hf trivial

/-! ## Leaves -/

theorem keyword_ok {c : Construct Node} (h : keyword ctx s st = .ok c st') :
    c.shorthandKey? = none ∧ (Registration.documented s).Reads ctx c ∧ c.children = [] ∧
      st = st' := by
  have cases : (∃ c, keyword ctx s = pure c ∧ c.shorthandKey? = none ∧
      (Registration.documented s).Reads ctx c ∧ c.children = []) ∨
        ∃ e, keyword ctx s = throw e := by
    unfold keyword
    split
    case h_6 => exact .inr ⟨_, rfl⟩
    case h_4 | h_5 => exact .inl ⟨_, rfl, rfl, trivial, rfl⟩
    all_goals exact .inl ⟨_, rfl, rfl, rfl, rfl⟩
  obtain ⟨c', hk, hkey, reads, hnone⟩ | ⟨e, hk⟩ := cases
  · rw [hk] at h
    obtain ⟨rfl, rfl⟩ := pure_ok.1 h
    exact ⟨hkey, reads, hnone, rfl⟩
  · rw [hk] at h
    exact (throw_ok.1 h).elim

theorem number_ok {c : Construct Node} (h : number ctx s st = .ok c st') :
    c.shorthandKey? = none ∧ (Registration.documented s).Reads ctx c ∧ c.children = [] ∧
      st = st' := by
  unfold number at h
  cases hn : Numeral.read? (ctx.text s) with
  | some value =>
    rw [hn] at h
    obtain ⟨rfl, rfl⟩ := pure_ok.1 h
    exact ⟨rfl, ⟨s, rfl, rfl, hn⟩, rfl, rfl⟩
  | none =>
    rw [hn] at h
    exact (refuse_ok.1 h).elim

include hc

theorem shorthandDefault_converts {left : Site} {n : Node} (hl : s.field? "left" = some left)
    (hs : left.kind = "shorthand_property_identifier_pattern")
    (h : shorthandDefault ctx convert s st = .ok n st') :
    Converts ctx [.shorthandDefault s left] st [n] st' := by
  simp only [shorthandDefault, bind_ok, ctx_field_ok, hl] at h
  obtain ⟨_, _, ⟨hl', rfl⟩, h⟩ := h
  cases hl'
  rw [if_pos hs] at h
  simp only [bind_ok, bareIdentifier_run] at h
  obtain ⟨place, _, hr, key, _, hk, pattern, _, hp, target, _, ht, right, _, hright, value, _, hv,
    hf⟩ := h
  cases hr
  cases hk
  cases hp
  cases ht
  refine finish_converts rfl ?_ hf trivial
  refine finish_converts rfl ?_ hv trivial
  exact (bareName_converts ctx left _).append (field_converts hc hright)

theorem objectMember_follows : Follows ctx (objectMember ctx convert) .objectMember := by
  intro s st n st' h
  unfold objectMember at h
  unfold Plan.objectMember
  by_cases hs : s.kind = "shorthand_property_identifier"
  · rw [if_pos hs] at h ⊢
    exact shorthandProperty_converts h
  · rw [if_neg hs] at h ⊢
    exact hc h

theorem patternMember_follows : Follows ctx (patternMember ctx convert) .patternMember := by
  intro s st n st' h
  unfold patternMember at h
  unfold Plan.patternMember
  by_cases hs : s.kind = "shorthand_property_identifier_pattern"
  · rw [if_pos hs] at h ⊢
    exact shorthandProperty_converts h
  rw [if_neg hs] at h ⊢
  by_cases hd : s.kind = "object_assignment_pattern"
  · rw [if_pos hd] at h ⊢
    cases hl : s.field? "left" with
    | none =>
      simp only [shorthandDefault, bind_ok, ctx_field_ok, hl] at h
      obtain ⟨_, _, ⟨hn, _⟩, _⟩ := h
      cases hn
    | some left =>
      by_cases hk : left.kind = "shorthand_property_identifier_pattern"
      · simp only [hk, if_true]
        exact shorthandDefault_converts hc hl hk h
      · simp only [hk, if_false]
        simp only [shorthandDefault, bind_ok, ctx_field_ok, hl] at h
        obtain ⟨_, _, ⟨hl', rfl⟩, h⟩ := h
        cases hl'
        rw [if_neg hk] at h
        exact hc h
  · rw [if_neg hd] at h ⊢
    exact hc h

/-! ## Loops over objects, and methods -/

theorem headDeclaration_converts {keyword left : Site} {value : Option Site} {n : Node}
    (h : headDeclaration ctx convert keyword left value st = .ok n st') :
    Converts ctx [.headDeclaration keyword left value] st [n] st' := by
  simp only [headDeclaration, bind_ok] at h
  obtain ⟨kind, _, hk, declaration, _, hd, declarator, _, hr, id, _, hid, init, _, hinit, inner, _,
    hi, hf⟩ := h
  obtain rfl := variableKind_ok hk
  cases hd
  cases hr
  refine finish_converts rfl ?_ hf trivial
  refine finish_converts rfl ?_ hi trivial
  exact (hc hid).append (optional_converts hc hinit)

theorem loopTarget_converts {left : Site} {n : Node}
    (h : loopTarget ctx convert s left st = .ok n st') :
    Converts ctx [.headTarget s left] st [n] st' := by
  unfold loopTarget at h
  unfold Plan.headTarget
  cases hk : s.field? "kind" with
  | some keyword =>
    rw [hk] at h
    exact headDeclaration_converts hc h
  | none =>
    rw [hk] at h
    exact hc h

theorem forInStatement_converts {c : Construct Node}
    (h : forInStatement ctx convert s st = .ok c st') :
    c.shorthandKey? = none ∧ (Registration.documented s).Reads ctx c ∧
      Converts ctx (plan s .forInStatement) st c.children st' := by
  unfold forInStatement at h
  obtain ⟨-, h⟩ := unless_refused.1 h
  simp only [bind_ok, ctx_field_ok] at h
  obtain ⟨target, _, ⟨ht, rfl⟩, left, _, hleft, right, _, hright, body, st₁, hbody, operator, _,
    ⟨_, rfl⟩, h⟩ := h
  have parts : Converts ctx (plan s .forInStatement) st [left, right, body] st₁ := by
    rw [plan, ht, List.map_append]
    exact (loopTarget_converts hc hleft).append
      ((field_converts hc hright).append (field_converts hc hbody))
  by_cases hin : ctx.name operator = "in"
  · rw [if_pos hin] at h
    obtain ⟨rfl, rfl⟩ := pure_ok.1 h
    exact ⟨rfl, trivial, parts⟩
  rw [if_neg hin] at h
  by_cases hof : ctx.name operator = "of"
  · rw [if_pos hof] at h
    obtain ⟨rfl, rfl⟩ := pure_ok.1 h
    exact ⟨rfl, trivial, parts⟩
  · rw [if_neg hof] at h
    exact (throw_ok.1 h).elim

theorem methodFunction_converts {n : Node} (h : methodFunction ctx convert s st = .ok n st') :
    ∃ parameters body, s.field? "parameters" = some parameters ∧ s.field? "body" = some body ∧
      Converts ctx [.methodFunction s parameters body] st [n] st' := by
  simp only [methodFunction, bind_ok, ctx_field_ok] at h
  obtain ⟨parameters, _, ⟨hp, rfl⟩, body, _, ⟨hb, rfl⟩, place, _, hr, params, _, hparams, block, _,
    hblock, hf⟩ := h
  cases hr
  refine ⟨parameters, body, hp, hb, finish_converts rfl ?_ hf trivial⟩
  simp only [List.map_append]
  exact (all_converts hc hparams).append (hc hblock)

theorem method_converts {c : Construct Node} (h : method ctx convert s st = .ok c st') :
    c.shorthandKey? = none ∧ (Registration.documented s).Reads ctx c ∧
      Converts ctx (plan s .methodDefinition) st c.children st' := by
  simp only [method, bind_ok, ctx_field_ok, pure_ok] at h
  obtain ⟨_, _, hm, name, _, ⟨hn, rfl⟩, key, _, hkey, value, _, hvalue, rfl, rfl⟩ := h
  obtain rfl := refuseModifiers_ok hm
  obtain ⟨parameters, body, hp, hb, hfun⟩ := methodFunction_converts hc hvalue
  refine ⟨rfl, trivial, ?_⟩
  simp only [plan, ParseTree.Site.reading, hn, hp, hb]
  exact Converts.append (hc hkey) hfun

/-! ## Constructs whose parts are read from fields -/

omit hc in
theorem readings_cons {field : String × FieldUse} {reads : List (String × FieldUse)}
    {xs ys : List Node} (h : Converts ctx ((s.reading field).map .convert) st xs st₁)
    (h' : Converts ctx ((reads.flatMap s.reading).map .convert) st₁ ys st') :
    Converts ctx (((field :: reads).flatMap s.reading).map .convert) st (xs ++ ys) st' := by
  rw [List.flatMap_cons, List.map_append]
  exact h.append h'

omit hc in
theorem readings_last {field : String × FieldUse} {xs : List Node}
    (h : Converts ctx ((s.reading field).map .convert) st xs st') :
    Converts ctx (([field].flatMap s.reading).map .convert) st xs st' := by
  rw [List.flatMap_singleton]
  exact h

theorem inside_converts {name : String} {child : Site} {nodes : List Node}
    (hf : s.field? name = some child) (h : all convert child.members st = .ok nodes st') :
    Converts ctx ((s.reading (name, .inside)).map .convert) st nodes st' := by
  simp only [ParseTree.Site.reading, hf, Option.toList_some, List.flatMap_singleton]
  exact all_converts hc h

theorem insideOptional_converts {name : String} {nodes : List Node}
    (h : all convert ((s.field? name).toList.flatMap Site.members) st = .ok nodes st') :
    Converts ctx ((s.reading (name, .inside)).map .convert) st nodes st' :=
  all_converts hc h

theorem members_converts {name : String} {nodes : List Node}
    (h : all convert (s.fieldMembers name) st = .ok nodes st') :
    Converts ctx ((s.reading (name, .members)).map .convert) st nodes st' :=
  all_converts hc h

theorem loopCondition_converts {n : Node} (h : loopCondition ctx convert s st = .ok n st') :
    Converts ctx ((s.reading ("condition", .firstMember)).map .convert) st [n] st' := by
  unfold loopCondition at h
  cases hm : (s.fieldMembers "condition").head? with
  | some condition =>
    rw [hm] at h
    rw [ParseTree.Site.reading, hm]
    exact hc h
  | none =>
    rw [hm] at h
    exact (throw_ok.1 h).elim

theorem function_converts {generator : Bool} {f : Function Node}
    (h : function ctx convert s generator st = .ok f st') :
    Converts ctx
      (([("name", .first), ("parameters", .inside), ("body", .first)].flatMap s.reading).map
        .convert) st f.parts st' := by
  unfold function at h
  obtain ⟨-, h⟩ := unless_refused.1 h
  simp only [bind_ok, ctx_field_ok, pure_ok] at h
  obtain ⟨id, _, hid, parameters, _, ⟨hp, rfl⟩, params, _, hparams, body, _, hbody, rfl, rfl⟩ := h
  simp only [Function.parts, List.append_assoc]
  exact readings_cons (optionalField_converts hc hid) (readings_cons (inside_converts hc hp hparams)
    (readings_last (field_converts hc hbody)))

theorem construct_converts {kind : GrammarKind} {c : Construct Node}
    (h : construct ctx convert kind s st = .ok c st') :
    c.shorthandKey? = none ∧ (Registration.documented s).Reads ctx c ∧
      Converts ctx (plan s kind) st c.children st' := by
  cases kind with
  | expressionStatement | throwStatement =>
    simp only [construct, bind_ok, pure_ok] at h
    obtain ⟨e, _, he, rfl, rfl⟩ := h
    exact ⟨rfl, trivial, firstMember_converts hc he⟩
  | returnStatement | yieldExpression =>
    simp only [construct, bind_ok, pure_ok] at h
    obtain ⟨e, _, he, rfl, rfl⟩ := h
    exact ⟨rfl, trivial, optional_converts hc he⟩
  | variableDeclaration =>
    simp only [construct, variableDeclaration, bind_ok, pure_ok] at h
    obtain ⟨declarations, _, hd, rfl, rfl⟩ := h
    exact ⟨rfl, trivial, all_converts hc hd⟩
  | lexicalDeclaration =>
    simp only [construct, variableDeclaration, bind_ok, pure_ok, ctx_field_ok] at h
    obtain ⟨keyword, _, ⟨_, rfl⟩, kind, _, hk, declarations, _, hd, rfl, rfl⟩ := h
    obtain rfl := variableKind_ok hk
    exact ⟨rfl, trivial, all_converts hc hd⟩
  | statementBlock | sequenceExpression =>
    simp only [construct, bind_ok, pure_ok] at h
    obtain ⟨nodes, _, hn, rfl, rfl⟩ := h
    exact ⟨rfl, trivial, all_converts hc hn⟩
  | array | arrayPattern =>
    simp only [construct, bind_ok, pure_ok] at h
    obtain ⟨nodes, _, hn, rfl, rfl⟩ := h
    exact ⟨rfl, trivial, elements_converts hc hn⟩
  | object =>
    simp only [construct, bind_ok, pure_ok] at h
    obtain ⟨nodes, _, hn, rfl, rfl⟩ := h
    exact ⟨rfl, trivial, all_converts (objectMember_follows hc) hn⟩
  | objectPattern =>
    simp only [construct, bind_ok, pure_ok] at h
    obtain ⟨nodes, _, hn, rfl, rfl⟩ := h
    exact ⟨rfl, trivial, all_converts (patternMember_follows hc) hn⟩
  | forInStatement => exact forInStatement_converts hc h
  | methodDefinition => exact method_converts hc h
  | variableDeclarator =>
    simp only [construct, bind_ok, pure_ok] at h
    obtain ⟨id, _, hi, init, _, hv, rfl, rfl⟩ := h
    exact ⟨rfl, trivial, (readings_cons (field_converts hc hi)
      (readings_last (optionalField_converts hc hv)) :)⟩
  | ifStatement =>
    simp only [construct, bind_ok, pure_ok] at h
    obtain ⟨test, _, ht, consequent, _, hcons, alternate, _, ha, rfl, rfl⟩ := h
    exact ⟨rfl, trivial, (readings_cons (field_converts hc ht) (readings_cons (field_converts hc hcons)
      (readings_last (optionalField_converts hc ha))) :)⟩
  | switchStatement =>
    simp only [construct, switchStatement, bind_ok, pure_ok, ctx_field_ok] at h
    obtain ⟨discriminant, _, hd, body, _, ⟨hb, rfl⟩, cases, _, hcases, rfl, rfl⟩ := h
    exact ⟨rfl, trivial, (readings_cons (field_converts hc hd)
      (readings_last (inside_converts hc hb hcases)) :)⟩
  | switchCase =>
    simp only [construct, bind_ok, pure_ok] at h
    obtain ⟨test, _, ht, consequent, _, hcons, rfl, rfl⟩ := h
    exact ⟨rfl, trivial, (readings_cons (field_converts hc ht)
      (readings_last (members_converts hc hcons)) :)⟩
  | switchDefault =>
    simp only [construct, bind_ok, pure_ok] at h
    obtain ⟨consequent, _, hcons, rfl, rfl⟩ := h
    exact ⟨rfl, trivial, (readings_last (members_converts hc hcons) :)⟩
  | forStatement =>
    simp only [construct, forStatement, bind_ok, pure_ok] at h
    obtain ⟨init, _, hi, test, _, ht, update, _, hu, body, _, hb, rfl, rfl⟩ := h
    exact ⟨rfl, trivial, (readings_cons (field_converts hc hi) (readings_cons (loopCondition_converts hc ht)
      (readings_cons (optionalField_converts hc hu) (readings_last (field_converts hc hb)))) :)⟩
  | whileStatement | withStatement | labeledStatement | assignmentPattern | objectAssignmentPattern
  | assignmentExpression =>
    simp only [construct, bind_ok, pure_ok] at h
    obtain ⟨first, _, hf, second, _, hs, rfl, rfl⟩ := h
    exact ⟨rfl, trivial, (readings_cons (field_converts hc hf) (readings_last (field_converts hc hs)) :)⟩
  | doStatement =>
    simp only [construct, bind_ok, pure_ok] at h
    obtain ⟨body, _, hb, test, _, ht, rfl, rfl⟩ := h
    exact ⟨rfl, trivial, (readings_cons (field_converts hc hb) (readings_last (field_converts hc ht)) :)⟩
  | tryStatement =>
    simp only [construct, tryStatement, bind_ok, pure_ok] at h
    obtain ⟨block, _, hb, handler, _, hh, finalizer, _, hf, rfl, rfl⟩ := h
    refine ⟨rfl, trivial, ?_⟩
    have parts := readings_cons (field_converts hc hb) (readings_cons (optionalField_converts hc hh)
      (readings_last (optionalField_converts hc hf)))
    cases ctx.style <;> exact parts
  | catchClause =>
    simp only [construct, bind_ok, pure_ok] at h
    obtain ⟨param, _, hp, body, _, hb, rfl, rfl⟩ := h
    exact ⟨rfl, trivial, readings_cons (optionalField_converts hc hp)
      (readings_last (field_converts hc hb))⟩
  | breakStatement | continueStatement =>
    simp only [construct, bind_ok, pure_ok] at h
    obtain ⟨label, _, hl, rfl, rfl⟩ := h
    exact ⟨rfl, trivial, readings_last (optionalField_converts hc hl)⟩
  | functionDeclaration | generatorFunctionDeclaration | functionExpression | generatorFunction =>
    simp only [construct, bind_ok, pure_ok] at h
    obtain ⟨f, _, hf, rfl, rfl⟩ := h
    exact ⟨rfl, trivial, function_converts hc hf⟩
  | pair | pairPattern =>
    simp only [construct, pair, bind_ok, pure_ok, ctx_field_ok] at h
    obtain ⟨name, _, ⟨hn, rfl⟩, key, _, hk, value, _, hv, rfl, rfl⟩ := h
    exact ⟨rfl, trivial, (readings_cons (child_converts hc hn hk) (readings_last (field_converts hc hv)) :)⟩
  | augmentedAssignmentExpression =>
    simp only [construct, augmentedAssignment, bind_ok, pure_ok, operator_ok] at h
    obtain ⟨token, _, ht, operator, _, ⟨_, rfl⟩, left, _, hl, right, _, hr, rfl, rfl⟩ := h
    obtain rfl := operatorToken_ok ht
    exact ⟨rfl, trivial, (readings_cons (field_converts hc hl) (readings_last (field_converts hc hr)) :)⟩
  | binaryExpression =>
    simp only [construct, binaryExpression, bind_ok] at h
    obtain ⟨token, _, ht, left, _, hl, right, st₁, hr, h⟩ := h
    obtain rfl := operatorToken_ok ht
    have parts := readings_cons (field_converts hc hl) (readings_last (field_converts hc hr))
    cases hlogical : LogicalOperator.ofSymbol? token with
    | some operator =>
      rw [hlogical] at h
      obtain ⟨rfl, rfl⟩ := pure_ok.1 h
      exact ⟨rfl, trivial, parts⟩
    | none =>
      simp only [hlogical, bind_ok, operator_ok, pure_ok] at h
      obtain ⟨operator, _, ⟨_, rfl⟩, rfl, rfl⟩ := h
      exact ⟨rfl, trivial, parts⟩
  | unaryExpression =>
    simp only [construct, unaryExpression, bind_ok, pure_ok, operator_ok] at h
    obtain ⟨token, _, ht, operator, _, ⟨_, rfl⟩, argument, _, ha, rfl, rfl⟩ := h
    obtain rfl := operatorToken_ok ht
    exact ⟨rfl, trivial, readings_last (field_converts hc ha)⟩
  | updateExpression =>
    simp only [construct, updateExpression, bind_ok, pure_ok, ctx_field_ok, operator_ok] at h
    obtain ⟨sign, _, ⟨_, rfl⟩, target, _, ⟨ht, rfl⟩, operator, _, ⟨_, rfl⟩, argument, _, ha, rfl,
      rfl⟩ := h
    exact ⟨rfl, trivial, readings_last (child_converts hc ht ha)⟩
  | ternaryExpression =>
    simp only [construct, bind_ok, pure_ok] at h
    obtain ⟨test, _, ht, consequent, _, hcons, alternate, _, ha, rfl, rfl⟩ := h
    exact ⟨rfl, trivial, (readings_cons (field_converts hc ht) (readings_cons (field_converts hc hcons)
      (readings_last (field_converts hc ha))) :)⟩
  | callExpression =>
    simp only [construct, callExpression, bind_ok, ctx_field_ok] at h
    obtain ⟨_, _, hr, callee, _, hcallee, list, _, ⟨hl, rfl⟩, h⟩ := h
    obtain rfl := refuseOptionalChain_ok hr
    obtain ⟨-, h⟩ := unless_refused.1 h
    simp only [bind_ok, pure_ok] at h
    obtain ⟨arguments, _, hargs, rfl, rfl⟩ := h
    exact ⟨rfl, trivial, (readings_cons (field_converts hc hcallee)
      (readings_last (inside_converts hc hl hargs)) :)⟩
  | newExpression =>
    simp only [construct, newExpression, bind_ok, pure_ok] at h
    obtain ⟨callee, _, hcallee, arguments, _, hargs, rfl, rfl⟩ := h
    exact ⟨rfl, trivial, (readings_cons (field_converts hc hcallee)
      (readings_last (insideOptional_converts hc hargs)) :)⟩
  | memberExpression | subscriptExpression =>
    simp only [construct, memberExpression, bind_ok, pure_ok] at h
    obtain ⟨_, _, hr, object, _, ho, property, _, hp, rfl, rfl⟩ := h
    obtain rfl := refuseOptionalChain_ok hr
    exact ⟨rfl, trivial, (readings_cons (field_converts hc ho) (readings_last (field_converts hc hp)) :)⟩
  | keywordLiteral =>
    obtain ⟨hk, reads, hn, rfl⟩ := keyword_ok h
    exact ⟨hk, reads, hn ▸ .nil⟩
  | number =>
    obtain ⟨hk, reads, hn, rfl⟩ := number_ok h
    exact ⟨hk, reads, hn ▸ .nil⟩
  | emptyStatement =>
    simp only [construct, pure_ok] at h
    obtain ⟨rfl, rfl⟩ := h
    exact ⟨rfl, trivial, .nil⟩
  | identifier | propertyIdentifier | shorthandPropertyIdentifier
  | shorthandPropertyIdentifierPattern | statementIdentifier | undefined | string | regex =>
    simp only [construct, pure_ok] at h
    obtain ⟨rfl, rfl⟩ := h
    exact ⟨rfl, ⟨s, rfl, rfl⟩, .nil⟩
  | unsupported => exact (refuse_ok.1 h).elim
  | program | hashBangLine | comment | htmlComment | elseClause | finallyClause
  | parenthesizedExpression | computedPropertyName | switchBody | formalParameters | arguments
  | lexicalPart => exact (throw_ok.1 h).elim

/-! ## Whole conversions -/

omit hc in
/-- The construct of a kind that cannot be converted is refused. -/
theorem construct_convertible {kind : GrammarKind} {c : Construct Node}
    (h : construct ctx convert kind s st = .ok c st') : kind.isConvertible := by
  cases kind with
  | unsupported => exact (refuse_ok.1 h).elim
  | program | hashBangLine | comment | htmlComment | switchBody | formalParameters | arguments
  | lexicalPart => exact (throw_ok.1 h).elim
  | _ => rfl

omit hc in
theorem step_convertible {n : Node} (h : step ctx convert s st = .ok n st') : s.IsConvertible := by
  unfold step at h
  cases hk : GrammarKind.ofName? s.kind with
  | none =>
    rw [hk] at h
    exact (throw_ok.1 h).elim
  | some kind =>
    refine ⟨kind, hk, ?_⟩
    simp only [hk] at h
    by_cases transparent : kind.isTransparent
    · cases kind <;> first | rfl | cases transparent
    · simp only [transparent, Bool.false_eq_true, if_false, bind_ok] at h
      obtain ⟨_, _, _, _, _, hcons, _⟩ := h
      exact construct_convertible hcons

theorem step_converts {n : Node} (h : step ctx convert s st = .ok n st') :
    Converts ctx (frame s) st [n] st' := by
  unfold step at h
  unfold frame
  cases hk : GrammarKind.ofName? s.kind with
  | none =>
    rw [hk] at h
    exact (throw_ok.1 h).elim
  | some kind =>
    simp only [hk] at h
    by_cases transparent : kind.isTransparent
    · simp only [transparent, if_true] at h ⊢
      exact firstMember_converts hc h
    · simp only [transparent, Bool.false_eq_true, if_false, bind_ok] at h ⊢
      obtain ⟨place, _, hr, c, _, hcons, hf⟩ := h
      cases hr
      obtain ⟨hkey, reads, parts⟩ := construct_converts hc hcons
      exact finish_converts hkey parts hf reads

omit hc in
theorem upTo_follows (ctx : BuildContext) (levels : Nat) :
    Follows ctx (upTo ctx levels) .convert := by
  induction levels with
  | zero =>
    intro s st n st' h
    exact (throw_ok.1 h).elim
  | succ levels ih =>
    intro s st n st' h
    exact .convert (step_convertible h) (step_converts ih h) .nil

omit hc in
theorem node_follows (ctx : BuildContext) : Follows ctx (node ctx) .convert :=
  fun s _ _ _ h => upTo_follows ctx s.tree.height h

end Conversion

namespace BuildContext

variable {ctx : BuildContext} {root : ParseTree} {p : Program}

/-- A build that succeeds converts the members of an unmarked tree one after another. -/
theorem build_converts (h : (ctx.build root).result = .ok p) :
    root.fault? = none ∧
      Converts ctx ((ParseTree.rootSite root).members.map .convert) (ctx.recorded root .empty)
        p.body (ctx.build root).state ∧
      p = ctx.assemble root p.body (ctx.build root).state.comments := by
  unfold build run at h ⊢
  cases hf : root.fault? with
  | some fault => simp [hf] at h
  | none =>
    simp only [hf] at h ⊢
    cases hb : ctx.convertBody root (ctx.recorded root .empty) with
    | error e st => simp [hb] at h
    | ok body st =>
      simp only [hb] at h ⊢
      cases h
      exact ⟨trivial, Conversion.all_converts (Conversion.node_follows ctx) hb, rfl⟩

end BuildContext

theorem loop_builds :
    ∃ p, ((BuildSession.start .single).build loopSource loopTree).1 = .ok p := by
  obtain ⟨p, hp, -⟩ := exists_ok_of_map (f := fun p : Program => p.body.length) (b := 1)
    (r := ((BuildSession.start .single).build loopSource loopTree).1) (by decide +kernel)
  exact ⟨p, hp⟩

end ScriptTree
