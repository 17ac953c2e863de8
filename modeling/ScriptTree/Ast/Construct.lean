import ScriptTree.Ast.Operator
import ScriptTree.Number.Binary64

/-!
# Language constructs

The constructs of the standard syntax tree, over any type of part. `Construct.parts` lists the
direct parts in source order; `Construct.children` leaves out the key of a shorthand property, which
is the same piece of source as its value. `Construct.map` rebuilds a construct over other parts.
-/
namespace ScriptTree

/-- The value of a literal; a regular expression has its own text as value. -/
inductive LiteralValue where
  | null
  | boolean (value : Bool)
  | number (value : Binary64)
  | string (value : String)
  deriving DecidableEq, Repr

/-- How the handler of a `try` statement is represented: by itself, or as a list. -/
inductive CatchStyle where
  | single
  | list
  deriving DecidableEq, Repr

namespace CatchStyle

/-- The name of a style. -/
def name : CatchStyle → String
  | single => "single"
  | list => "list"

/-- The style with a name. -/
def ofName? (s : String) : Option CatchStyle :=
  [single, list].find? (·.name == s)

end CatchStyle

/-- The handler of a `try` statement in one of the two styles. -/
inductive CatchHandlers (ν : Type) where
  | single (handler : Option ν)
  | list (handlers : List ν)
  deriving DecidableEq, Repr

/-- A function. Default values and rest parameters are not part of the language level, so a
parameter is a name or a pattern. -/
structure Function (ν : Type) where
  id : Option ν
  params : List ν
  body : ν
  generator : Bool
  deriving DecidableEq, Repr

/-- A construct of the language with parts of type `ν`. -/
inductive Construct (ν : Type) where
  | expressionStatement (expression : ν)
  | blockStatement (body : List ν)
  | emptyStatement
  | debuggerStatement
  | withStatement (object body : ν)
  | returnStatement (argument : Option ν)
  | labeledStatement (label body : ν)
  | breakStatement (label : Option ν)
  | continueStatement (label : Option ν)
  | ifStatement (test consequent : ν) (alternate : Option ν)
  | switchStatement (discriminant : ν) (cases : List ν)
  | switchCase (test : Option ν) (consequent : List ν)
  | throwStatement (argument : ν)
  | tryStatement (block : ν) (handlers : CatchHandlers ν) (finalizer : Option ν)
  | catchClause (param : Option ν) (body : ν)
  | whileStatement (test body : ν)
  | doWhileStatement (body test : ν)
  | forStatement (init test update : Option ν) (body : ν)
  | forInStatement (left right body : ν)
  | forOfStatement (left right body : ν)
  | functionDeclaration (function : Function ν)
  | variableDeclaration (declarations : List ν) (kind : VariableKind)
  | variableDeclarator (id : ν) (init : Option ν)
  | functionExpression (function : Function ν)
  | thisExpression
  | arrayExpression (elements : List (Option ν))
  | objectExpression (properties : List ν)
  | property (key value : ν) (kind : PropertyKind) (computed shorthand method : Bool)
  | sequenceExpression (expressions : List ν)
  | unaryExpression (operator : UnaryOperator) (argument : ν)
  | updateExpression (operator : UpdateOperator) (leading : Bool) (argument : ν)
  | binaryExpression (operator : BinaryOperator) (left right : ν)
  | logicalExpression (operator : LogicalOperator) (left right : ν)
  | assignmentExpression (operator : AssignmentOperator) (left right : ν)
  | conditionalExpression (test consequent alternate : ν)
  | callExpression (callee : ν) (arguments : List ν)
  | newExpression (callee : ν) (arguments : List ν)
  | memberExpression (object member : ν) (computed : Bool)
  | yieldExpression (argument : Option ν) (delegate : Bool)
  | arrayPattern (elements : List (Option ν))
  | objectPattern (properties : List ν)
  | assignmentPattern (left right : ν)
  | identifier (name : String)
  | literal (value : LiteralValue) (raw : String)
  deriving DecidableEq, Repr

namespace CatchHandlers

variable {α β : Type}

/-- The handlers, whatever the style. -/
def toList : CatchHandlers α → List α
  | single handler => handler.toList
  | list handlers => handlers

/-- The handlers over other parts. -/
def map (f : α → β) : CatchHandlers α → CatchHandlers β
  | single handler => single (handler.map f)
  | list handlers => list (handlers.map f)

/-- A handler, if there is one, in a style. -/
def ofOption (style : CatchStyle) (handler : Option α) : CatchHandlers α :=
  match style with
  | .single => single handler
  | .list => list handler.toList

end CatchHandlers

namespace Function

variable {α β : Type}

/-- The parts of a function: name, parameters, body. -/
def parts (f : Function α) : List α :=
  f.id.toList ++ f.params ++ [f.body]

/-- A function over other parts. -/
def map (g : α → β) (f : Function α) : Function β :=
  { id := f.id.map g, params := f.params.map g, body := g f.body, generator := f.generator }

end Function

namespace Construct

variable {α β : Type}

/-- The direct parts in source order. -/
def parts : Construct α → List α
  | expressionStatement expression => [expression]
  | blockStatement body => body
  | emptyStatement => []
  | debuggerStatement => []
  | withStatement object body => [object, body]
  | returnStatement argument => argument.toList
  | labeledStatement label body => [label, body]
  | breakStatement label => label.toList
  | continueStatement label => label.toList
  | ifStatement test consequent alternate => [test, consequent] ++ alternate.toList
  | switchStatement discriminant cases => discriminant :: cases
  | switchCase test consequent => test.toList ++ consequent
  | throwStatement argument => [argument]
  | tryStatement block handlers finalizer => block :: handlers.toList ++ finalizer.toList
  | catchClause param body => param.toList ++ [body]
  | whileStatement test body => [test, body]
  | doWhileStatement body test => [body, test]
  | forStatement init test update body => init.toList ++ test.toList ++ update.toList ++ [body]
  | forInStatement left right body => [left, right, body]
  | forOfStatement left right body => [left, right, body]
  | functionDeclaration function => function.parts
  | variableDeclaration declarations _ => declarations
  | variableDeclarator id init => id :: init.toList
  | functionExpression function => function.parts
  | thisExpression => []
  | arrayExpression elements => elements.filterMap id
  | objectExpression properties => properties
  | property key value _ _ _ _ => [key, value]
  | sequenceExpression expressions => expressions
  | unaryExpression _ argument => [argument]
  | updateExpression _ _ argument => [argument]
  | binaryExpression _ left right => [left, right]
  | logicalExpression _ left right => [left, right]
  | assignmentExpression _ left right => [left, right]
  | conditionalExpression test consequent alternate => [test, consequent, alternate]
  | callExpression callee arguments => callee :: arguments
  | newExpression callee arguments => callee :: arguments
  | memberExpression object member _ => [object, member]
  | yieldExpression argument _ => argument.toList
  | arrayPattern elements => elements.filterMap id
  | objectPattern properties => properties
  | assignmentPattern left right => [left, right]
  | identifier _ => []
  | literal _ _ => []

/-- The parts that a walk visits: all but the key of a shorthand property. -/
def children : Construct α → List α
  | property _ value _ _ true _ => [value]
  | construct => construct.parts

/-- The part that a walk passes over: the key of a shorthand property. -/
def shorthandKey? : Construct α → Option α
  | property key _ _ _ true _ => some key
  | _ => none

/-- The same construct over other parts. -/
def map (f : α → β) : Construct α → Construct β
  | expressionStatement expression => .expressionStatement (f expression)
  | blockStatement body => .blockStatement (body.map f)
  | emptyStatement => .emptyStatement
  | debuggerStatement => .debuggerStatement
  | withStatement object body => .withStatement (f object) (f body)
  | returnStatement argument => .returnStatement (argument.map f)
  | labeledStatement label body => .labeledStatement (f label) (f body)
  | breakStatement label => .breakStatement (label.map f)
  | continueStatement label => .continueStatement (label.map f)
  | ifStatement test consequent alternate =>
    .ifStatement (f test) (f consequent) (alternate.map f)
  | switchStatement discriminant cases => .switchStatement (f discriminant) (cases.map f)
  | switchCase test consequent => .switchCase (test.map f) (consequent.map f)
  | throwStatement argument => .throwStatement (f argument)
  | tryStatement block handlers finalizer =>
    .tryStatement (f block) (handlers.map f) (finalizer.map f)
  | catchClause param body => .catchClause (param.map f) (f body)
  | whileStatement test body => .whileStatement (f test) (f body)
  | doWhileStatement body test => .doWhileStatement (f body) (f test)
  | forStatement init test update body =>
    .forStatement (init.map f) (test.map f) (update.map f) (f body)
  | forInStatement left right body => .forInStatement (f left) (f right) (f body)
  | forOfStatement left right body => .forOfStatement (f left) (f right) (f body)
  | functionDeclaration function => .functionDeclaration (function.map f)
  | variableDeclaration declarations kind => .variableDeclaration (declarations.map f) kind
  | variableDeclarator id init => .variableDeclarator (f id) (init.map f)
  | functionExpression function => .functionExpression (function.map f)
  | thisExpression => .thisExpression
  | arrayExpression elements => .arrayExpression (elements.map (·.map f))
  | objectExpression properties => .objectExpression (properties.map f)
  | property key value kind computed shorthand method =>
    .property (f key) (f value) kind computed shorthand method
  | sequenceExpression expressions => .sequenceExpression (expressions.map f)
  | unaryExpression operator argument => .unaryExpression operator (f argument)
  | updateExpression operator leading argument => .updateExpression operator leading (f argument)
  | binaryExpression operator left right => .binaryExpression operator (f left) (f right)
  | logicalExpression operator left right => .logicalExpression operator (f left) (f right)
  | assignmentExpression operator left right => .assignmentExpression operator (f left) (f right)
  | conditionalExpression test consequent alternate =>
    .conditionalExpression (f test) (f consequent) (f alternate)
  | callExpression callee arguments => .callExpression (f callee) (arguments.map f)
  | newExpression callee arguments => .newExpression (f callee) (arguments.map f)
  | memberExpression object member computed => .memberExpression (f object) (f member) computed
  | yieldExpression argument delegate => .yieldExpression (argument.map f) delegate
  | arrayPattern elements => .arrayPattern (elements.map (·.map f))
  | objectPattern properties => .objectPattern (properties.map f)
  | assignmentPattern left right => .assignmentPattern (f left) (f right)
  | identifier name => .identifier name
  | literal value raw => .literal value raw

/-- The name of a construct in output. -/
def typeName : Construct α → String
  | expressionStatement .. => "ExpressionStatement"
  | blockStatement .. => "BlockStatement"
  | emptyStatement => "EmptyStatement"
  | debuggerStatement => "DebuggerStatement"
  | withStatement .. => "WithStatement"
  | returnStatement .. => "ReturnStatement"
  | labeledStatement .. => "LabeledStatement"
  | breakStatement .. => "BreakStatement"
  | continueStatement .. => "ContinueStatement"
  | ifStatement .. => "IfStatement"
  | switchStatement .. => "SwitchStatement"
  | switchCase .. => "SwitchCase"
  | throwStatement .. => "ThrowStatement"
  | tryStatement .. => "TryStatement"
  | catchClause .. => "CatchClause"
  | whileStatement .. => "WhileStatement"
  | doWhileStatement .. => "DoWhileStatement"
  | forStatement .. => "ForStatement"
  | forInStatement .. => "ForInStatement"
  | forOfStatement .. => "ForOfStatement"
  | functionDeclaration .. => "FunctionDeclaration"
  | variableDeclaration .. => "VariableDeclaration"
  | variableDeclarator .. => "VariableDeclarator"
  | functionExpression .. => "FunctionExpression"
  | thisExpression => "ThisExpression"
  | arrayExpression .. => "ArrayExpression"
  | objectExpression .. => "ObjectExpression"
  | property .. => "Property"
  | sequenceExpression .. => "SequenceExpression"
  | unaryExpression .. => "UnaryExpression"
  | updateExpression .. => "UpdateExpression"
  | binaryExpression .. => "BinaryExpression"
  | logicalExpression .. => "LogicalExpression"
  | assignmentExpression .. => "AssignmentExpression"
  | conditionalExpression .. => "ConditionalExpression"
  | callExpression .. => "CallExpression"
  | newExpression .. => "NewExpression"
  | memberExpression .. => "MemberExpression"
  | yieldExpression .. => "YieldExpression"
  | arrayPattern .. => "ArrayPattern"
  | objectPattern .. => "ObjectPattern"
  | assignmentPattern .. => "AssignmentPattern"
  | identifier .. => "Identifier"
  | literal .. => "Literal"

/-- Leaving out the holes of a list and rebuilding its items can be done in either order. -/
theorem filterMap_id_map (f : α → β) (l : List (Option α)) :
    (l.map (·.map f)).filterMap id = (l.filterMap id).map f := by
  induction l with
  | nil => rfl
  | cons o l ih =>
    cases o with
    | none => exact ih
    | some a => exact congrArg (f a :: ·) ih

/-- A part is visited by a walk, or it is the key of a shorthand property, which comes first. -/
theorem parts_eq (c : Construct α) : c.parts = c.shorthandKey?.toList ++ c.children := by
  cases c with
  | property key value kind computed shorthand method => cases shorthand <;> rfl
  | _ => rfl

/-- Rebuilding twice is rebuilding once. -/
theorem map_map {γ : Type} (f : α → β) (g : β → γ) (c : Construct α) :
    (c.map f).map g = c.map (g ∘ f) := by
  cases c <;> (try cases ‹CatchHandlers α›) <;>
    simp [map, Function.map, CatchHandlers.map, Function.comp_def]

theorem map_of_mem {f : α → α} {l : List α} (h : ∀ a ∈ l, f a = a) : l.map f = l :=
  (List.map_congr_left h).trans (List.map_id l)

theorem option_map_of_mem {f : α → α} {o : Option α} (h : ∀ a ∈ o.toList, f a = a) :
    o.map f = o := by
  cases o with
  | none => rfl
  | some a => exact congrArg some (h a (List.mem_singleton_self a))

/-- A construct is rebuilt as it is if its parts are. -/
theorem map_of_parts {f : α → α} {c : Construct α} (h : ∀ a ∈ c.parts, f a = a) :
    c.map f = c := by
  have list {l : List α} (hl : l ⊆ c.parts) : l.map f = l := map_of_mem fun a ha => h a (hl ha)
  have option {o : Option α} (ho : o.toList ⊆ c.parts) : o.map f = o :=
    option_map_of_mem fun a ha => h a (ho ha)
  have holes {elements : List (Option α)} (he : elements.filterMap id ⊆ c.parts) :
      elements.map (·.map f) = elements :=
    map_of_mem fun o ho => option fun a ha =>
      he (List.mem_filterMap.2 ⟨o, ho, Option.mem_toList.1 ha⟩)
  have function {g : Function α} (hg : g.parts ⊆ c.parts) : g.map f = g := by
    have body : f g.body = g.body := h _ (hg (by simp [Function.parts]))
    rw [Function.map, option fun a ha => hg (by simp_all [Function.parts]),
      list fun a ha => hg (by simp_all [Function.parts]), body]
  have handlers {hs : CatchHandlers α} (hh : hs.toList ⊆ c.parts) : hs.map f = hs := by
    cases hs with
    | single handler => exact congrArg CatchHandlers.single (option hh)
    | list handlers => exact congrArg CatchHandlers.list (list hh)
  cases c <;> simp only [map] <;> congr 1
  all_goals first
    | exact h _ (by simp [parts])
    | exact list (by simp [parts])
    | exact holes (by simp [parts])
    | exact function (by simp [parts])
    | exact handlers (by simp [parts])
    | refine option fun a ha => ?_
      simp only [parts, List.mem_append, List.mem_cons, ha, true_or, or_true]

/-- The parts of a rebuilt construct are the rebuilt parts. -/
theorem parts_map (f : α → β) (c : Construct α) : (c.map f).parts = c.parts.map f := by
  cases c <;> (try cases ‹CatchHandlers α›) <;>
    simp only [parts, map, filterMap_id_map, Function.parts, Function.map, CatchHandlers.toList,
      CatchHandlers.map, Option.toList_map, List.map_append, List.map_cons, List.map_nil]

theorem shorthandKey?_map (f : α → β) (c : Construct α) :
    (c.map f).shorthandKey? = c.shorthandKey?.map f := by
  cases c with
  | property key value kind computed shorthand method => cases shorthand <;> rfl
  | _ => rfl

/-- The visited parts of a rebuilt construct are the rebuilt visited parts. -/
theorem children_map (f : α → β) (c : Construct α) : (c.map f).children = c.children.map f := by
  have h := parts_map f c
  rw [parts_eq, parts_eq c, List.map_append, shorthandKey?_map, Option.toList_map] at h
  exact List.append_cancel_left h

end Construct

end ScriptTree
