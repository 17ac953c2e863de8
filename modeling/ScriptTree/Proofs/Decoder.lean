import ScriptTree.Ast.Output
import ScriptTree.Json.Reader
import ScriptTree.Literal.Numeral

/-!
# Reading programs from JSON

The way back from `Program.toJson`. Where the output form writes `null` for different values, the
members beside it decide: for a literal that is its raw text, from which also the value of a number
is taken. A construct is read in two steps, first its members (`Construct.ofJson?`), then its parts
(`Construct.traverse?`).
-/
namespace ScriptTree

namespace Json

/-- The text of a member. -/
def text? (name : String) (json : Json) : Option String :=
  (json.field? name).bind string?

/-- The items of a member. -/
def list? (name : String) (json : Json) : Option (List Json) :=
  (json.field? name).bind items?

/-- A truth value of a member. -/
def flag? (name : String) (json : Json) : Option Bool :=
  match json.field? name with
  | some (.bool value) => some value
  | _ => none

/-- A value, none for `null`. -/
def toOption : Json → Option Json
  | .null => none
  | value => some value

/-- A member that may be `null`. -/
def optional? (name : String) (json : Json) : Option (Option Json) :=
  (json.field? name).map toOption

/-- The items of a member, of which some may be `null`. -/
def holes? (name : String) (json : Json) : Option (List (Option Json)) :=
  (json.list? name).map (·.map toOption)

/-- The line of a location. -/
def line? (json : Json) : Option Nat := do
  let start ← json.field? "start"
  let line ← start.field? "line"
  line.nat?

end Json

/-- Reads a span. -/
def Span.ofJson? : Json → Option Span
  | .array [start, stop] => do return ⟨← start.nat?, ← stop.nat?⟩
  | _ => none

/-- Reads a comment. What it says follows from its raw text. -/
def Comment.ofJson? (json : Json) : Option Comment := do
  let raw ← json.text? "raw"
  let span ← (json.field? "range").bind Span.ofJson?
  let line ← (json.field? "loc").bind Json.line?
  return { raw, span, line }

/-- Reads an optional field of comments. -/
def Comment.ofField? (name : String) (json : Json) : Option (List Comment) :=
  match json.field? name with
  | none => some []
  | some value => value.items?.bind (·.mapM Comment.ofJson?)

/-- Reads the value of a literal with the help of its raw text. -/
def LiteralValue.ofJson? (raw : String) : Json → Option LiteralValue
  | .bool value => some (.boolean value)
  | .string value => some (.string value)
  | .null => if raw = "null" then some .null else (Numeral.read? raw.toList).map .number
  | .number _ => (Numeral.read? raw.toList).map .number
  | _ => none

/-- Reads the handlers of a `try` statement. -/
def CatchHandlers.ofJson? (json : Json) : Option (CatchHandlers Json) :=
  match json.optional? "handler" with
  | some handler => some (.single handler)
  | none => (json.list? "handlers").map .list

/-- Reads a function. -/
def Function.ofJson? (json : Json) : Option (Function Json) := do
  return {
    id := ← json.optional? "id"
    params := ← json.list? "params"
    body := ← json.field? "body"
    generator := ← json.flag? "generator" }

namespace Construct

/-- Reads a construct from the members of an object. -/
def ofJson? (json : Json) : Option (Construct Json) := do
  match ← json.text? "type" with
  | "ExpressionStatement" => return .expressionStatement (← json.field? "expression")
  | "BlockStatement" => return .blockStatement (← json.list? "body")
  | "EmptyStatement" => return .emptyStatement
  | "DebuggerStatement" => return .debuggerStatement
  | "WithStatement" => return .withStatement (← json.field? "object") (← json.field? "body")
  | "ReturnStatement" => return .returnStatement (← json.optional? "argument")
  | "LabeledStatement" => return .labeledStatement (← json.field? "label") (← json.field? "body")
  | "BreakStatement" => return .breakStatement (← json.optional? "label")
  | "ContinueStatement" => return .continueStatement (← json.optional? "label")
  | "IfStatement" =>
    return .ifStatement (← json.field? "test") (← json.field? "consequent")
      (← json.optional? "alternate")
  | "SwitchStatement" =>
    return .switchStatement (← json.field? "discriminant") (← json.list? "cases")
  | "SwitchCase" => return .switchCase (← json.optional? "test") (← json.list? "consequent")
  | "ThrowStatement" => return .throwStatement (← json.field? "argument")
  | "TryStatement" =>
    return .tryStatement (← json.field? "block") (← CatchHandlers.ofJson? json)
      (← json.optional? "finalizer")
  | "CatchClause" => return .catchClause (← json.optional? "param") (← json.field? "body")
  | "WhileStatement" => return .whileStatement (← json.field? "test") (← json.field? "body")
  | "DoWhileStatement" => return .doWhileStatement (← json.field? "body") (← json.field? "test")
  | "ForStatement" =>
    return .forStatement (← json.optional? "init") (← json.optional? "test")
      (← json.optional? "update") (← json.field? "body")
  | "ForInStatement" =>
    return .forInStatement (← json.field? "left") (← json.field? "right") (← json.field? "body")
  | "ForOfStatement" =>
    return .forOfStatement (← json.field? "left") (← json.field? "right") (← json.field? "body")
  | "FunctionDeclaration" => return .functionDeclaration (← Function.ofJson? json)
  | "VariableDeclaration" =>
    return .variableDeclaration (← json.list? "declarations")
      (← (json.text? "kind").bind VariableKind.ofKeyword?)
  | "VariableDeclarator" =>
    return .variableDeclarator (← json.field? "id") (← json.optional? "init")
  | "FunctionExpression" => return .functionExpression (← Function.ofJson? json)
  | "ThisExpression" => return .thisExpression
  | "ArrayExpression" => return .arrayExpression (← json.holes? "elements")
  | "ObjectExpression" => return .objectExpression (← json.list? "properties")
  | "Property" =>
    return .property (← json.field? "key") (← json.field? "value")
      (← (json.text? "kind").bind PropertyKind.ofName?) (← json.flag? "computed")
      (← json.flag? "shorthand") (← json.flag? "method")
  | "SequenceExpression" => return .sequenceExpression (← json.list? "expressions")
  | "UnaryExpression" =>
    return .unaryExpression (← (json.text? "operator").bind UnaryOperator.ofSymbol?)
      (← json.field? "argument")
  | "UpdateExpression" =>
    return .updateExpression (← (json.text? "operator").bind UpdateOperator.ofSymbol?)
      (← json.flag? "prefix") (← json.field? "argument")
  | "BinaryExpression" =>
    return .binaryExpression (← (json.text? "operator").bind BinaryOperator.ofSymbol?)
      (← json.field? "left") (← json.field? "right")
  | "LogicalExpression" =>
    return .logicalExpression (← (json.text? "operator").bind LogicalOperator.ofSymbol?)
      (← json.field? "left") (← json.field? "right")
  | "AssignmentExpression" =>
    return .assignmentExpression (← (json.text? "operator").bind AssignmentOperator.ofSymbol?)
      (← json.field? "left") (← json.field? "right")
  | "ConditionalExpression" =>
    return .conditionalExpression (← json.field? "test") (← json.field? "consequent")
      (← json.field? "alternate")
  | "CallExpression" => return .callExpression (← json.field? "callee") (← json.list? "arguments")
  | "NewExpression" => return .newExpression (← json.field? "callee") (← json.list? "arguments")
  | "MemberExpression" =>
    return .memberExpression (← json.field? "object") (← json.field? "property")
      (← json.flag? "computed")
  | "YieldExpression" =>
    return .yieldExpression (← json.optional? "argument") (← json.flag? "delegate")
  | "ArrayPattern" => return .arrayPattern (← json.holes? "elements")
  | "ObjectPattern" => return .objectPattern (← json.list? "properties")
  | "AssignmentPattern" =>
    return .assignmentPattern (← json.field? "left") (← json.field? "right")
  | "Identifier" => return .identifier (← json.text? "name")
  | "Literal" =>
    let raw ← json.text? "raw"
    return .literal (← (json.field? "value").bind (LiteralValue.ofJson? raw)) raw
  | _ => none

/-- Reads the parts of a construct; each must be readable. -/
def traverse? {α β : Type} [Inhabited β] (read : α → Option β) (c : Construct α) :
    Option (Construct β) :=
  if c.parts.all fun a => (read a).isSome then some (c.map fun a => (read a).getD default)
  else none

end Construct

instance : Inhabited Node :=
  ⟨.mk .emptyStatement ⟨0, 0⟩ 0 none⟩

/-- Reads a node that is nested at most `depth` levels deep. -/
def Node.ofJson? : Nat → Json → Option Node
  | 0, _ => none
  | depth + 1, json => do
    let construct ← (← Construct.ofJson? json).traverse? (ofJson? depth)
    let span ← (json.field? "range").bind Span.ofJson?
    let line ← (json.field? "loc").bind Json.line?
    let docs ← Comment.ofField? "leadingComments" json
    return .mk construct span line docs.head?

namespace Program

/-- Reads a program whose nodes are nested at most `depth` levels deep. -/
def ofJson? (depth : Nat) (json : Json) : Option Program := do
  let body ← (← json.list? "body").mapM (Node.ofJson? depth)
  let span ← (json.field? "range").bind Span.ofJson?
  let comments ← Comment.ofField? "comments" json
  let leading ← Comment.ofField? "leadingComments" json
  let trailing ← Comment.ofField? "trailingComments" json
  return { body, length := span.stop, comments, leading, trailing }

/-- Reads a program from text, which is longer than what it holds is nested. -/
def ofText? (text : String) : Option Program :=
  (Json.parse? text.length text.toList).bind (ofJson? text.length)

end Program

/-! ## Symbols

Each symbol is read as what is written with it. -/

theorem BinaryOperator.ofSymbol?_symbol (operator : BinaryOperator) :
    ofSymbol? operator.symbol = some operator := by
  cases operator <;> rfl

theorem LogicalOperator.ofSymbol?_symbol (operator : LogicalOperator) :
    ofSymbol? operator.symbol = some operator := by
  cases operator <;> rfl

theorem AssignmentOperator.ofSymbol?_symbol (operator : AssignmentOperator) :
    ofSymbol? operator.symbol = some operator := by
  cases operator <;> rfl

theorem UnaryOperator.ofSymbol?_symbol (operator : UnaryOperator) :
    ofSymbol? operator.symbol = some operator := by
  cases operator <;> rfl

theorem UpdateOperator.ofSymbol?_symbol (operator : UpdateOperator) :
    ofSymbol? operator.symbol = some operator := by
  cases operator <;> rfl

theorem VariableKind.ofKeyword?_keyword (kind : VariableKind) :
    ofKeyword? kind.keyword = some kind := by
  cases kind <;> rfl

theorem PropertyKind.ofName?_name (kind : PropertyKind) : ofName? kind.name = some kind := by
  cases kind <;> rfl

/-! ## Constructs -/

namespace Construct

/-- The value of a literal is read from its output with the help of its raw text. -/
def Legible {α : Type} : Construct α → Prop
  | .literal value raw => LiteralValue.ofJson? raw value.toJson = some value
  | _ => True

variable {α : Type} {write : α → Json}

theorem toOption_ofOption (hw : ∀ a, write a ≠ .null) (o : Option α) :
    (Json.ofOption (o.map write)).toOption = o.map write := by
  cases o with
  | none => rfl
  | some a =>
    show (write a).toOption = some (write a)
    unfold Json.toOption
    split
    · next h => exact absurd h (hw a)
    · rfl

theorem map_toOption_ofOption (hw : ∀ a, write a ≠ .null) (elements : List (Option α)) :
    ((elements.map (·.map write)).map Json.ofOption).map Json.toOption =
      elements.map (·.map write) := by
  rw [List.map_map, List.map_map]
  exact List.map_congr_left fun o _ => toOption_ofOption hw o

/-- The members of an object that do not belong to its construct. -/
def frame : List String := ["range", "loc", "leadingComments"]

/-- A construct is read from its own members alone. -/
theorem ofJson?_congr {json json' : Json}
    (h : ∀ name ∉ frame, json.field? name = json'.field? name) :
    ofJson? json = ofJson? json' := by
  simp (disch := decide) only [ofJson?, CatchHandlers.ofJson?, Function.ofJson?, Json.text?,
    Json.optional?, Json.list?, Json.holes?, Json.flag?, h]

theorem ofJson?_function (hw : ∀ a, write a ≠ .null) (f : Function α) (type : Json) :
    Function.ofJson? (.object (("type", type) :: (f.map write).fields)) = some (f.map write) := by
  show some (Function.mk (Json.ofOption (f.id.map write)).toOption _ _ _) = _
  rw [toOption_ofOption hw]
  rfl

/-- A construct is read from what is written for it. Parts that may be missing and symbols are read
by lemmas of their own, everything else as it stands. -/
theorem ofJson?_fields (hw : ∀ a, write a ≠ .null) (c : Construct α) (legible : c.Legible) :
    ofJson? (.object (("type", .string c.typeName) :: (c.map write).fields)) =
      some (c.map write) := by
  have opt := toOption_ofOption hw
  have holes := map_toOption_ofOption hw
  cases c with
  | returnStatement argument =>
    show some (returnStatement (Json.ofOption _).toOption) = _
    rw [opt]
    rfl
  | breakStatement label =>
    show some (breakStatement (Json.ofOption _).toOption) = _
    rw [opt]
    rfl
  | continueStatement label =>
    show some (continueStatement (Json.ofOption _).toOption) = _
    rw [opt]
    rfl
  | ifStatement test consequent alternate =>
    show some (ifStatement _ _ (Json.ofOption _).toOption) = _
    rw [opt]
    rfl
  | switchCase test consequent =>
    show some (switchCase (Json.ofOption _).toOption _) = _
    rw [opt]
    rfl
  | tryStatement block handlers finalizer =>
    cases handlers with
    | single handler =>
      show some (tryStatement _ (.single (Json.ofOption _).toOption) (Json.ofOption _).toOption) = _
      rw [opt, opt]
      rfl
    | list handlers =>
      show some (tryStatement _ (.list _) (Json.ofOption _).toOption) = _
      rw [opt]
      rfl
  | catchClause param body =>
    show some (catchClause (Json.ofOption _).toOption _) = _
    rw [opt]
    rfl
  | forStatement init test update body =>
    show some (forStatement (Json.ofOption _).toOption (Json.ofOption _).toOption
      (Json.ofOption _).toOption _) = _
    rw [opt, opt, opt]
    rfl
  | functionDeclaration function =>
    show (Function.ofJson? (.object (("type", .string "FunctionDeclaration") ::
      (function.map write).fields))).bind (fun function => some (functionDeclaration function)) = _
    rw [ofJson?_function hw]
    rfl
  | functionExpression function =>
    show (Function.ofJson? (.object (("type", .string "FunctionExpression") ::
      (function.map write).fields))).bind (fun function => some (functionExpression function)) = _
    rw [ofJson?_function hw]
    rfl
  | variableDeclaration declarations kind =>
    show (VariableKind.ofKeyword? kind.keyword).bind
      (fun kind => some (variableDeclaration (declarations.map write) kind)) = _
    rw [VariableKind.ofKeyword?_keyword]
    rfl
  | variableDeclarator id init =>
    show some (variableDeclarator _ (Json.ofOption _).toOption) = _
    rw [opt]
    rfl
  | arrayExpression elements =>
    show some (arrayExpression (List.map Json.toOption (List.map Json.ofOption _))) = _
    rw [holes]
    rfl
  | property key value kind computed shorthand method =>
    show (PropertyKind.ofName? kind.name).bind
      (fun kind => some (property (write key) (write value) kind computed shorthand method)) = _
    rw [PropertyKind.ofName?_name]
    rfl
  | unaryExpression operator argument =>
    show (UnaryOperator.ofSymbol? operator.symbol).bind
      (fun operator => some (unaryExpression operator (write argument))) = _
    rw [UnaryOperator.ofSymbol?_symbol]
    rfl
  | updateExpression operator leading argument =>
    show (UpdateOperator.ofSymbol? operator.symbol).bind
      (fun operator => some (updateExpression operator leading (write argument))) = _
    rw [UpdateOperator.ofSymbol?_symbol]
    rfl
  | binaryExpression operator left right =>
    show (BinaryOperator.ofSymbol? operator.symbol).bind
      (fun operator => some (binaryExpression operator (write left) (write right))) = _
    rw [BinaryOperator.ofSymbol?_symbol]
    rfl
  | logicalExpression operator left right =>
    show (LogicalOperator.ofSymbol? operator.symbol).bind
      (fun operator => some (logicalExpression operator (write left) (write right))) = _
    rw [LogicalOperator.ofSymbol?_symbol]
    rfl
  | assignmentExpression operator left right =>
    show (AssignmentOperator.ofSymbol? operator.symbol).bind
      (fun operator => some (assignmentExpression operator (write left) (write right))) = _
    rw [AssignmentOperator.ofSymbol?_symbol]
    rfl
  | yieldExpression argument delegate =>
    show some (yieldExpression (Json.ofOption _).toOption _) = _
    rw [opt]
    rfl
  | arrayPattern elements =>
    show some (arrayPattern (List.map Json.toOption (List.map Json.ofOption _))) = _
    rw [holes]
    rfl
  | literal value raw =>
    show (LiteralValue.ofJson? raw value.toJson).bind (fun value => some (literal value raw)) = _
    rw [legible]
    rfl
  | _ => rfl

/-- The members of a construct do not belong to the frame. -/
theorem field?_fields {name : String} (h : name ∈ frame) (c : Construct Json) :
    (Json.object c.fields).field? name = none := by
  have names : (c.fields.map (·.1)).all fun other => !frame.contains other := by
    cases c <;> (try cases ‹CatchHandlers Json›) <;> rfl
  rw [List.all_map, List.all_eq_true] at names
  rw [Json.field?, List.find?_eq_none.2]
  · rfl
  · intro member hm
    have other := names member (List.mem_reverse.1 hm)
    simp at other ⊢
    rintro rfl
    exact other h

/-- The parts of a construct are read from what is written for them. -/
theorem traverse?_map [Inhabited α] {read : Json → Option α} {c : Construct α}
    (h : ∀ b ∈ c.parts, read (write b) = some b) :
    (c.map write).traverse? read = some c := by
  have all : (c.map write).parts.all fun a => (read a).isSome := by
    rw [parts_map, List.all_map, List.all_eq_true]
    intro b hb
    rw [Function.comp_apply, h b hb]
    rfl
  rw [traverse?, if_pos all, map_map, map_of_parts]
  intro b hb
  rw [Function.comp_apply, h b hb]
  rfl

end Construct

end ScriptTree
