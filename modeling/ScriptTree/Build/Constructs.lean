import ScriptTree.Build.Conversion
import ScriptTree.Literal.Numeral
import ScriptTree.Literal.Quoted

/-!
# The conversion of each construct

One function for each construct whose conversion takes more than its fields in order, and
`Conversion.construct`, which chooses by the kind of the grammar rule. All are given how parts are
converted; `Conversion.upTo` ties the knot for trees of bounded height, and `Conversion.node` bounds
by the height of the tree at hand.
-/
namespace ScriptTree.Conversion

open ParseTree (Site)

section

variable (ctx : BuildContext) (convert : Converter)

/-! ## Declarations -/

/-- The kind of a declaration from its keyword. -/
def variableKind (keyword : Site) : Conversion VariableKind :=
  let token := ctx.name keyword
  match VariableKind.ofKeyword? token with
  | some kind => pure kind
  | none => throw (.unknownKeyword token (ctx.excerpt keyword))

/-- A declaration of variables; only its declarators are parts. -/
def variableDeclaration (s : Site) (kind : VariableKind) : Conversion (Construct Node) := do
  let declarators := s.members.filter fun c => c.kind == "variable_declarator"
  let declarations ← all convert declarators
  return .variableDeclaration declarations kind

/-- The name, parameters and body of a function. -/
def function (s : Site) (generator : Bool) : Conversion (Function Node) := do
  if s.hasToken "async" then
    ctx.refuse "async function" s
  let id ← optionalField convert s "name"
  let parameters ← ctx.field s "parameters"
  let params ← all convert parameters.members
  let body ← field ctx convert s "body"
  return { id, params, body, generator }

/-! ## Loops and `try` -/

/-- The condition of a loop. Its field also holds the semicolon after it. -/
def loopCondition (s : Site) : Conversion Node :=
  match (s.fieldMembers "condition").head? with
  | some condition => convert condition
  | none => throw (.malformed s.kind "condition" (ctx.excerpt s))

/-- A loop with a head of three parts. -/
def forStatement (s : Site) : Conversion (Construct Node) := do
  let init ← field ctx convert s "initializer"
  let test ← loopCondition ctx convert s
  let update ← optionalField convert s "increment"
  let body ← field ctx convert s "body"
  return .forStatement (some init) (some test) update body

/-- The declaration in the head of a loop over an object: one declarator, from the target up to its
initial value if there is one. -/
def headDeclaration (keyword left : Site) (value : Option Site) : Conversion Node := do
  let kind ← variableKind ctx keyword
  let stop := (value.getD left).span.stop
  let declaration ←
    registerSpan "variable_declaration" ⟨keyword.span.start, stop⟩ (ctx.line keyword)
  let declarator ← registerSpan "variable_declarator" ⟨left.span.start, stop⟩ (ctx.line left)
  let id ← convert left
  let init ← optional convert value
  let node ← finish declarator (.variableDeclarator id init)
  finish declaration (.variableDeclaration [node] kind)

/-- What a loop over an object goes through: a declaration if there is a keyword. -/
def loopTarget (s target : Site) : Conversion Node :=
  match s.field? "kind" with
  | some keyword => headDeclaration ctx convert keyword target (s.field? "value")
  | none => convert target

/-- A loop over the names or the values of an object. -/
def forInStatement (s : Site) : Conversion (Construct Node) := do
  if s.hasToken "await" then
    ctx.refuse "for await" s
  let target ← ctx.field s "left"
  let left ← loopTarget ctx convert s target
  let right ← field ctx convert s "right"
  let body ← field ctx convert s "body"
  let operator ← ctx.field s "operator"
  let token := ctx.name operator
  if token = "in" then
    return .forInStatement left right body
  else if token = "of" then
    return .forOfStatement left right body
  else
    throw (.unknownOperator token s.kind)

/-- A `try` statement with its handler in the chosen style. -/
def tryStatement (s : Site) : Conversion (Construct Node) := do
  let block ← field ctx convert s "body"
  let handler ← optionalField convert s "handler"
  let finalizer ← optionalField convert s "finalizer"
  return .tryStatement block (.ofOption ctx.style handler) finalizer

/-- A `switch` statement; its cases are the members of its body. -/
def switchStatement (s : Site) : Conversion (Construct Node) := do
  let discriminant ← field ctx convert s "value"
  let body ← ctx.field s "body"
  let cases ← all convert body.members
  return .switchStatement discriminant cases

/-! ## Objects and arrays -/

/-- A shorthand property: its key and its value are the same name. -/
def shorthandProperty (s : Site) : Conversion Node := do
  let place ← register ctx s
  let key ← bareIdentifier ctx s
  let value ← bareIdentifier ctx s
  finish place (.property key value .init false true false)

/-- A shorthand property of a pattern with a default value. A target that is a pattern itself is
converted as a plain default. -/
def shorthandDefault (s : Site) : Conversion Node := do
  let left ← ctx.field s "left"
  if left.kind = "shorthand_property_identifier_pattern" then
    let place ← register ctx s
    let key ← bareIdentifier ctx left
    let pattern ← registerBare ctx s
    let target ← bareIdentifier ctx left
    let right ← field ctx convert s "right"
    let value ← finish pattern (.assignmentPattern target right)
    finish place (.property key value .init false true false)
  else
    convert s

/-- A member of an object expression. -/
def objectMember (s : Site) : Conversion Node :=
  if s.kind = "shorthand_property_identifier" then shorthandProperty ctx s else convert s

/-- A member of an object pattern. -/
def patternMember (s : Site) : Conversion Node :=
  if s.kind = "shorthand_property_identifier_pattern" then shorthandProperty ctx s
  else if s.kind = "object_assignment_pattern" then shorthandDefault ctx convert s
  else convert s

/-- A property with a key and a value. -/
def pair (s : Site) : Conversion (Construct Node) := do
  let name ← ctx.field s "key"
  let key ← convert name
  let value ← field ctx convert s "value"
  return .property key value .init (name.kind == "computed_property_name") false false

/-- Modifiers of methods beyond the language level. -/
def refusedModifiers : List String :=
  ["static", "static get", "async"]

/-- Refuses a method with a decorator or a modifier beyond the language level. -/
def refuseModifiers (s : Site) : Conversion Unit :=
  if (s.field? "decorator").isSome then ctx.refuse "decorator" s
  else
    match refusedModifiers.find? s.hasToken with
    | some modifier => ctx.refuse (modifier ++ " method") s
    | none => pure ()

/-- The function of a method; it spans from the parameters to the body. -/
def methodFunction (s : Site) : Conversion Node := do
  let parameters ← ctx.field s "parameters"
  let block ← ctx.field s "body"
  let place ←
    registerSpan s.kind ⟨parameters.span.start, block.span.stop⟩ (ctx.line parameters)
  let params ← all convert parameters.members
  let body ← convert block
  finish place (.functionExpression { id := none, params, body, generator := s.hasToken "*" })

/-- A method or an accessor of an object. -/
def method (s : Site) : Conversion (Construct Node) := do
  refuseModifiers ctx s
  let kind : PropertyKind :=
    if s.hasToken "get" then .get else if s.hasToken "set" then .set else .init
  let name ← ctx.field s "name"
  let key ← convert name
  let value ← methodFunction ctx convert s
  return .property key value kind (name.kind == "computed_property_name") false (kind == .init)

/-- The elements of an array. A comma without an element before it makes a hole; `awaiting` tells
that no element has been met since the opening bracket or the last comma. -/
def elements : Bool → List Site → Conversion (List (Option Node))
  | _, [] => pure []
  | awaiting, s :: rest =>
    if s.label.named then do
      let node ← convert s
      let nodes ← elements false rest
      return some node :: nodes
    else if s.kind = "," then do
      let nodes ← elements true rest
      return if awaiting then none :: nodes else nodes
    else
      elements awaiting rest

/-! ## Expressions -/

/-- The text of the operator, which must be there. -/
def operatorToken (s : Site) : Conversion String := do
  let operator ← ctx.field s "operator"
  return ctx.name operator

/-- The operator with a spelling, or a failure. -/
def operator {α : Type} (s : Site) (token : String) (found : Option α) : Conversion α :=
  match found with
  | some operator => pure operator
  | none => throw (.unknownOperator token s.kind)

/-- An operation of two operands, which are converted before their operator is looked up. -/
def binaryExpression (s : Site) : Conversion (Construct Node) := do
  let token ← operatorToken ctx s
  let left ← field ctx convert s "left"
  let right ← field ctx convert s "right"
  match LogicalOperator.ofSymbol? token with
  | some operator => return .logicalExpression operator left right
  | none =>
    let operator ← operator s token (BinaryOperator.ofSymbol? token)
    return .binaryExpression operator left right

/-- An assignment joined with an operation. -/
def augmentedAssignment (s : Site) : Conversion (Construct Node) := do
  let token ← operatorToken ctx s
  let operator ← operator s token (AssignmentOperator.ofSymbol? token)
  let left ← field ctx convert s "left"
  let right ← field ctx convert s "right"
  return .assignmentExpression operator left right

/-- An operation of one operand. -/
def unaryExpression (s : Site) : Conversion (Construct Node) := do
  let token ← operatorToken ctx s
  let operator ← operator s token (UnaryOperator.ofSymbol? token)
  let argument ← field ctx convert s "argument"
  return .unaryExpression operator argument

/-- An increment or decrement; it leads if the operator stands before its operand. -/
def updateExpression (s : Site) : Conversion (Construct Node) := do
  let sign ← ctx.field s "operator"
  let target ← ctx.field s "argument"
  let token := ctx.name sign
  let operator ← operator s token (UpdateOperator.ofSymbol? token)
  let argument ← convert target
  return .updateExpression operator (decide (sign.span.start < target.span.start)) argument

/-- Refuses a link of an optional chain. -/
def refuseOptionalChain (s : Site) : Conversion Unit :=
  if (s.field? "optional_chain").isSome then ctx.refuse "optional_chain" s else pure ()

/-- A call. -/
def callExpression (s : Site) : Conversion (Construct Node) := do
  refuseOptionalChain ctx s
  let callee ← field ctx convert s "function"
  let list ← ctx.field s "arguments"
  if list.kind = "template_string" then
    ctx.refuse "tagged template" s
  let arguments ← all convert list.members
  return .callExpression callee arguments

/-- A construction; the list of arguments may be left out. -/
def newExpression (s : Site) : Conversion (Construct Node) := do
  let callee ← field ctx convert s "constructor"
  let arguments ← all convert ((s.field? "arguments").toList.flatMap Site.members)
  return .newExpression callee arguments

/-- An access to a member, by name or by a computed index. -/
def memberExpression (s : Site) (member : String) (computed : Bool) :
    Conversion (Construct Node) := do
  refuseOptionalChain ctx s
  let object ← field ctx convert s "object"
  let property ← field ctx convert s member
  return .memberExpression object property computed

/-! ## Leaves -/

/-- A keyword that stands for a value or a statement; its rule has its own name, but for one. -/
def keyword (s : Site) : Conversion (Construct Node) :=
  match s.kind with
  | "true" => pure (.literal (.boolean true) "true")
  | "false" => pure (.literal (.boolean false) "false")
  | "null" => pure (.literal .null "null")
  | "this" => pure .thisExpression
  | "debugger_statement" => pure .debuggerStatement
  | other => throw (.unknownKeyword other (ctx.excerpt s))

/-- A number literal; it must have a double as value. -/
def number (s : Site) : Conversion (Construct Node) :=
  match Numeral.read? (ctx.text s) with
  | some value => pure (.literal (.number value) (ctx.name s))
  | none => ctx.refuse "number (bigint)" s

/-! ## All constructs -/

/-- Converts a node of a kind, its parts in the order in which the source has them. -/
def construct (kind : GrammarKind) (s : Site) : Conversion (Construct Node) :=
  match kind with
  | .expressionStatement => return .expressionStatement (← firstMember ctx convert s)
  | .variableDeclaration => variableDeclaration convert s .var
  | .lexicalDeclaration => do
    let keyword ← ctx.field s "kind"
    let kind ← variableKind ctx keyword
    variableDeclaration convert s kind
  | .variableDeclarator => do
    let id ← field ctx convert s "name"
    let init ← optionalField convert s "value"
    return .variableDeclarator id init
  | .statementBlock => return .blockStatement (← all convert s.members)
  | .ifStatement => do
    let test ← field ctx convert s "condition"
    let consequent ← field ctx convert s "consequence"
    let alternate ← optionalField convert s "alternative"
    return .ifStatement test consequent alternate
  | .switchStatement => switchStatement ctx convert s
  | .switchCase => do
    let test ← field ctx convert s "value"
    let consequent ← all convert (s.fieldMembers "body")
    return .switchCase (some test) consequent
  | .switchDefault => return .switchCase none (← all convert (s.fieldMembers "body"))
  | .forStatement => forStatement ctx convert s
  | .forInStatement => forInStatement ctx convert s
  | .whileStatement => do
    let test ← field ctx convert s "condition"
    let body ← field ctx convert s "body"
    return .whileStatement test body
  | .doStatement => do
    let body ← field ctx convert s "body"
    let test ← field ctx convert s "condition"
    return .doWhileStatement body test
  | .tryStatement => tryStatement ctx convert s
  | .catchClause => do
    let param ← optionalField convert s "parameter"
    let body ← field ctx convert s "body"
    return .catchClause param body
  | .withStatement => do
    let object ← field ctx convert s "object"
    let body ← field ctx convert s "body"
    return .withStatement object body
  | .breakStatement => return .breakStatement (← optionalField convert s "label")
  | .continueStatement => return .continueStatement (← optionalField convert s "label")
  | .returnStatement => return .returnStatement (← optional convert s.firstMember?)
  | .throwStatement => return .throwStatement (← firstMember ctx convert s)
  | .emptyStatement => pure .emptyStatement
  | .labeledStatement => do
    let label ← field ctx convert s "label"
    let body ← field ctx convert s "body"
    return .labeledStatement label body
  | .functionDeclaration => return .functionDeclaration (← function ctx convert s false)
  | .generatorFunctionDeclaration => return .functionDeclaration (← function ctx convert s true)
  | .functionExpression => return .functionExpression (← function ctx convert s false)
  | .generatorFunction => return .functionExpression (← function ctx convert s true)
  | .keywordLiteral => keyword ctx s
  | .identifier | .propertyIdentifier | .shorthandPropertyIdentifier
  | .shorthandPropertyIdentifierPattern | .statementIdentifier | .undefined =>
    pure (.identifier (ctx.name s))
  | .number => number ctx s
  | .string =>
    pure (.literal (.string (String.ofList (Quoted.read (ctx.text s)))) (ctx.name s))
  | .regex => pure (.literal (.string (ctx.name s)) (ctx.name s))
  | .array => return .arrayExpression (← elements convert true s.tokens)
  | .arrayPattern => return .arrayPattern (← elements convert true s.tokens)
  | .object => return .objectExpression (← all (objectMember ctx convert) s.members)
  | .objectPattern => return .objectPattern (← all (patternMember ctx convert) s.members)
  | .pair | .pairPattern => pair ctx convert s
  | .methodDefinition => method ctx convert s
  | .assignmentPattern | .objectAssignmentPattern => do
    let left ← field ctx convert s "left"
    let right ← field ctx convert s "right"
    return .assignmentPattern left right
  | .sequenceExpression => return .sequenceExpression (← all convert s.members)
  | .assignmentExpression => do
    let left ← field ctx convert s "left"
    let right ← field ctx convert s "right"
    return .assignmentExpression .assign left right
  | .augmentedAssignmentExpression => augmentedAssignment ctx convert s
  | .binaryExpression => binaryExpression ctx convert s
  | .unaryExpression => unaryExpression ctx convert s
  | .updateExpression => updateExpression ctx convert s
  | .ternaryExpression => do
    let test ← field ctx convert s "condition"
    let consequent ← field ctx convert s "consequence"
    let alternate ← field ctx convert s "alternative"
    return .conditionalExpression test consequent alternate
  | .callExpression => callExpression ctx convert s
  | .newExpression => newExpression ctx convert s
  | .memberExpression => memberExpression ctx convert s "property" false
  | .subscriptExpression => memberExpression ctx convert s "index" true
  | .yieldExpression => do
    let argument ← optional convert s.firstMember?
    return .yieldExpression argument (s.hasToken "*")
  | .unsupported => ctx.refuse s.kind s
  | .program | .hashBangLine | .comment | .htmlComment | .elseClause | .finallyClause
  | .parenthesizedExpression | .computedPropertyName | .switchBody | .formalParameters
  | .arguments | .lexicalPart => throw (.misplaced s.kind (ctx.excerpt s))

/-- Converts a node, given how its parts are converted. A wrapper is replaced by what is in it; any
other node is entered into the identity table before its parts. -/
def step (s : Site) : Conversion Node :=
  match GrammarKind.ofName? s.kind with
  | none => throw (.unknownKind s.kind (ctx.excerpt s))
  | some kind =>
    if kind.isTransparent then firstMember ctx convert s
    else do
      let place ← register ctx s
      let construct ← construct ctx convert kind s
      finish place construct

end

/-- Converts a node whose subtree has at most so many levels. There is no tree without a level. -/
def upTo (ctx : BuildContext) : Nat → Converter
  | 0 => fun s => throw (.misplaced s.kind (ctx.excerpt s))
  | levels + 1 => step ctx (upTo ctx levels)

/-- Converts a node with its whole subtree. -/
def node (ctx : BuildContext) (s : Site) : Conversion Node :=
  upTo ctx s.tree.height s

end ScriptTree.Conversion
