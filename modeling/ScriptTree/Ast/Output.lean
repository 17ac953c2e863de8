import ScriptTree.Ast.Node

/-!
# Syntax trees as JSON

The output form of nodes. An object starts with the type, goes on with the fields of the construct
in a fixed order, and ends with the range, the location and the documentation comment if there is
one. Fields that the language level leaves unused are written with their constant values.
-/
namespace ScriptTree

/-- A literal's value; doubles outside the ordinary numbers are `null`. -/
def LiteralValue.toJson : LiteralValue → Json
  | null => .null
  | boolean b => .bool b
  | number x => .ofBinary64 x
  | string s => .string s

/-- The fields of the handlers: one handler or `null`, or a list. -/
def CatchHandlers.fields : CatchHandlers Json → List (String × Json)
  | single handler => [("handler", .ofOption handler)]
  | list handlers => [("handlers", .array handlers)]

/-- The fields of a function. -/
def Function.fields (f : Function Json) : List (String × Json) :=
  [("id", .ofOption f.id), ("params", .array f.params), ("defaults", .array []), ("body", f.body),
    ("rest", .null), ("generator", .bool f.generator), ("expression", .bool false)]

/-- The fields of a construct whose parts are in output form. -/
def Construct.fields : Construct Json → List (String × Json)
  | expressionStatement expression => [("expression", expression)]
  | blockStatement body => [("body", .array body)]
  | emptyStatement => []
  | debuggerStatement => []
  | withStatement object body => [("object", object), ("body", body)]
  | returnStatement argument => [("argument", .ofOption argument)]
  | labeledStatement label body => [("label", label), ("body", body)]
  | breakStatement label => [("label", .ofOption label)]
  | continueStatement label => [("label", .ofOption label)]
  | ifStatement test consequent alternate =>
    [("test", test), ("consequent", consequent), ("alternate", .ofOption alternate)]
  | switchStatement discriminant cases =>
    [("discriminant", discriminant), ("cases", .array cases)]
  | switchCase test consequent => [("test", .ofOption test), ("consequent", .array consequent)]
  | throwStatement argument => [("argument", argument)]
  | tryStatement block handlers finalizer =>
    ("block", block) :: handlers.fields ++
      [("guardedHandlers", .array []), ("finalizer", .ofOption finalizer)]
  | catchClause param body => [("param", .ofOption param), ("body", body)]
  | whileStatement test body => [("test", test), ("body", body)]
  | doWhileStatement body test => [("body", body), ("test", test)]
  | forStatement init test update body =>
    [("init", .ofOption init), ("test", .ofOption test), ("update", .ofOption update),
      ("body", body)]
  | forInStatement left right body =>
    [("left", left), ("right", right), ("body", body), ("each", .bool false)]
  | forOfStatement left right body => [("left", left), ("right", right), ("body", body)]
  | functionDeclaration function => function.fields
  | variableDeclaration declarations kind =>
    [("declarations", .array declarations), ("kind", .string kind.keyword)]
  | variableDeclarator id init => [("id", id), ("init", .ofOption init)]
  | functionExpression function => function.fields
  | thisExpression => []
  | arrayExpression elements => [("elements", .array (elements.map .ofOption))]
  | objectExpression properties => [("properties", .array properties)]
  | property key value kind computed shorthand method =>
    [("key", key), ("value", value), ("kind", .string kind.name), ("computed", .bool computed),
      ("shorthand", .bool shorthand), ("method", .bool method)]
  | sequenceExpression expressions => [("expressions", .array expressions)]
  | unaryExpression operator argument =>
    [("operator", .string operator.symbol), ("prefix", .bool true), ("argument", argument)]
  | updateExpression operator leading argument =>
    [("operator", .string operator.symbol), ("prefix", .bool leading), ("argument", argument)]
  | binaryExpression operator left right =>
    [("operator", .string operator.symbol), ("left", left), ("right", right)]
  | logicalExpression operator left right =>
    [("operator", .string operator.symbol), ("left", left), ("right", right)]
  | assignmentExpression operator left right =>
    [("operator", .string operator.symbol), ("left", left), ("right", right)]
  | conditionalExpression test consequent alternate =>
    [("test", test), ("consequent", consequent), ("alternate", alternate)]
  | callExpression callee arguments => [("callee", callee), ("arguments", .array arguments)]
  | newExpression callee arguments => [("callee", callee), ("arguments", .array arguments)]
  | memberExpression object member computed =>
    [("object", object), ("property", member), ("computed", .bool computed)]
  | yieldExpression argument delegate =>
    [("argument", .ofOption argument), ("delegate", .bool delegate)]
  | arrayPattern elements => [("elements", .array (elements.map .ofOption))]
  | objectPattern properties => [("properties", .array properties)]
  | assignmentPattern left right => [("left", left), ("right", right)]
  | identifier name => [("name", .string name)]
  | literal value raw => [("value", value.toJson), ("raw", .string raw)]

/-- Comments as an optional field: an empty list is left out. -/
def Comment.listField (name : String) (comments : List Comment) : List (String × Json) :=
  if comments.isEmpty then [] else [(name, .array (comments.map Comment.toJson))]

/-- A node in output form. -/
def Node.toJson : Node → Json :=
  fold fun node results =>
    .object (("type", .string node.construct.typeName) :: results.fields ++
      [("range", node.span.toJson), ("loc", .location node.line)] ++
      Comment.listField "leadingComments" node.doc.toList)

/-- A whole program: its statements, all its comments in source order, and the documentation
comments that belong to no node, before and after the start of its first construct. -/
structure Program where
  body : List Node
  length : Nat
  comments : List Comment
  leading : List Comment
  trailing : List Comment

namespace Program

/-- The place of a program: the whole text. -/
def span (p : Program) : Span :=
  ⟨0, p.length⟩

/-- All nodes in the order in which a walk meets them. -/
def walk (p : Program) : List Node :=
  p.body.flatMap Node.walk

/-- All nodes in preorder, shorthand keys included. -/
def nodes (p : Program) : List Node :=
  p.body.flatMap Node.preorder

/-- The number of nodes that a walk meets. -/
def nodeCount (p : Program) : Nat :=
  p.walk.length

/-- A program in output form. -/
def toJson (p : Program) : Json :=
  .object ([("type", .string "Program"), ("body", .array (p.body.map Node.toJson)),
    ("range", p.span.toJson), ("loc", .location 1),
    ("comments", .array (p.comments.map Comment.toJson))] ++
    Comment.listField "leadingComments" p.leading ++
    Comment.listField "trailingComments" p.trailing)

end Program

end ScriptTree
