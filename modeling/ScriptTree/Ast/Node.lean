import ScriptTree.Ast.Construct
import ScriptTree.Comment.Basic

/-!
# Syntax tree nodes

A node is a construct over nodes, with its place in the source and the documentation comment that
belongs to it. Whatever is computed from whole trees is a `Node.fold`: it gives every node together
with its construct over the results of its parts (`fold_eq`).
-/
namespace ScriptTree

/-- A node of the syntax tree. -/
inductive Node where
  | mk (construct : Construct Node) (span : Span) (line : Nat) (doc : Option Comment)

namespace Node

/-- The construct of a node. -/
def construct : Node → Construct Node
  | mk construct _ _ _ => construct

/-- The place of a node in the source. -/
def span : Node → Span
  | mk _ span _ _ => span

/-- The line on which a node starts. -/
def line : Node → Nat
  | mk _ _ line _ => line

/-- The documentation comment of a node. -/
def doc : Node → Option Comment
  | mk _ _ _ doc => doc

/-- The direct parts of a node in source order. -/
def parts (n : Node) : List Node :=
  n.construct.parts

/-- The parts of a node that a walk visits. -/
def children (n : Node) : List Node :=
  n.construct.children

section Fold

variable {β : Type} (step : Node → Construct β → β)

mutual

/-- Computes a result for a node from the results of its parts. -/
def fold : Node → β
  | mk construct span line doc => step (mk construct span line doc) (foldConstruct construct)

/-- Replaces the parts of a construct by their results. -/
def foldConstruct : Construct Node → Construct β
  | .expressionStatement expression => .expressionStatement (fold expression)
  | .blockStatement body => .blockStatement (foldList body)
  | .emptyStatement => .emptyStatement
  | .debuggerStatement => .debuggerStatement
  | .withStatement object body => .withStatement (fold object) (fold body)
  | .returnStatement argument => .returnStatement (foldOption argument)
  | .labeledStatement label body => .labeledStatement (fold label) (fold body)
  | .breakStatement label => .breakStatement (foldOption label)
  | .continueStatement label => .continueStatement (foldOption label)
  | .ifStatement test consequent alternate =>
    .ifStatement (fold test) (fold consequent) (foldOption alternate)
  | .switchStatement discriminant cases => .switchStatement (fold discriminant) (foldList cases)
  | .switchCase test consequent => .switchCase (foldOption test) (foldList consequent)
  | .throwStatement argument => .throwStatement (fold argument)
  | .tryStatement block handlers finalizer =>
    .tryStatement (fold block) (foldHandlers handlers) (foldOption finalizer)
  | .catchClause param body => .catchClause (foldOption param) (fold body)
  | .whileStatement test body => .whileStatement (fold test) (fold body)
  | .doWhileStatement body test => .doWhileStatement (fold body) (fold test)
  | .forStatement init test update body =>
    .forStatement (foldOption init) (foldOption test) (foldOption update) (fold body)
  | .forInStatement left right body => .forInStatement (fold left) (fold right) (fold body)
  | .forOfStatement left right body => .forOfStatement (fold left) (fold right) (fold body)
  | .functionDeclaration function => .functionDeclaration (foldFunction function)
  | .variableDeclaration declarations kind => .variableDeclaration (foldList declarations) kind
  | .variableDeclarator id init => .variableDeclarator (fold id) (foldOption init)
  | .functionExpression function => .functionExpression (foldFunction function)
  | .thisExpression => .thisExpression
  | .arrayExpression elements => .arrayExpression (foldHoles elements)
  | .objectExpression properties => .objectExpression (foldList properties)
  | .property key value kind computed shorthand method =>
    .property (fold key) (fold value) kind computed shorthand method
  | .sequenceExpression expressions => .sequenceExpression (foldList expressions)
  | .unaryExpression operator argument => .unaryExpression operator (fold argument)
  | .updateExpression operator leading argument =>
    .updateExpression operator leading (fold argument)
  | .binaryExpression operator left right => .binaryExpression operator (fold left) (fold right)
  | .logicalExpression operator left right => .logicalExpression operator (fold left) (fold right)
  | .assignmentExpression operator left right =>
    .assignmentExpression operator (fold left) (fold right)
  | .conditionalExpression test consequent alternate =>
    .conditionalExpression (fold test) (fold consequent) (fold alternate)
  | .callExpression callee arguments => .callExpression (fold callee) (foldList arguments)
  | .newExpression callee arguments => .newExpression (fold callee) (foldList arguments)
  | .memberExpression object member computed =>
    .memberExpression (fold object) (fold member) computed
  | .yieldExpression argument delegate => .yieldExpression (foldOption argument) delegate
  | .arrayPattern elements => .arrayPattern (foldHoles elements)
  | .objectPattern properties => .objectPattern (foldList properties)
  | .assignmentPattern left right => .assignmentPattern (fold left) (fold right)
  | .identifier name => .identifier name
  | .literal value raw => .literal value raw

/-- Replaces the parts of a function by their results. -/
def foldFunction : Function Node → Function β
  | ⟨id, params, body, generator⟩ => ⟨foldOption id, foldList params, fold body, generator⟩

/-- Replaces catch handlers by their results. -/
def foldHandlers : CatchHandlers Node → CatchHandlers β
  | .single handler => .single (foldOption handler)
  | .list handlers => .list (foldList handlers)

/-- The results of the nodes of a list. -/
def foldList : List Node → List β
  | [] => []
  | node :: nodes => fold node :: foldList nodes

/-- The result of a node that may be missing. -/
def foldOption : Option Node → Option β
  | none => none
  | some node => some (fold node)

/-- The results of the nodes of a list with holes. -/
def foldHoles : List (Option Node) → List (Option β)
  | [] => []
  | element :: elements => foldOption element :: foldHoles elements

end

theorem foldList_eq (nodes : List Node) : foldList step nodes = nodes.map (fold step) := by
  induction nodes with
  | nil => simp [foldList]
  | cons node nodes ih => simp [foldList, ih]

theorem foldOption_eq (node : Option Node) : foldOption step node = node.map (fold step) := by
  cases node <;> simp [foldOption]

theorem foldHoles_eq (elements : List (Option Node)) :
    foldHoles step elements = elements.map (·.map (fold step)) := by
  induction elements with
  | nil => simp [foldHoles]
  | cons element elements ih => simp [foldHoles, foldOption_eq, ih]

theorem foldFunction_eq (function : Function Node) :
    foldFunction step function = function.map (fold step) := by
  cases function
  simp [foldFunction, Function.map, foldList_eq, foldOption_eq]

theorem foldHandlers_eq (handlers : CatchHandlers Node) :
    foldHandlers step handlers = handlers.map (fold step) := by
  cases handlers <;> simp [foldHandlers, CatchHandlers.map, foldList_eq, foldOption_eq]

theorem foldConstruct_eq (construct : Construct Node) :
    foldConstruct step construct = construct.map (fold step) := by
  cases construct <;>
    simp [foldConstruct, Construct.map, foldList_eq, foldOption_eq, foldHoles_eq,
      foldFunction_eq, foldHandlers_eq]

/-- The result of a node is computed from its construct over the results of its parts. -/
theorem fold_eq (n : Node) : fold step n = step n (n.construct.map (fold step)) := by
  cases n
  simp [fold, construct, foldConstruct_eq]

end Fold

/-- The nodes of a subtree in the order in which a walk meets them: a node before its children, and
those from left to right. -/
def walk : Node → List Node :=
  fold fun node results => node :: results.children.flatten

/-- All nodes of a subtree in preorder, shorthand keys included. -/
def preorder : Node → List Node :=
  fold fun node results => node :: results.parts.flatten

theorem walk_eq (n : Node) : n.walk = n :: n.children.flatMap walk := by
  rw [walk, fold_eq, Construct.children_map, ← List.flatMap_def]
  rfl

theorem preorder_eq (n : Node) : n.preorder = n :: n.parts.flatMap preorder := by
  rw [preorder, fold_eq, Construct.parts_map, ← List.flatMap_def]
  rfl

/-- The key of a shorthand property comes right before its value. -/
theorem preorder_eq_key_children (n : Node) :
    n.preorder =
      n :: (n.construct.shorthandKey?.toList.flatMap preorder ++ n.children.flatMap preorder) := by
  rw [preorder_eq, parts, Construct.parts_eq, List.flatMap_append]
  rfl

end Node

end ScriptTree
