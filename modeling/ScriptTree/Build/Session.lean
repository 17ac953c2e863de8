import ScriptTree.Ast.Output
import ScriptTree.Build.Constructs
import ScriptTree.ParseTree.Cursor

/-!
# Builds

A build makes the syntax tree of one source from its parse tree. A marked parse tree is refused at
once; otherwise all comments are recorded, the statements are converted in order, and documentation
comments that no node has taken go to the program. A session runs builds one after another with the
same options; it resets its state before each.
-/
namespace ScriptTree

/-- Records comment nodes in order. -/
def CommentRegistry.recordAll (source : Source) (nodes : List ParseTree) (r : CommentRegistry) :
    CommentRegistry :=
  nodes.foldl (fun r t => (r.record t.label.id (t.toComment source)).2) r

/-- What one build leaves behind: the program or the error, and the final state. -/
structure BuildOutcome where
  result : Except BuildError Program
  state : BuildState

namespace BuildContext

variable (ctx : BuildContext)

/-- Converts the statements of a program. -/
def convertBody (root : ParseTree) : Conversion (List Node) :=
  Conversion.all (Conversion.node ctx) (ParseTree.rootSite root).members

/-- The program of converted statements and the final state of the registry. -/
def assemble (root : ParseTree) (body : List Node) (comments : CommentRegistry) : Program :=
  let unattached := comments.unattached root.programStart?
  { body, length := ctx.source.byteLength, comments := comments.all, leading := unattached.1,
    trailing := unattached.2 }

/-- The state in which all comments of a parse tree are recorded. -/
def recorded (root : ParseTree) (state : BuildState) : BuildState :=
  { state with comments := state.comments.recordAll ctx.source root.collectComments }

/-- Builds the syntax tree of a source from its parse tree, going on from a state. -/
def run (root : ParseTree) (state : BuildState) : BuildOutcome :=
  match root.fault? with
  | some fault => ⟨.error (fault.faultError ctx.source), state⟩
  | none =>
    match ctx.convertBody root (ctx.recorded root state) with
    | .ok body state => ⟨.ok (ctx.assemble root body state.comments), state⟩
    | .error e state => ⟨.error e, state⟩

/-- Builds the syntax tree of a source from its parse tree. -/
def build (root : ParseTree) : BuildOutcome :=
  ctx.run root .empty

end BuildContext

/-- A builder in use: its options, and what the last build left behind. -/
structure BuildSession where
  style : CatchStyle
  state : BuildState
  program : Option Program

namespace BuildSession

/-- A session that has built nothing yet. -/
def start (style : CatchStyle) : BuildSession :=
  ⟨style, .empty, none⟩

/-- Forgets what the last build left behind: comments, identities and program. -/
def reset (s : BuildSession) : BuildSession :=
  { s with state := { comments := .empty, table := .empty }, program := none }

/-- Builds one source from a state that has been reset; the program is kept if there is one. -/
def build (s : BuildSession) (source : Source) (root : ParseTree) :
    Except BuildError Program × BuildSession :=
  let s := s.reset
  let outcome := BuildContext.run ⟨source, s.style⟩ root s.state
  (outcome.result, { s with state := outcome.state, program := outcome.result.toOption })

/-- The number of nodes that the last build entered into the identity table. -/
def nodeCount (s : BuildSession) : Nat :=
  s.state.table.size

end BuildSession

end ScriptTree
