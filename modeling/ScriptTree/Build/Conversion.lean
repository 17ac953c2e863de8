import ScriptTree.Ast.Node
import ScriptTree.Build.Error
import ScriptTree.Build.Identity
import ScriptTree.Comment.Registry
import ScriptTree.ParseTree.Comments

/-!
# Conversions

A conversion turns a node of a parse tree into a node of the syntax tree. On its way it enters every
output node into the identity table and takes documentation comments from the registry; if it fails,
what it entered before stays. This module has the steps that all constructs share.
-/
namespace ScriptTree

/-- What a build works with: the source and the style of catch handlers. -/
structure BuildContext where
  source : Source
  style : CatchStyle

/-- What a build keeps track of. -/
structure BuildState where
  comments : CommentRegistry
  table : IdentityTable

/-- The state of a build that has not started. -/
def BuildState.empty : BuildState :=
  ⟨.empty, .empty⟩

/-- A computation that may fail, and that keeps the state even then. -/
abbrev Conversion := EStateM BuildError BuildState

/-- How the parts of a construct are converted. -/
abbrev Converter := ParseTree.Site → Conversion Node

namespace BuildContext

open ParseTree (Site)

variable (ctx : BuildContext)

/-- The text of a node. -/
def text (s : Site) : List Char :=
  ctx.source.slice s.span

/-- The text of a node as a string. -/
def name (s : Site) : String :=
  String.ofList (ctx.text s)

/-- The text of a node on one line. -/
def excerpt (s : Site) : String :=
  ctx.source.excerpt s.span

/-- The line on which a node starts. -/
def line (s : Site) : Nat :=
  ctx.source.lineOf s.label

/-- Refuses a node as beyond the language level. -/
def refuse {α : Type} (feature : String) (s : Site) : Conversion α :=
  throw (.unsupported feature (ctx.excerpt s))

/-- The first child in a field that must be there. -/
def field (s : Site) (name : String) : Conversion Site :=
  match s.requiredField ctx.source s.kind name with
  | .ok child => pure child
  | .error e => throw e

/-- The first member, which must be there. -/
def firstMember (s : Site) : Conversion Site :=
  match s.firstMember? with
  | some child => pure child
  | none => throw (.malformed s.kind "child" (ctx.excerpt s))

end BuildContext

namespace Conversion

open ParseTree (Site)

/-- Enters an origin into the identity table and gives its place there. -/
def enter (origin : Origin) : Conversion Nat := fun state =>
  .ok (state.table.register origin).1 { state with table := (state.table.register origin).2 }

/-- Takes the documentation comment with an identity, if there is one to take. -/
def takeDoc : Option Nat → Conversion (Option Comment)
  | none => pure none
  | some id => fun state =>
    .ok (state.comments.attach id).1 { state with comments := (state.comments.attach id).2 }

/-- Makes the output node of the entry at a place of the identity table. -/
def finish (place : Nat) (construct : Construct Node) : Conversion Node := do
  let state ← get
  let origin := (state.table.origin? place).getD .missing
  let doc ← takeDoc origin.doc
  return .mk construct origin.span origin.line doc

section

variable (ctx : BuildContext) (convert : Converter)

/-- Enters a node of the parse tree together with the documentation comment before it. -/
def register (s : Site) : Conversion Nat :=
  enter ⟨s.kind, some s.id, s.span, ctx.line s, (s.docComment? ctx.source).map (·.label.id)⟩

/-- Enters a node of the parse tree whose documentation comment belongs to another output node. -/
def registerBare (s : Site) : Conversion Nat :=
  enter ⟨s.kind, some s.id, s.span, ctx.line s, none⟩

/-- Enters an output node that no single node of the parse tree stands for. -/
def registerSpan (kind : String) (span : Span) (line : Nat) : Conversion Nat :=
  enter ⟨kind, none, span, line, none⟩

/-- Converts nodes one after another. -/
def all : List Site → Conversion (List Node)
  | [] => pure []
  | s :: rest => do
    let node ← convert s
    let nodes ← all rest
    return node :: nodes

/-- Converts a node that may be missing. -/
def optional : Option Site → Conversion (Option Node)
  | none => pure none
  | some s => do
    let node ← convert s
    return some node

/-- Converts the child in a field that must be there. -/
def field (s : Site) (name : String) : Conversion Node := do
  let child ← ctx.field s name
  convert child

/-- Converts the child in a field that may be missing. -/
def optionalField (s : Site) (name : String) : Conversion (Option Node) :=
  optional convert (s.field? name)

/-- Converts the first member. -/
def firstMember (s : Site) : Conversion Node := do
  let child ← ctx.firstMember s
  convert child

/-- An identifier node for a name whose documentation comment belongs to another node. -/
def bareIdentifier (s : Site) : Conversion Node := do
  let place ← registerBare ctx s
  finish place (.identifier (ctx.name s))

end

end Conversion

end ScriptTree
