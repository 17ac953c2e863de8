import ScriptTree.ParseTree.Basic
import ScriptTree.Text.Excerpt

/-!
# Build errors

The reasons for which a source text has no syntax tree, each with its message.
-/
namespace ScriptTree

/-- Why a build fails. An `excerpt` is one line of the source text concerned. -/
inductive BuildError where
  | faultySource (name : String) (line column : Nat) (excerpt : String)
  | unknownKind (kind excerpt : String)
  | unsupported (feature excerpt : String)
  | unknownKeyword (keyword excerpt : String)
  | unknownOperator (operator kind : String)
  | malformed (kind field excerpt : String)
  | misplaced (kind excerpt : String)
  deriving DecidableEq, Repr

namespace BuildError

/-- The message of an error. -/
def message : BuildError → String
  | faultySource name line column excerpt =>
    name ++ ":" ++ toString line ++ ":" ++ toString column ++ ": syntax error near `" ++ excerpt ++
      "`"
  | unknownKind kind excerpt => "unrecognized node type " ++ kind ++ " with source: " ++ excerpt
  | unsupported feature excerpt =>
    "unsupported syntax `" ++ feature ++ "` with source: " ++ excerpt
  | unknownKeyword keyword excerpt =>
    "unrecognized keyword literal `" ++ keyword ++ "` with source: " ++ excerpt
  | unknownOperator operator kind => "unrecognized operator `" ++ operator ++ "` in " ++ kind
  | malformed kind field excerpt =>
    "malformed " ++ kind ++ ": missing " ++ field ++ " in: " ++ excerpt
  | misplaced kind excerpt => "node type " ++ kind ++ " cannot appear here: " ++ excerpt

/-- Whether an error tells of a fault that the parser found. All others are about a construct. -/
def isFault : BuildError → Bool
  | faultySource .. => true
  | _ => false

end BuildError

/-- The text of a span on one line. -/
def Source.excerpt (source : Source) (span : Span) : String :=
  String.ofList (Text.excerpt (source.slice span))

/-- The error for a node that the parser marked: its place, and its text or what is missing. -/
def ParseTree.faultError (source : Source) (tree : ParseTree) : BuildError :=
  let label := tree.label
  .faultySource source.name (source.lineOf label) (source.columnOf label)
    (if label.missing then "missing " ++ label.kind else source.excerpt label.span)

/-- The first child in a field that must be there. -/
def ParseTree.Site.requiredField (source : Source) (s : ParseTree.Site) (kind name : String) :
    Except BuildError ParseTree.Site :=
  match s.field? name with
  | some child => .ok child
  | none => .error (.malformed kind name (source.excerpt s.span))

end ScriptTree
