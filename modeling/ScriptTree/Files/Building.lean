import ScriptTree.Build.Session
import ScriptTree.Files.Collection
import ScriptTree.Text.Encoding

/-!
# Building files

Reads source files and builds their syntax trees. The parser is given: it makes the parse tree of a
text.
-/
namespace ScriptTree

/-- Makes the parse tree of a text. -/
abbrev Parser := List Char → ParseTree

/-- Why files cannot be collected or a file cannot be built. -/
inductive FileError where
  | missing (description : String) (path : Path)
  | unwalkable (path : Path) (cause : DiskError)
  | unreadable (path : Path) (cause : DiskError)
  | unbuildable (path : Path) (cause : BuildError)

namespace FileError

/-- The build that failed, if the error comes from one. -/
def build? : FileError → Option BuildError
  | unbuildable _ cause => some cause
  | _ => none

/-- The message of an error and those of its causes, outermost first. -/
def messages : FileError → List String
  | missing description path => [description ++ " does not exist: " ++ String.ofList path.toText]
  | unwalkable path cause =>
    let name := String.ofList path.toText
    ["Failed to walk " ++ name, "IO error for operation on " ++ name ++ ": " ++ cause.message,
      cause.message]
  | unreadable path cause => ["Failed to read " ++ String.ofList path.toText, cause.message]
  | unbuildable path cause =>
    ["Failed to build AST for " ++ String.ofList path.toText, cause.message]

/-- The message of an error. -/
def message (e : FileError) : String :=
  e.messages.headD ""

end FileError

namespace Disk

/-- Refuses a path that leads nowhere. -/
def require (d : Disk) (description : String) (p : Path) : Except FileError Unit :=
  if d.contains p then .ok () else .error (.missing description p)

/-- The text of a source file. -/
def readSource (d : Disk) (p : Path) : Except DiskError (List Char) :=
  (d.read p).map decodeSource

/-- The source files that paths stand for. -/
def sourceFiles (d : Disk) (paths : List Path) : Except FileError (List Path) :=
  (d.collect paths).mapError fun (p, cause) => .unwalkable p cause

end Disk

/-- Reads a file and builds its syntax tree; a file that cannot be read leaves the session as it
is. -/
def BuildSession.buildFile (s : BuildSession) (parser : Parser) (d : Disk) (p : Path) :
    Except FileError Program × BuildSession :=
  match d.readSource p with
  | .error cause => (.error (.unreadable p cause), s)
  | .ok text =>
    let (result, s) := s.build ⟨String.ofList p.toText, text⟩ (parser text)
    (result.mapError (.unbuildable p), s)

end ScriptTree
