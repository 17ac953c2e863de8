import ScriptTree.Module.Location
import ScriptTree.Module.SearchBase

/-!
# Resolving module names

A resolver looks for a module below its privileged bases and then below the others, in order. The
name is taken as a URL relative to a base if it has only the characters of one, and otherwise as a
path.
-/
namespace ScriptTree

/-- A module that was found: its name, its file, and the base below which it was found. -/
structure ResolvedModule where
  id : List Char
  url : Url
  path : Path
  base : SearchBase
  deriving DecidableEq, Repr

/-- A module as JSON. -/
def ResolvedModule.toJson (m : ResolvedModule) : Json :=
  let text (cs : List Char) : Json := .string (String.ofList cs)
  .object [("id", text m.id), ("uri", text m.url.toText), ("path", text m.path.toText),
    ("base", text m.base.url.toText), ("base_kind", .string m.base.kind.name)]

/-- Search bases and the directory from which module directories are looked for. -/
structure Resolver where
  privileged : List SearchBase
  fallback : List SearchBase
  context : Path
  deriving DecidableEq, Repr

namespace Resolver

/-- Whether all characters of a name may stand in a URL. -/
def isReference (name : List Char) : Bool :=
  !name.isEmpty && name.all fun c =>
    c.isAlphanum || "-._~:/?#[]@!$&'()*+,;=%".toList.contains c

/-- The location of a name taken as a path. A script wins over a directory of its name. -/
def pathLocation? (d : Disk) (base : SearchBase) (name : List Char) : Option Url := do
  let specified := Path.ofText name
  let path ← if specified.isAbsolute then some specified
    else base.directory?.map (·.join specified)
  let script := Path.ofText (withScriptSuffix path.toText)
  Url.ofFilePath? (if d.isDirectory path && d.isFile script then script else path)

/-- The location of a name under a base. -/
def location? (d : Disk) (base : SearchBase) (name : List Char) : Option Url :=
  match if isReference name then (base.url.join name).toOption else none with
  | some url => some url
  | none => pathLocation? d base name

/-- The module of a name under one base. -/
def resolveAt (d : Disk) (context : Path) (name : List Char) (base : SearchBase) :
    Option ResolvedModule := do
  let url ← location? d base name
  let found ← Module.load? d context url base.url
  return ⟨name, found, ← found.toFilePath?, base⟩

/-- The module of a name under the first of some bases that has it. -/
def resolveIn (r : Resolver) (d : Disk) (bases : List SearchBase) (name : List Char) :
    Option ResolvedModule :=
  bases.findSome? (resolveAt d r.context name)

/-- The module of a name: privileged bases come before the others. -/
def resolve (r : Resolver) (d : Disk) (name : List Char) : Option ResolvedModule :=
  (r.resolveIn d r.privileged name).or (r.resolveIn d r.fallback name)

end Resolver

/-- Why a module cannot be loaded. -/
inductive LoadError where
  | notFound (name : List Char)
  | unreadable (path : Path) (cause : DiskError)
  deriving DecidableEq, Repr

/-- The message of an error. -/
def LoadError.message : LoadError → String
  | notFound name => "module not found: " ++ String.ofList name
  | unreadable path cause =>
    "failed to read module " ++ String.ofList path.toText ++ ": " ++ cause.message

/-- The module of a name and its text. -/
def Resolver.load (r : Resolver) (d : Disk) (name : List Char) :
    Except LoadError (ResolvedModule × List Char) :=
  match r.resolve d name with
  | none => .error (.notFound name)
  | some found =>
    match d.read found.path with
    | .ok bytes => .ok (found, decodeSource bytes)
    | .error e => .error (.unreadable found.path e)

end ScriptTree
