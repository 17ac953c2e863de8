import ScriptTree.Module.Package

/-!
# Locations of modules

A location names a module in one of three ways: as a file, to whose name the suffix of a script may
be added; as a package, by the main module of its descriptor; or as a directory with an index. A
location below a base is also looked for in the module directories above a context directory,
nearest first; `submoduleCandidates` lists these places.
-/
namespace ScriptTree.Module

/-- The name of the index of a directory. -/
def indexName : Path := .ofText "index.js".toList

/-- The name of a directory of modules. -/
def submoduleDirectory : Path := .ofText "node_modules".toList

/-- The path of a location on this machine. -/
def localPath (url : Url) : Except LookupError Path :=
  match url.toFilePath?, url.isFile with
  | some path, true => .ok path
  | _, _ => .error (.notLocal url.toText)

/-- The URL of a file. -/
def fileUrl (path : Path) : Except LookupError Url :=
  match Url.ofFilePath? path with
  | some url => .ok url
  | none => .error (.notLocal path.toText)

/-- A path with the suffix of a script, unless it ends as that of a module does. -/
def withSuffix (path : Path) : Path :=
  if hasModuleSuffix path.toText then path else path.extend (Utf8.encode scriptSuffix)

/-- What a location itself names. The main module of a package counts whether or not it is there. -/
def locateHere (d : Disk) (url : Url) : Except LookupError (Option Url) := do
  let path ← localPath url
  if d.isFile (withSuffix path) then return some (← fileUrl (withSuffix path))
  let descriptor := path.join Package.fileName
  let main ← if d.isFile descriptor then (← Package.read d descriptor).mainPath else pure none
  match main with
  | some main => return some (← fileUrl main)
  | none =>
    let index := path.join indexName
    if d.isFile index then return some (← fileUrl index)
    return none

/-- What follows a base in a location. -/
def relativeName? (url base : Url) : Option (List Char) :=
  let (text, start) := (url.toText, base.toText)
  if start.isPrefixOf text ∧ text ≠ start then some (text.drop start.length) else none

/-- The locations of a relative name in the module directories of a path and of those above it. -/
def submoduleCandidates (d : Disk) (context : Path) (relative : List Char) : List Url :=
  (context.ancestors.map (·.join submoduleDirectory)).filterMap fun directory =>
    if d.isDirectory directory then
      (Url.ofDirectoryPath? directory).bind fun base => (base.join relative).toOption
    else none

/-- The first location that a lookup finds; a lookup that fails is passed over. -/
def firstFound {m : Type → Type} [Monad m] {ε : Type} (lookup : Url → m (Except ε (Option Url))) :
    List Url → m (Option Url)
  | [] => pure none
  | url :: rest => do
    match ← lookup url with
    | .ok (some found) => return some found
    | _ => firstFound lookup rest

/-- What a location names, itself or, if `submodules` allows it, in a module directory. -/
def locate (d : Disk) (context : Path) (submodules : Bool) (url base : Url) :
    Except LookupError (Option Url) := do
  match ← locateHere d url, submodules, relativeName? url base with
  | none, true, some relative =>
    return (firstFound fun url => (pure (locateHere d url) : Id _))
      (submoduleCandidates d context relative)
  | found, _, _ => return found

/-- The file that a location names, or the file at that very location. -/
def locateFile (d : Disk) (context : Path) (url base : Url) : Except LookupError (Option Url) := do
  let found ← locate d context true url base
  let isFile ← match found with
    | some url => (localPath url).map d.isFile
    | none => pure false
  if isFile then return found
  let exact ← localPath url
  if d.isFile exact then return some (← fileUrl exact)
  return none

/-- The file of a location; a lookup that fails finds none. -/
def load? (d : Disk) (context : Path) (url base : Url) : Option Url :=
  match locateFile d context url base with
  | .ok found => found
  | .error _ => none

end ScriptTree.Module
