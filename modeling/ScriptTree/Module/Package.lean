import ScriptTree.Json.Reader
import ScriptTree.Module.Error
import ScriptTree.Text.Encoding

/-!
# Packages

A package is a directory with a descriptor: a JSON object whose member `main` may name the module
that stands for the package.
-/
namespace ScriptTree

/-! ## Names of modules -/

/-- The suffix of a script. -/
def scriptSuffix : List Char := ".js".toList

/-- The suffix of data. -/
def dataSuffix : List Char := ".json".toList

/-- A name with the suffix of a script, added unless it is there. -/
def withScriptSuffix (name : List Char) : List Char :=
  if scriptSuffix.isSuffixOf name then name else name ++ scriptSuffix

/-- Whether a name ends as that of a script or of data does. -/
def hasModuleSuffix (name : List Char) : Bool :=
  scriptSuffix.isSuffixOf name || dataSuffix.isSuffixOf name

/-! ## Descriptors -/

/-- What a descriptor says, and where it is. -/
structure Package where
  path : Path
  main : Option String
  deriving DecidableEq, Repr

namespace Package

/-- The name of a descriptor. -/
def fileName : Path := .ofText "package.json".toList

/-- The levels to which the values of a descriptor may be nested. -/
def depthLimit : Nat := 127

/-- Reads the text of a descriptor: an object in JSON with numbers that doubles can hold. -/
def parse (path : Path) (text : List Char) : Except LookupError Package :=
  match Json.parse? depthLimit text with
  | some (.object members) =>
    let value := Json.object members
    if value.numbersInRange then .ok ⟨path, (value.field? "main").bind Json.string?⟩
    else .error .descriptor
  | _ => .error .descriptor

/-- Reads a descriptor. -/
def read (d : Disk) (path : Path) : Except LookupError Package :=
  match d.read path with
  | .ok bytes => parse path (decodeSource bytes)
  | .error e => .error (.disk e)

/-- The path of the main module, taken as a URL from the descriptor. -/
def mainPath (package : Package) : Except LookupError (Option Path) :=
  match package.main with
  | none => .ok none
  | some main =>
    match Url.ofFilePath? package.path with
    | none => .error (.notLocal package.path.toText)
    | some base =>
      match base.join (withScriptSuffix main.toList) with
      | .error e => .error (.url e)
      | .ok url =>
        match url.toFilePath? with
        | some path => .ok (some path)
        | none => .error (.notLocal url.toText)

end Package

end ScriptTree
