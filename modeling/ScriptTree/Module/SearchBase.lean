import ScriptTree.Module.Error

/-!
# Search bases

A search base is a URL below which modules are looked for. It is given by a directory or by a URL;
a location with a scheme of two characters or more is a URL.
-/
namespace ScriptTree

/-- Whether a base is searched before or after the others. -/
inductive BaseKind where
  | privileged
  | fallback
  deriving DecidableEq, Repr

/-- The name of a kind of base. -/
def BaseKind.name : BaseKind → String
  | privileged => "privileged"
  | fallback => "fallback"

/-- A URL below which modules are looked for. -/
structure SearchBase where
  url : Url
  kind : BaseKind
  deriving DecidableEq, Repr

namespace SearchBase

/-- The base of a directory. -/
def ofDirectory (d : Disk) (kind : BaseKind) (p : Path) : Except LookupError SearchBase :=
  match Url.ofDirectoryPath? (d.absolute p) with
  | some url => .ok ⟨url, kind⟩
  | none => .error (.notLocal (d.absolute p).toText)

/-- The base of a URL, which gets a slash at its end. -/
def ofUrl (kind : BaseKind) (text : List Char) : Except LookupError SearchBase :=
  match Url.parse text with
  | .ok url => .ok ⟨url.readAsDirectory, kind⟩
  | .error e => .error (.url e)

/-- Whether a location is a URL and not a path. -/
def isUrl (location : List Char) : Bool :=
  match Url.scheme? location with
  | some (scheme, _) => decide (1 < scheme.length)
  | none => false

/-- The base of a directory or of a URL. -/
def ofLocation (d : Disk) (kind : BaseKind) (location : List Char) :
    Except LookupError SearchBase :=
  if isUrl location then ofUrl kind location else ofDirectory d kind (.ofText location)

/-- The directory of a base, if it is that of a file on this machine. -/
def directory? (base : SearchBase) : Option Path :=
  if base.url.isFile then base.url.toFilePath? else none

end SearchBase

end ScriptTree
