import ScriptTree.Disk.Basic
import ScriptTree.Url.FilePath

/-!
# Failed lookups

Why one attempt to find a module fails.
-/
namespace ScriptTree

/-- Why a lookup fails: on the disk, in a package descriptor, in a URL, or because a location is not
on this machine. -/
inductive LookupError where
  | disk (cause : DiskError)
  | descriptor
  | url (cause : UrlError)
  | notLocal (location : List Char)
  deriving DecidableEq, Repr

namespace LookupError

/-- The message of an error and those of its causes, outermost first. -/
def messages : LookupError → List String
  | disk cause => [cause.message]
  | descriptor => ["invalid package descriptor"]
  | url cause => ["invalid module URI: " ++ cause.message, cause.message]
  | notLocal location => ["not a local file location: " ++ String.ofList location]

/-- The message of an error. -/
def message (e : LookupError) : String :=
  e.messages.headD ""

end LookupError

end ScriptTree
