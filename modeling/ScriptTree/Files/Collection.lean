import ScriptTree.Disk.Basic
import ScriptTree.Module.Location

/-!
# Collecting source files

Paths stand for the source files to be built: a file for itself, whatever its name, and a directory
for the scripts below it, except those in directories of modules. The files come in the order of
their paths, each once.
-/
namespace ScriptTree

/-- Whether a path has the extension of a script, in letters of either case. -/
def Path.isScript (p : Path) : Bool :=
  match p.extension? with
  | some octets => octets == Utf8.encode "js".toList || octets == Utf8.encode "jS".toList ||
      octets == Utf8.encode "Js".toList || octets == Utf8.encode "JS".toList
  | none => false

namespace Entry

mutual

/-- The scripts of an entry that a path leads to. -/
def scripts (path : Path) : Entry → List Path
  | .file _ => if path.isScript then [path] else []
  | .directory entries => scriptsBelow path entries

/-- The scripts of the entries of a directory that a path leads to. -/
def scriptsBelow (path : Path) : List (List UInt8 × Entry) → List Path
  | [] => []
  | (name, entry) :: rest =>
    (if name = Module.submoduleDirectory.octets then [] else scripts (path.join ⟨name⟩) entry) ++
      scriptsBelow path rest

end

end Entry

namespace Disk

/-- The source files that one path stands for. -/
def filesAt (d : Disk) (p : Path) : Except DiskError (List Path) :=
  (d.entry p).map fun
    | .file _ => [p]
    | .directory entries => Entry.scriptsBelow p entries

/-- The source files that paths stand for, or the first path that leads nowhere and why. -/
def collect (d : Disk) (paths : List Path) : Except (Path × DiskError) (List Path) := do
  let found ← paths.mapM fun p => (d.filesAt p).mapError (p, ·)
  return Path.sortedSet found.flatten

end Disk

end ScriptTree
