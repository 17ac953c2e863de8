import ScriptTree.Path.Basic

/-!
# Files and directories

A disk is a tree of files and directories with a working directory. A path is followed part by part
from the root; each part but the last must lead to a directory, and so must whatever a slash, a dot
or two dots come after. The names on the way, without dots, are the place of the entry, so two paths
lead to the same entry exactly when they have the same place.
-/
namespace ScriptTree

/-- Why an entry cannot be reached, read or written. -/
inductive DiskError where
  | notFound
  | notDirectory
  | isDirectory
  deriving DecidableEq, Repr

/-- The message of an error, with its number. -/
def DiskError.message : DiskError → String
  | notFound => "No such file or directory (os error 2)"
  | notDirectory => "Not a directory (os error 20)"
  | isDirectory => "Is a directory (os error 21)"

/-- A file with its octets, or with the error that opening it gives, or a directory with its named
entries. -/
inductive Entry where
  | file (content : Except DiskError (List UInt8))
  | directory (entries : List (List UInt8 × Entry))
  deriving Repr, Inhabited

/-- The names that lead from the root to an entry. -/
abbrev Place := List (List UInt8)

namespace Entry

/-- Whether an entry is a file. -/
def isFile : Entry → Bool
  | .file _ => true
  | .directory _ => false

/-- The entry at a place below. -/
def at? : Entry → Place → Option Entry
  | entry, [] => some entry
  | .file _, _ :: _ => none
  | .directory entries, name :: rest => (entries.lookup name).bind (at? · rest)

/-- Named entries in which the one of a name is set, changed or removed. -/
def alterNamed (name : List UInt8) (change : Option Entry → Option Entry) :
    List (List UInt8 × Entry) → List (List UInt8 × Entry)
  | [] => ((change none).map (name, ·)).toList
  | (other, entry) :: rest =>
    if other = name then ((change (some entry)).map (name, ·)).toList ++ rest
    else (other, entry) :: alterNamed name change rest

/-- An entry in which the one at a place below is set, changed or removed; `make` stands for a
missing directory on the way. -/
def alter (make : Option Entry) (change : Option Entry → Option Entry) : Place → Entry → Entry
  | [], entry => (change (some entry)).getD entry
  | _ :: _, .file content => .file content
  | [name], .directory entries => .directory (alterNamed name change entries)
  | name :: next :: rest, .directory entries =>
    let below (entry : Option Entry) := (entry.or make).map (alter make change (next :: rest))
    .directory (alterNamed name below entries)

end Entry

/-- A tree of files and directories and the path from which others are taken. -/
structure Disk where
  root : Entry
  workingDirectory : Path
  deriving Repr, Inhabited

namespace Disk

/-- A disk with nothing but its root, which is the working directory. -/
def empty : Disk :=
  ⟨.directory [], ⟨[Path.slash]⟩⟩

/-- A path taken from the working directory. -/
def absolute (d : Disk) (p : Path) : Path :=
  d.workingDirectory.join p

/-! ## Following paths -/

/-- Goes from a place along one part of a path. -/
def step (root : Entry) (place : Place) (part : List UInt8) : Except DiskError Place :=
  match root.at? place with
  | some (.directory entries) =>
    match Path.component? part with
    | some .up => .ok place.dropLast
    | some (.name name) =>
      if (entries.lookup name).isSome then .ok (place ++ [name]) else .error .notFound
    | _ => .ok place
  | some (.file _) => .error .notDirectory
  | none => .error .notFound

/-- The place to which a path leads. -/
def locate (d : Disk) (p : Path) : Except DiskError Place :=
  if p.octets = [] then .error .notFound
  else (Text.pieces Path.slash (d.absolute p).octets).foldlM (step d.root) []

/-- The entry to which a path leads. -/
def entry (d : Disk) (p : Path) : Except DiskError Entry := do
  match d.root.at? (← d.locate p) with
  | some e => return e
  | none => throw .notFound

/-- Whether a path leads to an entry. -/
def contains (d : Disk) (p : Path) : Bool :=
  (d.locate p).isOk

/-- Whether a path leads to a file. -/
def isFile (d : Disk) (p : Path) : Bool :=
  match d.entry p with
  | .ok (.file _) => true
  | _ => false

/-- Whether a path leads to a directory. -/
def isDirectory (d : Disk) (p : Path) : Bool :=
  match d.entry p with
  | .ok (.directory _) => true
  | _ => false

/-- The octets of a file, if it can be opened. -/
def read (d : Disk) (p : Path) : Except DiskError (List UInt8) := do
  match ← d.entry p with
  | .file content => content
  | .directory _ => throw .isDirectory

/-! ## Changes -/

/-- A disk with an entry set at a place; missing directories on the way are made. -/
def set (d : Disk) (place : Place) (e : Entry) : Disk :=
  { d with root := d.root.alter (some (.directory [])) (fun _ => some e) place }

/-- A disk without the entry at a place. -/
def remove (d : Disk) (place : Place) : Disk :=
  { d with root := d.root.alter none (fun _ => none) place }

/-- A disk with a directory at a place, unless an entry is there already. -/
def makeDirectory (d : Disk) (place : Place) : Disk :=
  { d with
    root := d.root.alter (some (.directory [])) (fun e => e.or (some (.directory []))) place }

/-- Writes a file in a directory that is there. The path must end in a name, and that must not be
the name of a directory or of a file that cannot be opened. -/
def write (d : Disk) (p : Path) (content : List UInt8) : Except DiskError Disk := do
  if p.octets = [] then throw .notFound
  let parts := (Text.pieces Path.slash (d.absolute p).octets).reverse
  let place ← (parts.dropWhile (· == [])).tail.reverse.foldlM (step d.root) []
  match d.root.at? place, parts.head?.bind Path.component? with
  | some (.directory entries), some (.name name) =>
    match entries.lookup name with
    | some (.directory _) => throw .isDirectory
    | some (.file (.error cause)) => throw cause
    | _ => return d.set (place ++ [name]) (.file (.ok content))
  | some (.directory _), _ => throw .isDirectory
  | some (.file _), _ => throw .notDirectory
  | none, _ => throw .notFound

end Disk

end ScriptTree
