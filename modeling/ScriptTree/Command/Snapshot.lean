import ScriptTree.Files.Building
import ScriptTree.ParseTree.Listing

/-!
# Snapshots

The files that a run can see, in JSON: a list `files` of objects with a `path`, the content as a
`text` or in hexadecimal as `hex`, and for a source the `tree` that its parser has made of the text;
and a list `dirs` of directories. Paths are taken from the working directory.
-/
namespace ScriptTree

/-- A file with its content and the parse tree of its text. -/
structure SnapshotFile where
  path : Path
  content : Except DiskError (List UInt8)
  tree : Option ParseTree

/-- The files and directories that a run can see. -/
structure Snapshot where
  workingDirectory : Path
  directories : List Path
  files : List SnapshotFile

namespace Snapshot

/-- The names on a path, without dots. -/
def placeOf (s : Snapshot) (p : Path) : Place :=
  (s.workingDirectory.join p).components.filterMap fun
    | .name octets => some octets
    | _ => none

/-- The disk of a snapshot: first its directories are made and then its files, with the directories
above them. -/
def disk (s : Snapshot) : Disk :=
  let bare : Disk := { Disk.empty with workingDirectory := s.workingDirectory }
  let made := (s.workingDirectory :: s.directories).foldl
    (fun d p => d.makeDirectory (s.placeOf p)) bare
  s.files.foldl (fun d f => d.set (s.placeOf f.path) (.file f.content)) made

/-- The parse tree of a text without any node. -/
def emptyTree : ParseTree :=
  .node ⟨"", false, false, false, false, false, ⟨0, 0⟩, none, 0, none⟩ []

/-- The parser that knows the texts of a snapshot. -/
def parser (s : Snapshot) : Parser := fun text =>
  (s.files.findSome? fun f =>
    if f.content.toOption.map decodeSource = some text then f.tree else none).getD emptyTree

/-- Octets written in hexadecimal. -/
def octetsOfHex : List Char → List UInt8
  | a :: b :: rest =>
    UInt8.ofNat ((Decimal.digitValue? 16 a).getD 0 * 16 + (Decimal.digitValue? 16 b).getD 0) ::
      octetsOfHex rest
  | _ => []

/-- The content of a file, which can be opened. -/
def contentOf (j : Json) : Except DiskError (List UInt8) :=
  match (j.field? "hex").bind Json.string?, (j.field? "text").bind Json.string? with
  | some hex, _ => .ok (octetsOfHex hex.toList)
  | none, some text => .ok (Utf8.encode text.toList)
  | none, none => .ok []

/-- A path in JSON. -/
def pathOf (j : Json) : Path :=
  .ofText (j.string?.getD "").toList

/-- The items of a member, if it is there. -/
def itemsOf (name : String) (j : Json) : List Json :=
  ((j.field? name).bind Json.items?).getD []

/-- Reads a snapshot. -/
def ofJson (workingDirectory : Path) (j : Json) : Snapshot where
  workingDirectory
  directories := (itemsOf "dirs" j).map pathOf
  files := (itemsOf "files" j).map fun f =>
    ⟨pathOf ((f.field? "path").getD .null), contentOf f,
      (f.field? "tree").bind ParseTree.ofJson?⟩

end Snapshot

end ScriptTree
