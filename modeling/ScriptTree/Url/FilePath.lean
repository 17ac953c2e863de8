import ScriptTree.Path.Basic
import ScriptTree.Url.Parser

/-!
# URLs and file paths

An absolute path is written as a URL by its components, each percent encoded. The path of a URL on
this machine is read back by decoding it.
-/
namespace ScriptTree.Url

/-- The text of a component in a URL. -/
def fileSegment : Path.Component → List Char
  | .name octets => Percent.encodeOctets Percent.inFileName octets
  | .up => ['.', '.']
  | .here | .root => []

/-- The URL of a file with names. -/
def ofSegments (segments : List (List Char)) : Url :=
  ⟨fileScheme, some localAuthority, .names segments, none, none⟩

/-- The URL of a file; only an absolute path has one. -/
def ofFilePath? (p : Path) : Option Url :=
  if p.isAbsolute then
    let segments := (p.components.drop 1).map fileSegment
    some (ofSegments (if segments = [] then [[]] else segments))
  else none

/-- The URL of a directory, which ends in a slash. -/
def ofDirectoryPath? (p : Path) : Option Url :=
  (ofFilePath? p).map asDirectory

/-- Whether a text of octets is a slash, a letter and a colon or a bar. -/
def endsInDrive (octets : List UInt8) : Bool :=
  match octets.reverse with
  | mark :: letter :: _ :: _ =>
    (Char.ofNat letter.toNat).isAlpha && letter.toNat < 128 && (mark == 0x3A || mark == 0x7C)
  | _ => false

/-- The path on this machine that a URL names. -/
def toFilePath? (u : Url) : Option Path :=
  match u.path, (u.authority.map Authority.host).getD [] with
  | .plain _, _ | .names [], _ => none
  | .names segments, host =>
    if host = [] ∨ host = "localhost".toList then
      let octets := segments.flatMap fun segment => Path.slash :: Percent.decode segment
      some ⟨if endsInDrive octets then octets ++ [Path.slash] else octets⟩
    else none

end ScriptTree.Url
