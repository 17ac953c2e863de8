import ScriptTree.Toml.Printer
import ScriptTree.Toml.Reader
import ScriptTree.Yaml.Reader

/-!
# Configuration files

A configuration is loaded from a file in one of two formats, which the extension of its name tells
apart, and saved in TOML. A loaded configuration has bases that can be read.
-/
namespace ScriptTree

/-- The format of a file: YAML by its extension, in letters of either case, and otherwise TOML. -/
def ConfigFormat.ofPath (p : Path) : ConfigFormat :=
  match p.extension?.bind Utf8.decode? with
  | some extension =>
    let extension := extension.map Char.toLower
    if extension = "yaml".toList ∨ extension = "yml".toList then .yaml else .toml
  | none => .toml

/-- The settings of a text in a format. -/
def ConfigFormat.parse? : ConfigFormat → List Char → Option Setting
  | toml, text => (Toml.parse? text).map Toml.toSetting
  | yaml, text => Yaml.parse? text

namespace Config

/-- The configuration that a text describes. -/
def ofText? (format : ConfigFormat) (text : List Char) : Option Config :=
  (format.parse? text).bind (ofSetting? format)

/-- Loads a configuration in a format. -/
def loadAs (d : Disk) (format : ConfigFormat) (p : Path) : Except ConfigError Config := do
  let bytes ← (d.read p).mapError fun cause => .unreadable p (some cause)
  match Utf8.decode? bytes with
  | none => throw (.unreadable p none)
  | some text =>
    match ofText? format text with
    | none => throw (.malformed format p)
    | some c =>
      let _ ← c.warnings d
      return c

/-- Loads a configuration in the format of its name. -/
def load (d : Disk) (p : Path) : Except ConfigError Config :=
  loadAs d (.ofPath p) p

/-- Saves a configuration. -/
def save (c : Config) (d : Disk) (p : Path) : Except ConfigError Disk :=
  match Toml.renderConfig? c with
  | none => throw .unspeakable
  | some text => (d.write p (Utf8.encode text)).mapError fun cause => .unwritable p cause

end Config

end ScriptTree
