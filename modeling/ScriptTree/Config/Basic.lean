import ScriptTree.Ast.Construct
import ScriptTree.Json.Basic
import ScriptTree.Module.Resolver

/-!
# Configurations

A configuration says where modules are looked for and how catch handlers are written. From it a
resolver is made; a base that is no URL is an error, a directory that is not there a warning.
-/
namespace ScriptTree

/-- The formats of configuration files. -/
inductive ConfigFormat where
  | toml
  | yaml
  deriving DecidableEq, Repr

/-- The name of a format. -/
def ConfigFormat.name : ConfigFormat → String
  | toml => "TOML"
  | yaml => "YAML"

/-- Why a configuration cannot be loaded, used or saved. What cannot be said in a file is a context
directory whose path is no text. -/
inductive ConfigError where
  | unreadable (path : Path) (cause : Option DiskError)
  | malformed (format : ConfigFormat) (path : Path)
  | badBase (location : List Char) (cause : LookupError)
  | unspeakable
  | unwritable (path : Path) (cause : DiskError)
  deriving DecidableEq, Repr

namespace ConfigError

/-- The lookup that failed, if the error comes from one. -/
def lookup? : ConfigError → Option LookupError
  | badBase _ cause => some cause
  | _ => none

/-- The message of an error and those of its causes, outermost first. -/
def messages : ConfigError → List String
  | unreadable path cause =>
    ("Failed to read config from " ++ String.ofList path.toText) ::
      [(cause.map DiskError.message).getD "stream did not contain valid UTF-8"]
  | malformed format path =>
    ["Failed to parse " ++ format.name ++ " config from " ++ String.ofList path.toText]
  | badBase location cause =>
    ("Invalid search base '" ++ String.ofList location ++ "'") :: cause.messages
  | unspeakable =>
    ["Failed to serialize config to TOML", "path contains invalid UTF-8 characters"]
  | unwritable path cause =>
    ["Failed to write config to " ++ String.ofList path.toText, cause.message]

/-- The message of an error. -/
def message (e : ConfigError) : String :=
  e.messages.headD ""

end ConfigError

/-- Where modules are looked for. -/
structure SearchSettings where
  privileged : List (List Char)
  fallback : List (List Char)
  context : Option Path
  deriving DecidableEq, Repr

namespace SearchSettings

/-- No bases, and no context directory. -/
def empty : SearchSettings :=
  ⟨[], [], none⟩

/-- The bases of locations. -/
def parseBases (d : Disk) (kind : BaseKind) (locations : List (List Char)) :
    Except ConfigError (List SearchBase) :=
  locations.mapM fun location =>
    (SearchBase.ofLocation d kind location).mapError (.badBase location)

/-- The privileged bases and the others. -/
def bases (s : SearchSettings) (d : Disk) :
    Except ConfigError (List SearchBase × List SearchBase) := do
  let privileged ← parseBases d .privileged s.privileged
  let fallback ← parseBases d .fallback s.fallback
  return (privileged, fallback)

/-- The resolver of settings; without a context directory it starts at the working directory. -/
def resolver (s : SearchSettings) (d : Disk) : Except ConfigError Resolver := do
  let (privileged, fallback) ← s.bases d
  return ⟨privileged, fallback, (s.context.map d.absolute).getD d.workingDirectory⟩

/-- Settings in which those of another one win wherever it has any. -/
def overriddenBy (s other : SearchSettings) : SearchSettings where
  privileged := if other.privileged = [] then s.privileged else other.privileged
  fallback := if other.fallback = [] then s.fallback else other.fallback
  context := other.context.or s.context

/-- Settings as JSON. -/
def toJson (s : SearchSettings) : Json :=
  let texts (locations : List (List Char)) : Json :=
    .array (locations.map fun location => .string (String.ofList location))
  let context := match s.context with
    | some path => [("context_dir", Json.string (String.ofList path.toText))]
    | none => []
  .object ([("privileged", texts s.privileged), ("fallback", texts s.fallback)] ++ context)

end SearchSettings

/-- A configuration. -/
structure Config where
  search : SearchSettings
  style : CatchStyle
  deriving DecidableEq, Repr

namespace Config

/-- The configuration that holds where nothing is said. -/
def default : Config :=
  ⟨.empty, .single⟩

/-- Warnings about directories that are not there. -/
def warnings (c : Config) (d : Disk) : Except ConfigError (List String) := do
  let (privileged, fallback) ← c.search.bases d
  let missing := ((privileged ++ fallback).filterMap SearchBase.directory?).filter
    (!d.isDirectory ·)
  let context := c.search.context.toList.filter (!d.isDirectory ·)
  return missing.map (fun p => "Search base " ++ String.ofList p.toText ++ " is not a directory") ++
    context.map fun p => "Context directory " ++ String.ofList p.toText ++ " does not exist"

/-- A configuration as JSON. -/
def toJson (c : Config) : Json :=
  .object [("resolver", c.search.toJson),
    ("ast", .object [("catch_handlers", .string c.style.name)])]

end Config

end ScriptTree
