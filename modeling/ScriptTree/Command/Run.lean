import ScriptTree.Command.Arguments
import ScriptTree.Config.File
import ScriptTree.Files.Sharing

/-!
# Running commands

A run takes a command line and a disk to what is written: the output, the messages, a changed disk
and an exit code. The run fails as a whole on the first error of its options; a file that cannot be
built only counts as failed.
-/
namespace ScriptTree.Command

/-- What a run depends on, besides the disk: the parser, the milliseconds that it takes, and whether
the reader's terminal has colors. -/
structure Environment where
  parser : Parser
  elapsed : Nat
  colored : Bool

/-- What a run leaves behind, with the path of the file that it has written, if any. -/
structure Outcome where
  code : Nat
  output : String
  messages : String
  disk : Disk
  written : Option Path

/-- The line of the version. -/
def versionText : String :=
  Report.line "jsdoc-bridge 0.3.0"

/-- The lines of the help. -/
def helpText : String :=
  Report.line "Usage: jsdoc-bridge [OPTIONS] <COMMAND>" ++ Report.line "" ++
    Report.line "Commands:" ++
    Report.line "  parse    Build syntax trees for files or directories" ++
    Report.line "  resolve  Resolve a module specifier to a file"

/-- An error with its causes in one text. -/
def chain (messages : List String) : String :=
  ": ".intercalate messages

/-- The configuration at a path, or the one that holds without any. -/
def loadConfig (d : Disk) : Option Path → Except (List String) Config
  | none => .ok .default
  | some p => do
    (d.require "Configuration file" p).mapError FileError.messages
    (Config.load d p).mapError ConfigError.messages

/-- The style of catch handlers of a name, in letters of either case. -/
def readStyle (name : String) : Except (List String) CatchStyle :=
  match CatchStyle.ofName? (name.map Char.toLower) with
  | some style => .ok style
  | none => .error ["Unknown catch handler format: " ++ name]

/-! ## Parsing files -/

/-- The style of handlers that a request names, or that of a configuration. -/
def ParseOptions.style (o : ParseOptions) (config : Config) : Except (List String) CatchStyle :=
  match o.catchHandlers with
  | some name => readStyle name
  | none => .ok config.style

/-- The style of handlers and the source files that a request asks for. -/
def parseRequest (d : Disk) (o : ParseOptions) :
    Except (List String) (CatchStyle × List Path) := do
  let config ← loadConfig d o.config
  let style ← o.style config
  for p in o.paths do
    (d.require "Source path" p).mapError FileError.messages
  let files ← (d.sourceFiles o.paths).mapError FileError.messages
  return (style, files)

/-- What the results of building files come to: the counts, the text of the programs, and the lines
about the files that failed. -/
structure Tally where
  summary : Summary
  output : String
  failures : String

namespace Tally

/-- Nothing of a number of files has been counted. -/
def start (files : Nat) : Tally :=
  ⟨⟨files, 0, 0, 0, none⟩, "", ""⟩

/-- Counts a result: the writer writes a program, and the report tells of an error. -/
def count (writer report : Report) (t : Tally) : Except FileError Program → Tally
  | .ok program =>
    { t with
      summary := { t.summary with
        built := t.summary.built + 1, nodes := t.summary.nodes + program.nodeCount }
      output := t.output ++ writer.object program.toJson }
  | .error e =>
    { t with
      summary := { t.summary with failed := t.summary.failed + 1 }
      failures := t.failures ++ report.error (chain e.messages) }

/-- Counts the results of a number of files in their order. -/
def ofResults (writer report : Report) (files : Nat) (results : List (Except FileError Program)) :
    Tally :=
  results.foldl (count writer report) (start files)

/-- What is told at the end: the counts, and whether all files were built. -/
def verdict (t : Tally) (report : Report) (elapsed : Nat) : String :=
  let summary := { t.summary with duration := some (durationText elapsed) }
  report.summary summary ++
    if summary.failed = 0 then report.success ("Built " ++ toString summary.built ++ " ASTs")
    else report.warning
      (toString summary.failed ++ " of " ++ toString summary.files ++ " files failed")

end Tally

/-- The disk after the output has been written to a file, and the output that is left. -/
def deliver (d : Disk) (target : Option Path) (text : String) :
    Except (List String) (Disk × String) :=
  match target with
  | none => .ok (d, text)
  | some p =>
    match d.write p (Utf8.encode text.toList) with
    | .ok d => .ok (d, "")
    | .error cause => .error ["Failed to open output", cause.message]

/-- What writes the programs that a request asks for. -/
def ParseOptions.writer (o : ParseOptions) (colored : Bool) : Report :=
  ⟨.json, if o.pretty then .indented else .compact, colored⟩

/-- Shares source files among workers, builds them and writes their programs. -/
def runParse (scheduler : Scheduler) (env : Environment) (d : Disk) (report : Report)
    (common : CommonOptions) (o : ParseOptions) : Except (List String) Outcome := do
  let (style, files) ← parseRequest d o
  let results := (scheduler files).build env.parser d style
  let tally := Tally.ofResults (o.writer env.colored) report files.length results
  let (d, output) ← deliver d o.output tally.output
  let told := if common.isTalkative then tally.verdict report env.elapsed else ""
  return ⟨if tally.summary.failed = 0 then 0 else 1, output, tally.failures ++ told, d, o.output⟩

/-! ## Resolving names -/

/-- Resolves a name and writes where the module is. -/
def runResolve (d : Disk) (report : Report) (common : CommonOptions) (o : ResolveOptions) :
    Except (List String) Outcome := do
  let config ← loadConfig d o.config
  let resolver ← ((config.search.overriddenBy o.search).resolver d).mapError ConfigError.messages
  match resolver.resolve d o.name with
  | some found =>
    let output := match common.format with
      | .json => Report.line (found.toJson.print .indented)
      | .text => Report.line (String.ofList found.path.toText)
    return ⟨0, output, "", d, none⟩
  | none =>
    let told := if common.isTalkative then report.error (String.ofList o.name ++ ": not found")
      else ""
    return ⟨1, "", told, d, none⟩

/-! ## Whole runs -/

/-- Runs a command line; a scheduler shares the files to be built among workers. -/
def runShared (scheduler : Scheduler) (env : Environment) (d : Disk) (words : List (List Char)) :
    Outcome :=
  match read words with
  | .error .usage => ⟨2, "", "", d, none⟩
  | .error .help => ⟨0, helpText, "", d, none⟩
  | .error .version => ⟨0, versionText, "", d, none⟩
  | .ok (common, request) =>
    let report : Report := ⟨common.format, .compact, env.colored⟩
    let result := match request with
      | .parse o => runParse scheduler env d report common o
      | .resolve o => runResolve d report common o
    match result with
    | .ok outcome => outcome
    | .error messages => ⟨1, "", report.error (chain messages), d, none⟩

/-- Runs a command line; one worker builds the files in their order. -/
def run (env : Environment) (d : Disk) (words : List (List Char)) : Outcome :=
  runShared Scheduler.inOrder env d words

end ScriptTree.Command
