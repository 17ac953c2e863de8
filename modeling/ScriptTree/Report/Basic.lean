import ScriptTree.Json.Printer

/-!
# Reports

What a run writes for its reader: values, lines, headers and a summary, in plain text or in JSON.
-/
namespace ScriptTree

/-- The formats of reports. -/
inductive ReportFormat where
  | text
  | json
  deriving DecidableEq, Repr

/-- The format of a name, in letters of either case. -/
def ReportFormat.ofName? (name : String) : Option ReportFormat :=
  let name := name.map Char.toLower
  if name = "text" ∨ name = "txt" then some .text
  else if name = "json" then some .json
  else none

/-- The message about a name that is not that of a format. -/
def ReportFormat.unknownMessage (name : String) : String :=
  "Unknown output format: " ++ name

/-! ## Terminal styles -/

/-- How a terminal shows a text. -/
inductive TextStyle where
  | blue
  | boldBlue
  | green
  | yellow
  | red
  deriving DecidableEq, Repr

namespace TextStyle

/-- The code that switches a style on. -/
def code : TextStyle → String
  | blue => "34"
  | boldBlue => "1;34"
  | green => "32"
  | yellow => "33"
  | red => "31"

/-- A text in a style, if the reader's terminal has colors. -/
def apply (style : TextStyle) (colored : Bool) (text : String) : String :=
  if colored then "\x1b[" ++ style.code ++ "m" ++ text ++ "\x1b[0m" else text

end TextStyle

/-! ## Durations -/

/-- A length of time in milliseconds, with the largest unit that it fills and the one below. -/
def durationText (milliseconds : Nat) : String :=
  let seconds := milliseconds / 1000
  let rest := milliseconds % 1000
  if seconds = 0 then toString rest ++ "ms"
  else if seconds < 60 then
    let digits := Nat.toDigits 10 rest
    toString seconds ++ "." ++ String.ofList (List.replicate (3 - digits.length) '0' ++ digits) ++
      "s"
  else toString (seconds / 60) ++ "m " ++ toString (seconds % 60) ++ "s"

/-! ## Writing -/

/-- The counts of one run over files. -/
structure Summary where
  files : Nat
  built : Nat
  failed : Nat
  nodes : Nat
  duration : Option String
  deriving DecidableEq, Repr

/-- How a report is written. -/
structure Report where
  format : ReportFormat
  layout : Json.Layout
  colored : Bool
  deriving DecidableEq, Repr

namespace Report

variable (r : Report)

/-- A line. -/
def line (text : String) : String :=
  text ++ "\n"

/-- A value in JSON. -/
def object (value : Json) : String :=
  line (value.print r.layout)

/-- A header; in plain text it is underlined by as many signs as it has octets. -/
def header (text : String) : String :=
  match r.format with
  | .json => line text
  | .text =>
    let rule := String.ofList (List.replicate text.utf8ByteSize '=')
    "\n" ++ line (TextStyle.boldBlue.apply r.colored text) ++
      line (TextStyle.blue.apply r.colored rule)

/-- The counts of a run. -/
def summary (s : Summary) : String :=
  match r.format with
  | .json => r.object (.object [("files", .ofNat s.files), ("built", .ofNat s.built),
      ("failed", .ofNat s.failed), ("nodes", .ofNat s.nodes),
      ("duration", .ofOption (s.duration.map .string))])
  | .text =>
    let duration := match s.duration with
      | some text => line ("Duration: " ++ text)
      | none => ""
    r.header "Summary" ++ line ("Files: " ++ toString s.files) ++
      line ("Built: " ++ toString s.built) ++ line ("Failed: " ++ toString s.failed) ++
      line ("Nodes: " ++ toString s.nodes) ++ duration

/-- A line that tells of a success. -/
def success (text : String) : String :=
  line (TextStyle.green.apply r.colored "✅" ++ " " ++ TextStyle.green.apply r.colored text)

/-- A line that warns. -/
def warning (text : String) : String :=
  line (TextStyle.yellow.apply r.colored "⚠️" ++ " " ++ TextStyle.yellow.apply r.colored text)

/-- A line that tells of an error. -/
def error (text : String) : String :=
  line (TextStyle.red.apply r.colored "❌" ++ " " ++ TextStyle.red.apply r.colored text)

end Report

end ScriptTree
