import ScriptTree.Config.Basic
import ScriptTree.Report.Basic

/-!
# Command lines

A command line is a list of words: options, the verb of a command and its operands. Words are read
from left to right, and the first that is wrong, or that asks for help or for the version, ends the
reading. An option before the verb counts for every verb.
-/
namespace ScriptTree.Command

/-- What a command does. -/
inductive Verb where
  | parse
  | resolve
  deriving DecidableEq, Repr

/-- Options without a value. -/
inductive Switch where
  | verbose
  | quiet
  | pretty
  deriving DecidableEq, Repr

/-- Options with a value. -/
inductive Parameter where
  | format
  | output
  | catchHandlers
  | config
  | privileged
  | fallback
  | contextDirectory
  deriving DecidableEq, Repr

/-- Why no command is run. -/
inductive Stop where
  | usage
  | help
  | version
  deriving DecidableEq, Repr

/-! ## Names -/

/-- The verb of a name. -/
def Verb.ofName? (name : String) : Option Verb :=
  if name = "parse" then some .parse
  else if name = "resolve" then some .resolve
  else none

/-- The switch of a long name. -/
def Switch.ofName? (name : String) : Option Switch :=
  if name = "verbose" then some .verbose
  else if name = "quiet" then some .quiet
  else if name = "pretty" then some .pretty
  else none

/-- The switch of a letter. -/
def Switch.ofLetter? : Char → Option Switch
  | 'v' => some .verbose
  | 'q' => some .quiet
  | _ => none

/-- Whether a switch may stand before the verb or after a verb. -/
def Switch.isKnown : Switch → Option Verb → Bool
  | .verbose, _ | .quiet, _ => true
  | .pretty, verb => verb == some .parse

/-- The parameter of a long name. -/
def Parameter.ofName? (name : String) : Option Parameter :=
  if name = "format" then some .format
  else if name = "output" then some .output
  else if name = "catch-handlers" then some .catchHandlers
  else if name = "config" then some .config
  else if name = "privileged" then some .privileged
  else if name = "fallback" then some .fallback
  else if name = "context-dir" then some .contextDirectory
  else none

/-- The parameter of a letter. -/
def Parameter.ofLetter? : Char → Option Parameter
  | 'o' => some .output
  | 'c' => some .config
  | _ => none

/-- Whether a parameter may stand before the verb or after a verb. -/
def Parameter.isKnown : Parameter → Option Verb → Bool
  | .format, _ => true
  | .config, verb => verb.isSome
  | .output, verb | .catchHandlers, verb => verb == some .parse
  | .privileged, verb | .fallback, verb | .contextDirectory, verb => verb == some .resolve

/-- Whether a parameter may be given more than once. -/
def Parameter.repeats : Parameter → Bool
  | .privileged | .fallback => true
  | _ => false

/-- Whether a parameter can have a value: a path is not empty, and a format has a name. -/
def Parameter.admits : Parameter → List Char → Bool
  | .format, value => (ReportFormat.ofName? (String.ofList value)).isSome
  | .output, value | .config, value | .contextDirectory, value => !value.isEmpty
  | _, _ => true

/-! ## Words -/

/-- One option or operand. -/
inductive Given where
  | switch (s : Switch)
  | parameter (p : Parameter) (value : List Char)
  | operand (value : List Char)
  deriving DecidableEq, Repr

namespace Given

/-- Whether an option is a given parameter. -/
def isParameter (p : Parameter) : Given → Bool
  | parameter q _ => p == q
  | _ => false

/-- The values of a parameter, in order. -/
def valuesOf (p : Parameter) (given : List Given) : List (List Char) :=
  given.filterMap fun
    | parameter q value => if p = q then some value else none
    | _ => none

/-- The operands, in order. -/
def operands (given : List Given) : List (List Char) :=
  given.filterMap fun
    | operand value => some value
    | _ => none

end Given

/-- What has been read: the options before the verb, the verb, and what was given since. A parameter
may still lack its value, two hyphens may have ended the options, and help may have been asked for,
with or without a topic. -/
structure Reading where
  general : List Given
  verb : Option Verb
  given : List Given
  pending : Option Parameter
  literal : Bool
  topic : Option Bool
  deriving DecidableEq, Repr

namespace Reading

/-- Nothing has been read. -/
def start : Reading :=
  ⟨[], none, [], none, false, none⟩

/-- Adds a switch, which may be given once. -/
def addSwitch (r : Reading) (s : Switch) : Except Stop Reading :=
  if !s.isKnown r.verb || r.given.contains (.switch s) then .error .usage
  else .ok { r with given := r.given ++ [.switch s] }

/-- Adds the value of a parameter. -/
def addValue (r : Reading) (p : Parameter) (value : List Char) : Except Stop Reading :=
  if !p.isKnown r.verb || !p.admits value || (!p.repeats && r.given.any (·.isParameter p)) then
    .error .usage
  else .ok { r with given := r.given ++ [.parameter p value], pending := none }

/-- Adds an operand: the verb, or what the verb is applied to. -/
def addOperand (r : Reading) (value : List Char) : Except Stop Reading :=
  match r.verb with
  | some verb =>
    let isRefused := match verb with
      | .parse => value.isEmpty
      | .resolve => !(Given.operands r.given).isEmpty
    if isRefused then .error .usage else .ok { r with given := r.given ++ [.operand value] }
  | none =>
    match Verb.ofName? (String.ofList value) with
    | some verb =>
      if r.literal then .error .usage
      else .ok { r with general := r.given, verb := some verb, given := [] }
    | none =>
      if value = "help".toList ∧ !r.literal then .ok { r with topic := some false }
      else .error .usage

/-- Reads the letters after one hyphen. A letter with a value takes the rest, or the next word. -/
def readLetters (r : Reading) : List Char → Except Stop Reading
  | [] => .ok r
  | c :: rest =>
    match Switch.ofLetter? c, Parameter.ofLetter? c with
    | some s, _ => do readLetters (← r.addSwitch s) rest
    | none, some p =>
      if !p.isKnown r.verb then .error .usage
      else if rest = [] then .ok { r with pending := some p }
      else r.addValue p (if rest.head? = some '=' then rest.drop 1 else rest)
    | none, none =>
      if c = 'h' then .error .help
      else if c = 'V' ∧ r.verb = none then .error .version
      else .error .usage

/-- Reads the long option after two hyphens. -/
def readLong (r : Reading) (text : List Char) : Except Stop Reading :=
  let name := String.ofList (text.takeWhile (· != '='))
  let value := (text.dropWhile (· != '=')).drop 1
  let hasValue := text.contains '='
  match Switch.ofName? name, Parameter.ofName? name with
  | some s, _ => if hasValue then .error .usage else r.addSwitch s
  | none, some p =>
    if !p.isKnown r.verb then .error .usage
    else if hasValue then r.addValue p value
    else .ok { r with pending := some p }
  | none, none =>
    if hasValue then .error .usage
    else if name = "help" then .error .help
    else if name = "version" ∧ r.verb = none then .error .version
    else .error .usage

/-- Reads the next word. -/
def step (r : Reading) (word : List Char) : Except Stop Reading :=
  let isOption := word.head? == some '-' && decide (1 < word.length)
  match r.topic, r.pending with
  | some hasTopic, _ =>
    let isTopic := (Verb.ofName? (String.ofList word)).isSome || word == "help".toList
    if isTopic && !hasTopic then .ok { r with topic := some true } else .error .usage
  | none, some p => if isOption then .error .usage else r.addValue p word
  | none, none =>
    if r.literal || !isOption then r.addOperand word
    else
      match word with
      | ['-', '-'] => .ok { r with literal := true }
      | '-' :: '-' :: long => r.readLong long
      | _ => r.readLetters (word.drop 1)

end Reading

/-! ## Commands -/

/-- What holds for every verb. -/
structure CommonOptions where
  verbose : Bool
  quiet : Bool
  format : ReportFormat
  deriving DecidableEq, Repr

/-- How much of what happens is told. -/
inductive LogLevel where
  | error
  | info
  | debug
  deriving DecidableEq, Repr

/-- The level that options ask for; to be quiet wins. -/
def CommonOptions.logLevel (o : CommonOptions) : LogLevel :=
  if o.quiet then .error else if o.verbose then .debug else .info

/-- Whether a summary is told. -/
def CommonOptions.isTalkative (o : CommonOptions) : Bool :=
  !o.quiet

/-- What is to be built, and how it is written. -/
structure ParseOptions where
  paths : List Path
  output : Option Path
  pretty : Bool
  catchHandlers : Option String
  config : Option Path
  deriving DecidableEq, Repr

/-- What is to be resolved, and where it is looked for. -/
structure ResolveOptions where
  name : List Char
  search : SearchSettings
  config : Option Path
  deriving DecidableEq, Repr

/-- A command with its options. -/
inductive Request where
  | parse (options : ParseOptions)
  | resolve (options : ResolveOptions)
  deriving DecidableEq, Repr

namespace Reading

/-- The options that hold for every verb; after the verb they win. -/
def common (r : Reading) : CommonOptions where
  verbose := (r.general ++ r.given).contains (.switch .verbose)
  quiet := (r.general ++ r.given).contains (.switch .quiet)
  format := (((Given.valuesOf .format (r.general ++ r.given)).getLast?.map String.ofList).bind
    ReportFormat.ofName?).getD .text

/-- The value of a parameter as a path. -/
def path? (r : Reading) (p : Parameter) : Option Path :=
  (Given.valuesOf p r.given).head?.map Path.ofText

/-- The command that has been read, if it is complete. -/
def request (r : Reading) : Except Stop (CommonOptions × Request) :=
  let values (p : Parameter) := Given.valuesOf p r.given
  match r.topic, r.pending, r.verb, Given.operands r.given with
  | some _, _, _, _ => .error .help
  | none, none, some .parse, path :: paths =>
    .ok (r.common, .parse
      { paths := (path :: paths).map Path.ofText
        output := r.path? .output
        pretty := r.given.contains (.switch .pretty)
        catchHandlers := (values .catchHandlers).head?.map String.ofList
        config := r.path? .config })
  | none, none, some .resolve, [name] =>
    .ok (r.common, .resolve
      { name
        search := ⟨values .privileged, values .fallback, r.path? .contextDirectory⟩
        config := r.path? .config })
  | _, _, _, _ => .error .usage

end Reading

/-- Reads a command line. -/
def read (words : List (List Char)) : Except Stop (CommonOptions × Request) := do
  (← words.foldlM Reading.step .start).request

end ScriptTree.Command
