import ScriptTree.Config.Basic

/-!
# Writing configurations in TOML

A configuration is written as two tables. A text stands in double quotes if nothing in it needs an
escape there, or else in single quotes if it can stand there as it is. A text of several lines, or
with quotes of both kinds, stands in three quotes, if possible as it is. What no quotes can hold as
it is has escapes. A list of several texts takes a line for each.
-/
namespace ScriptTree.Toml

/-- A hexadecimal digit in upper case. -/
def hexDigit (n : Nat) : Char :=
  (Nat.digitChar (n % 16)).toUpper

/-- Whether a character is a control character. -/
def isControl (c : Char) : Bool :=
  decide (c.toNat < 0x20) || c.toNat == 0x7F

/-- One character in double quotes. -/
def escapeChar (c : Char) : List Char :=
  if c = '"' then ['\\', '"']
  else if c = '\\' then ['\\', '\\']
  else if c = '\n' then ['\\', 'n']
  else if c = '\r' then ['\\', 'r']
  else if c = '\t' then ['\\', 't']
  else if c = '\x08' then ['\\', 'b']
  else if c = '\x0c' then ['\\', 'f']
  else if isControl c then ['\\', 'u', '0', '0', hexDigit (c.toNat / 16), hexDigit c.toNat]
  else [c]

/-- The characters of a text in three double quotes, some of which stand right before it. Line breaks
stay, and of three quotes in a row the last one is escaped. -/
def escapeLines (quotes : Nat) : List Char → List Char
  | [] => []
  | c :: rest =>
    if c = '"' then
      if quotes < 2 then c :: escapeLines (quotes + 1) rest else escapeChar c ++ escapeLines 0 rest
    else (if c = '\n' then [c] else escapeChar c) ++ escapeLines 0 rest

/-- Whether a character occurs three times in a row. -/
def isTripled (c : Char) : List Char → Bool
  | x :: y :: z :: rest => (x == c && y == c && z == c) || isTripled c (y :: z :: rest)
  | _ => false

/-- The quotes of a text: double or single ones, and of either kind one or three. -/
inductive Quotes where
  | basic
  | literal
  | basicLines
  | literalLines
  deriving DecidableEq, Repr

/-- The first quotes in which a text can stand as it is, or else double ones. -/
def Quotes.ofText (text : List Char) : Quotes :=
  let clean := !text.any fun c => isControl c && c != '\t' && c != '\n'
  let broken := text.contains '\n'
  if clean && !text.contains '\\' && !text.contains '"' && !broken then basic
  else if clean && !text.contains '\'' && !broken then literal
  else if clean && !text.contains '\\' && !isTripled '"' text then basicLines
  else if clean && !isTripled '\'' text then literalLines
  else if broken then basicLines
  else basic

/-- A line break after opening quotes, which is not part of the text, if the text has one itself. -/
def opening (text : List Char) : List Char :=
  if text.contains '\n' then ['\n'] else []

/-- A text in quotes. -/
def quote (text : List Char) : List Char :=
  match Quotes.ofText text with
  | .basic => '"' :: text.flatMap escapeChar ++ ['"']
  | .literal => '\'' :: text ++ ['\'']
  | .basicLines => ['"', '"', '"'] ++ opening text ++ escapeLines 0 text ++ ['"', '"', '"']
  | .literalLines => ['\'', '\'', '\''] ++ opening text ++ text ++ ['\'', '\'', '\'']

/-- A list of texts. -/
def renderTexts (texts : List (List Char)) : List Char :=
  match texts with
  | [] => ['[', ']']
  | [text] => '[' :: quote text ++ [']']
  | texts =>
    let item (text : List Char) : List Char := "    ".toList ++ quote text ++ [',', '\n']
    '[' :: '\n' :: texts.flatMap item ++ [']']

/-- A name and a value on a line. -/
def pair (name : String) (value : List Char) : List Char :=
  name.toList ++ " = ".toList ++ value ++ ['\n']

/-- The line for a context directory, if its path is a text. -/
def renderContext? : Option Path → Option (List Char)
  | none => some []
  | some path => (Utf8.decode? path.octets).map fun text => pair "context_dir" (quote text)

/-- The document of a configuration, if its texts can be written. -/
def renderConfig? (c : Config) : Option (List Char) :=
  (renderContext? c.search.context).map fun context =>
    "[resolver]\n".toList ++ pair "privileged" (renderTexts c.search.privileged) ++
      pair "fallback" (renderTexts c.search.fallback) ++ context ++ "\n[ast]\n".toList ++
      pair "catch_handlers" (quote c.style.name.toList)

end ScriptTree.Toml
