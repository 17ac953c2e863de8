import ScriptTree.Json.Basic
import ScriptTree.Text.Source

/-!
# Comments

A comment of a source text: its raw text with delimiters, its span and its line. What it says and
whether it is documentation follow from the raw text.
-/
namespace ScriptTree

/-- A comment with its delimiters, where it stands. -/
structure Comment where
  raw : String
  span : Span
  line : Nat
  deriving DecidableEq, Repr

namespace Comment

/-- A documentation comment opens with two stars exactly and is not the empty block. -/
def isDocText : List Char → Bool
  | '/' :: '*' :: '*' :: '/' :: _ => false
  | '/' :: '*' :: '*' :: '*' :: _ => false
  | '/' :: '*' :: '*' :: _ => true
  | _ => false

/-- The text without a closing star and slash, if it ends in one. -/
def dropCloser (text : List Char) : List Char :=
  match text.reverse with
  | '/' :: '*' :: rest => rest.reverse
  | _ => text

/-- The text of a comment without its delimiters; an unclosed block keeps its end. -/
def stripDelimiters : List Char → List Char
  | '/' :: '*' :: body => dropCloser body
  | '/' :: '/' :: body => body
  | '<' :: '!' :: '-' :: '-' :: body => body
  | '-' :: '-' :: '>' :: body => body
  | text => text

/-- Whether a comment is documentation. -/
def isDoc (c : Comment) : Bool :=
  isDocText c.raw.toList

/-- What a comment says. -/
def value (c : Comment) : String :=
  String.ofList (stripDelimiters c.raw.toList)

end Comment

/-- A span as a pair. -/
def Span.toJson (s : Span) : Json :=
  .array [.ofNat s.start, .ofNat s.stop]

/-- The location of a node: the line where it starts, and an end left open. -/
def Json.location (line : Nat) : Json :=
  .object [("start", .object [("line", .ofNat line)]), ("end", .object [])]

/-- A comment as an output value; line comments count as blocks too. -/
def Comment.toJson (c : Comment) : Json :=
  .object [("type", .string "Block"), ("value", .string c.value), ("raw", .string c.raw),
    ("range", c.span.toJson), ("loc", .location c.line)]

end ScriptTree
