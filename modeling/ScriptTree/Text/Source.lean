import ScriptTree.Text.Utf8

/-!
# Source texts and places in them

Places are counted in UTF-8 octets from the start of the text. A `Span` is the half-open range
between two places; `Source.slice` is the text of a span, and `Source.position` the line and the
column of a place, counted from zero.
-/
namespace ScriptTree

/-- The half-open range `[start, stop)` of octets. -/
structure Span where
  start : Nat
  stop : Nat
  deriving DecidableEq, Repr, Inhabited

namespace Span

/-- Whether the second span lies inside the first. -/
def contains (outer inner : Span) : Bool :=
  decide (outer.start ≤ inner.start) && decide (inner.stop ≤ outer.stop)

/-- The span in interval notation. -/
def render (s : Span) : String :=
  "[" ++ toString s.start ++ ", " ++ toString s.stop ++ ")"

end Span

/-- A line, and the octets before a place on it. -/
structure Position where
  row : Nat
  column : Nat
  deriving DecidableEq, Repr

namespace Text

/-- The text from a place on, if the place lies between two characters. -/
def dropBytes : List Char → Nat → Option (List Char)
  | text, 0 => some text
  | [], _ + 1 => none
  | c :: rest, n + 1 => if c.utf8Size ≤ n + 1 then dropBytes rest (n + 1 - c.utf8Size) else none

/-- The text up to a place, if the place lies between two characters. -/
def takeBytes : List Char → Nat → Option (List Char)
  | _, 0 => some []
  | [], _ + 1 => none
  | c :: rest, n + 1 =>
    if c.utf8Size ≤ n + 1 then (takeBytes rest (n + 1 - c.utf8Size)).map (c :: ·) else none

/-- The characters that begin before a place. -/
def before : List Char → Nat → List Char
  | [], _ => []
  | _, 0 => []
  | c :: rest, n + 1 => c :: before rest (n + 1 - c.utf8Size)

end Text

/-- A text to be read as a program, with the name it has in messages. -/
structure Source where
  name : String
  text : List Char
  deriving DecidableEq, Repr

namespace Source

/-- The length of the text in octets. -/
def byteLength (source : Source) : Nat :=
  Utf8.byteLength source.text

/-- The text of a span, if both ends lie between characters of the source. -/
def slice? (source : Source) (span : Span) : Option (List Char) :=
  if span.start ≤ span.stop then
    (Text.dropBytes source.text span.start).bind (Text.takeBytes · (span.stop - span.start))
  else none

/-- The text of a span; nothing if the span cuts a character. -/
def slice (source : Source) (span : Span) : List Char :=
  (source.slice? span).getD []

/-- The position of a place: the line feeds before it, and the octets between the last of them and
it. -/
def position (source : Source) (place : Nat) : Position :=
  let before := Text.before source.text place
  ⟨before.count '\n', place - Utf8.byteLength (before.reverse.dropWhile (· != '\n'))⟩

/-- The line of a place, counted from one. -/
def line (source : Source) (place : Nat) : Nat :=
  1 + (source.position place).row

end Source

end ScriptTree
