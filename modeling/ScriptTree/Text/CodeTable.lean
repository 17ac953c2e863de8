import ScriptTree.Number.Decimal
import ScriptTree.Text.Pieces

/-!
# Tables of code points

A table lists runs of code points in hexadecimal, with spaces between them. `41-5A` is all from
the first to the last, `100/12E` every second one, and `B7` one alone. A run may have targets after
a colon: one for its first code point, at whose distance those of the others follow; or, after a
single code point, one each for it and those that come next, with commas between them. A target is
one code point or several with points between them.
-/
namespace ScriptTree

/-- A run of code points, and what they lead to. -/
structure CodeRun where
  first : Nat
  last : Nat
  step : Nat
  targets : List (List Nat)
  deriving Repr

namespace CodeRun

/-- The number that hexadecimal digits write. -/
def number (digits : List Char) : Nat :=
  digits.foldl (fun n c => n * 16 + (Decimal.digitValue? 16 c).getD 0) 0

/-- Reads one run. -/
def ofText (text : List Char) : CodeRun :=
  let parts := Text.pieces ':' text
  let range := parts.headD []
  let targets := (parts.drop 1).flatMap fun list =>
    (Text.pieces ',' list).map fun target => (Text.pieces '.' target).map number
  match Text.pieces '-' range, Text.pieces '/' range with
  | [first, last], _ => ⟨number first, number last, 1, targets⟩
  | _, [first, last] => ⟨number first, number last, 2, targets⟩
  | _, _ => ⟨number range, number range + (targets.length - 1), 1, targets⟩

/-- Whether a code point is in a run. -/
def contains (r : CodeRun) (code : Nat) : Bool :=
  decide (r.first ≤ code) && decide (code ≤ r.last) && (code - r.first) % r.step == 0

/-- What a code point of a run leads to. -/
def target (r : CodeRun) (code : Nat) : List Nat :=
  match r.targets with
  | [[target]] => [target + (code - r.first)]
  | targets => targets.getD (code - r.first) []

end CodeRun

/-- A table of code points. -/
structure CodeTable where
  runs : List CodeRun
  deriving Repr

namespace CodeTable

/-- Reads the lines of a table. -/
def ofLines (lines : List String) : CodeTable :=
  ⟨lines.flatMap fun line => (Text.pieces ' ' line.toList).map CodeRun.ofText⟩

/-- Whether a code point is in a table. -/
def contains (t : CodeTable) (code : Nat) : Bool :=
  t.runs.any (·.contains code)

/-- What a code point leads to, if it is in a table. -/
def target? (t : CodeTable) (code : Nat) : Option (List Nat) :=
  (t.runs.find? (·.contains code)).map (·.target code)

end CodeTable

end ScriptTree
