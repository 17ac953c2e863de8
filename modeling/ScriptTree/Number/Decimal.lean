import ScriptTree.Number.Binary64

/-!
# Decimal numerals

Reading decimal text as doubles. A numeral has an optional sign, digits with an optional point
among or beside them, and an optional power of ten; the names of infinity and of no number are
accepted too. The result is the double nearest to the exact decimal value.
-/
namespace ScriptTree

/-- A decimal fraction: `± coefficient · 10 ^ exponent`. -/
structure Decimal where
  negative : Bool
  coefficient : Nat
  exponent : Int
  deriving DecidableEq, Repr

namespace Decimal

/-- The number of decimal digits of a natural number; zero has none. -/
def digitCount (n : Nat) : Nat :=
  if n = 0 then 0 else (Nat.toDigits 10 n).length

/-- The double nearest to a decimal fraction. A value of 10^310 or more is beyond the range of
finite doubles and one below 10^-330 is nearer to zero than to any other double, so the power of
ten is formed only between these bounds. -/
def toBinary64 (d : Decimal) : Binary64 :=
  let magnitude := d.exponent + (digitCount d.coefficient : Int)
  if d.coefficient = 0 then .zero d.negative
  else if 310 < magnitude then .infinite d.negative
  else if magnitude < -330 then .zero d.negative
  else if 0 ≤ d.exponent then .ofRatio d.negative (d.coefficient * Nat.pow 10 d.exponent.toNat) 1
  else .ofRatio d.negative d.coefficient (Nat.pow 10 (-d.exponent).toNat)

/-- The value of a digit in a base up to sixteen. -/
def digitValue? (base : Nat) (c : Char) : Option Nat :=
  let v :=
    if '0' ≤ c ∧ c ≤ '9' then c.toNat - '0'.toNat
    else if 'a' ≤ c ∧ c ≤ 'f' then c.toNat - 'a'.toNat + 10
    else if 'A' ≤ c ∧ c ≤ 'F' then c.toNat - 'A'.toNat + 10
    else base
  if v < base then some v else none

theorem digitValue?_lt {base d : Nat} {c : Char} (h : digitValue? base c = some d) : d < base := by
  unfold digitValue? at h
  simp only [Option.ite_none_right_eq_some, Option.some.injEq] at h
  omega

/-- The number that decimal digits write. -/
def ofDigits (digits : List Char) : Nat :=
  digits.foldl (fun n c => n * 10 + (c.toNat - '0'.toNat)) 0

/-- Splits off a sign: whether it was a minus, and the rest. -/
def takeSign : List Char → Bool × List Char
  | '-' :: rest => (true, rest)
  | '+' :: rest => (false, rest)
  | text => (false, text)

/-- The power of ten after a mantissa: nothing, or a letter, an optional sign and digits. -/
def readExponent : List Char → Option Int
  | [] => some 0
  | c :: rest =>
    if c = 'e' ∨ c = 'E' then
      let (negative, digits) := takeSign rest
      if digits.isEmpty || !digits.all Char.isDigit then none
      else some (if negative then -(ofDigits digits : Int) else (ofDigits digits : Int))
    else none

/-- Reads digits, an optional point with digits beside it, and an optional power of ten. -/
def readUnsigned (negative : Bool) (text : List Char) : Option Decimal :=
  let whole := text.takeWhile Char.isDigit
  let rest := text.dropWhile Char.isDigit
  let (fraction, rest) :=
    match rest with
    | '.' :: r => (r.takeWhile Char.isDigit, r.dropWhile Char.isDigit)
    | _ => ([], rest)
  if whole.isEmpty && fraction.isEmpty then none
  else
    (readExponent rest).map fun power =>
      ⟨negative, ofDigits (whole ++ fraction), power - (fraction.length : Int)⟩

/-- Reads a decimal numeral that must take the whole text. -/
def read? (text : List Char) : Option Binary64 :=
  let (negative, rest) := takeSign text
  let name := rest.map Char.toLower
  if name = "inf".toList ∨ name = "infinity".toList then some (.infinite negative)
  else if name = "nan".toList then some .nan
  else (readUnsigned negative rest).map toBinary64

end Decimal

end ScriptTree
