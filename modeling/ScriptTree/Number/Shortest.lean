import ScriptTree.Number.Decimal

/-!
# Shortest decimal text of a double

Of all decimals that read back as a double, the one with the fewest digits is written, and of those
the nearest. `Binary64.shortest` finds its digits on the grids of one, two, … seventeen digits: if
a grid has a point in the interval that reads back, one of the two grid points beside the value is
in it. `Binary64.render` lays the digits out.
-/
namespace ScriptTree.Binary64

/-- The greatest power of ten that does not exceed a positive quotient. -/
def log10 (num den : Nat) : Int :=
  if den ≤ num then (Decimal.digitCount (num / den) : Int) - 1
  else -(Decimal.digitCount ((den - 1) / num) : Int)

/-- The decimals that read back as a double, in fourths of its last place: from `low` to `high`,
with both ends if `closed`. Below a power of two the doubles lie twice as dense. -/
structure Interval where
  low : Nat
  value : Nat
  high : Nat
  closed : Bool

/-- The interval of a positive double. -/
def interval (m : Nat) (e : Int) : Interval :=
  { low := if m = leadingBit ∧ minExponent < e then 4 * m - 1 else 4 * m - 2
    value := 4 * m
    high := 4 * m + 2
    closed := m % 2 == 0 }

/-- Whether `candidate · unit` lies between the ends of the interval; all are given as multiples of
one common fraction. -/
def Interval.holds (i : Interval) (place candidate unit : Nat) : Bool :=
  let c := candidate * unit
  if i.closed then decide (i.low * place ≤ c) && decide (c ≤ i.high * place)
  else decide (i.low * place < c) && decide (c < i.high * place)

/-- The nearest of the two grid points beside the value that reads back, if one does; an exact half
goes to the even one. `place` is the size of the interval's fourths and `unit` that of the grid. -/
def Interval.pick (i : Interval) (place unit : Nat) : Option Nat :=
  let v := i.value * place
  let below := v / unit
  let above := below + 1
  match i.holds place below unit, i.holds place above unit with
  | true, true =>
    let gap := v % unit
    if 2 * gap < unit then some below
    else if unit < 2 * gap then some above
    else some (if below % 2 = 0 then below else above)
  | true, false => some below
  | false, true => some above
  | false, false => none

/-- Tries the grids from `digits` digits on. -/
def search (i : Interval) (num den : Nat) (power : Int) : Nat → Nat → Nat × Int
  | 0, digits => (i.value * num / den, (digits : Int))
  | fuel + 1, digits =>
    let exponent := power - (digits : Int) + 1
    let place := if 0 ≤ exponent then num else num * Nat.pow 10 (-exponent).toNat
    let unit := if 0 ≤ exponent then den * Nat.pow 10 exponent.toNat else den
    match i.pick place unit with
    | some n => (n, exponent)
    | none => search i num den power fuel (digits + 1)

/-- Moves trailing zeros of the digits into the power of ten. -/
def trimZeros : Nat → Nat × Int → Nat × Int
  | 0, d => d
  | fuel + 1, (n, e) => if n % 10 = 0 then trimZeros fuel (n / 10, e + 1) else (n, e)

/-- The digits and the power of ten of the shortest decimal that reads back as the positive double
`m · 2 ^ e`. Seventeen digits always suffice. -/
def shortest (m : Nat) (e : Int) : Nat × Int :=
  let (num, den) := ratio 1 (e - 2)
  trimZeros 20 (search (interval m e) num den (log10 (4 * m * num) den) 17 1)

/-- Digits with a point and at least one digit on each side of it; `exponent` is the power of ten
of the last digit. -/
def positional (digits : List Char) (exponent : Int) : List Char :=
  if 0 ≤ exponent then digits ++ List.replicate exponent.toNat '0' ++ ['.', '0']
  else
    let places := (-exponent).toNat
    if places < digits.length then
      digits.take (digits.length - places) ++ '.' :: digits.drop (digits.length - places)
    else ['0', '.'] ++ List.replicate (places - digits.length) '0' ++ digits

/-- Digits with a point after the first and a power of ten; the point is left out after a single
digit, and a positive power has a sign. -/
def scientific (digits : List Char) (power : Int) : List Char :=
  let mantissa :=
    match digits with
    | first :: second :: rest => first :: '.' :: second :: rest
    | short => short
  let sign := if power < 0 then ['-'] else ['+']
  mantissa ++ 'e' :: sign ++ Nat.toDigits 10 power.natAbs

/-- The text of a finite double: positional from 10^-5 up to below 10^16, scientific outside. -/
def render (negative : Bool) (m : Nat) (e : Int) : List Char :=
  let sign := if negative then ['-'] else []
  if m = 0 then sign ++ ['0', '.', '0']
  else
    let (n, exponent) := shortest m e
    let digits := Nat.toDigits 10 n
    let power := exponent + (digits.length : Int) - 1
    sign ++ (if -5 ≤ power ∧ power < 16 then positional digits exponent
      else scientific digits power)

/-- The text of a double, if it is an ordinary number. -/
def toText? : Binary64 → Option String
  | .finite negative m e => some (String.ofList (render negative m e))
  | _ => none

end ScriptTree.Binary64
