/-!
# Double precision numbers

Doubles as exact binary fractions. `Binary64.ofRatio` rounds a quotient of natural numbers to the
nearest double, an exact half to the even significand; every operation is stated as the exact result
followed by this one rounding.
-/
namespace ScriptTree

/-- A double: a signed multiple of a power of two, an infinity, or no number. A finite value is
canonical: the significand is below 2^53, and below 2^52 only with the least exponent, -1074. -/
inductive Binary64 where
  | finite (negative : Bool) (significand : Nat) (exponent : Int)
  | infinite (negative : Bool)
  | nan
  deriving DecidableEq, Repr

namespace Binary64

/-- The least exponent of a finite double. -/
def minExponent : Int := -1074

/-- The greatest exponent of a finite double. -/
def maxExponent : Int := 971

/-- The leading bit of a significand that has all its bits, 2^52. -/
def leadingBit : Nat := 0x10000000000000

/-- Zero with a sign. -/
def zero (negative : Bool) : Binary64 :=
  .finite negative 0 minExponent

/-- The quotient `num / den`, times two to the power `-exponent`, as a quotient of natural
numbers. -/
def scaled (num den : Nat) (exponent : Int) : Nat × Nat :=
  if 0 ≤ exponent then (num, den * Nat.pow 2 exponent.toNat)
  else (num * Nat.pow 2 (-exponent).toNat, den)

/-- The integer nearest to `num / den`, the even one of two that are equally near. -/
def roundHalfEven (num den : Nat) : Nat :=
  let q := num / den
  let r := num % den
  if 2 * r < den then q
  else if den < 2 * r then q + 1
  else if q % 2 = 0 then q else q + 1

/-- The exponent at which a positive quotient has 53 significant bits, or the least exponent. The
difference of the bit lengths of its parts misses it by one at most. -/
def exponentFor (num den : Nat) : Int :=
  let guess : Int := (Nat.log2 num : Int) - (Nat.log2 den : Int) - 52
  let (n, d) := scaled num den guess
  max minExponent (if n < leadingBit * d then guess - 1 else guess)

/-- The finite double with this significand and exponent, after a rounding that may have reached
2^53; beyond the greatest finite double it is an infinity. -/
def pack (negative : Bool) (significand : Nat) (exponent : Int) : Binary64 :=
  let (m, e) :=
    if significand = 2 * leadingBit then (leadingBit, exponent + 1) else (significand, exponent)
  if maxExponent < e then .infinite negative else .finite negative m e

/-- The double nearest to `num / den`, for a positive `den`. -/
def ofRatio (negative : Bool) (num den : Nat) : Binary64 :=
  if num = 0 then zero negative
  else
    let e := exponentFor num den
    let (n, d) := scaled num den e
    pack negative (roundHalfEven n d) e

/-- The double nearest to a natural number. -/
def ofNat (n : Nat) : Binary64 :=
  ofRatio false n 1

/-- The magnitude of a finite double as a quotient of natural numbers. -/
def ratio (significand : Nat) (exponent : Int) : Nat × Nat :=
  scaled significand 1 (-exponent)

/-- The double nearest to `x` times a natural number. -/
def mulNat (x : Binary64) (k : Nat) : Binary64 :=
  match x with
  | .finite negative m e =>
    let (num, den) := ratio m e
    ofRatio negative (num * k) den
  | .infinite negative => if k = 0 then .nan else .infinite negative
  | .nan => .nan

/-- The double nearest to `x` plus a natural number. -/
def addNat (x : Binary64) (k : Nat) : Binary64 :=
  match x with
  | .finite negative m e =>
    let (num, den) := ratio m e
    if negative then
      if num < k * den then ofRatio false (k * den - num) den
      else if k = 0 then x else ofRatio (decide (k * den < num)) (num - k * den) den
    else ofRatio false (num + k * den) den
  | .infinite negative => .infinite negative
  | .nan => .nan

/-- The 64 bits of a double: sign, eleven bits of exponent, 52 bits of fraction. -/
def toBits : Binary64 → Nat
  | .finite negative m e =>
    let fraction := if m < leadingBit then m else m - leadingBit
    let exponent := if m < leadingBit then 0 else (e + 1075).toNat
    join negative exponent fraction
  | .infinite negative => join negative 0x7FF 0
  | .nan => join false 0x7FF (leadingBit / 2)
where
  /-- Sign, exponent and fraction side by side. -/
  join (negative : Bool) (exponent fraction : Nat) : Nat :=
    ((if negative then 0x800 else 0) + exponent) * leadingBit + fraction

/-- Whether a double is an ordinary number. -/
def isFinite : Binary64 → Bool
  | .finite .. => true
  | _ => false

end Binary64

end ScriptTree
