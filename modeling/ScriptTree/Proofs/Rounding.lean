import Mathlib.Data.Rat.Cast.Order
import Mathlib.Tactic.Linarith
import Mathlib.Tactic.Ring
import ScriptTree.Number.Binary64

/-!
# Rounding natural numbers

`Binary64.ofNat` gives the double nearest to a natural number, and no other one is (`isNearest_iff`).
A number between 2^52 * 2^e and 2^53 * 2^e (`InBinade`) is rounded to a multiple of 2^e, so its double
is that of `roundNat`, which is again a natural number. Doubles that hold natural numbers are therefore
multiplied and added by rounding the exact result (`mulNat_of_holds`, `addNat_of_holds`).

The last section is on a number whose last digits are read as zeros (`IsCut`): it has the double of the
whole number unless it lies halfway between two doubles and is rounded to the lower one.
-/
namespace ScriptTree.Binary64

/-! ## Quotients of natural numbers -/

variable {num den n : Nat}

theorem scaled_natCast (num den e : Nat) : scaled num den (e : Int) = (num, den * 2 ^ e) :=
  if_pos (Int.natCast_nonneg e)

theorem scaled_neg {e : Nat} (h : 0 < e) (num den : Nat) :
    scaled num den (-(e : Int)) = (num * 2 ^ e, den) := by
  unfold scaled
  rw [if_neg (by omega), Int.neg_neg]
  rfl

/-- Both parts of a scaled quotient grow with the quotient's parts. -/
theorem scaled_mul (num den k : Nat) (e : Int) :
    scaled (num * k) (den * k) e = ((scaled num den e).1 * k, (scaled num den e).2 * k) := by
  unfold scaled
  split
  · rw [Nat.mul_right_comm]
  · rw [Nat.mul_right_comm]

theorem roundHalfEven_mul {k : Nat} (h : 0 < k) (num den : Nat) :
    roundHalfEven (num * k) (den * k) = roundHalfEven num den := by
  have left : 2 * (num % den * k) < den * k ↔ 2 * (num % den) < den := by
    rw [← Nat.mul_assoc, Nat.mul_lt_mul_right h]
  have right : den * k < 2 * (num % den * k) ↔ den < 2 * (num % den) := by
    rw [← Nat.mul_assoc, Nat.mul_lt_mul_right h]
  unfold roundHalfEven
  simp only [Nat.mul_div_mul_right _ _ h, Nat.mul_mod_mul_right, left, right]

theorem log2_mul_two_pow (h : n ≠ 0) (j : Nat) : Nat.log2 (n * 2 ^ j) = Nat.log2 n + j := by
  have pos : 0 < 2 ^ j := Nat.two_pow_pos j
  refine (Nat.log2_eq_iff (Nat.mul_ne_zero h pos.ne')).2 ⟨?_, ?_⟩
  · rw [pow_add]
    exact Nat.mul_le_mul_right _ (Nat.log2_self_le h)
  · rw [Nat.add_right_comm, pow_add]
    exact Nat.mul_lt_mul_of_pos_right Nat.lt_log2_self pos

/-- A quotient has one nearest double, however it is written. -/
theorem ofRatio_mul_two_pow (negative : Bool) (num : Nat) (h : den ≠ 0) (j : Nat) :
    ofRatio negative (num * 2 ^ j) (den * 2 ^ j) = ofRatio negative num den := by
  have pos : 0 < 2 ^ j := Nat.two_pow_pos j
  unfold ofRatio
  by_cases zero : num = 0
  · rw [if_pos zero, if_pos (by rw [zero, Nat.zero_mul])]
  · have full : num * 2 ^ j ≠ 0 := Nat.mul_ne_zero zero pos.ne'
    have exponent : exponentFor (num * 2 ^ j) (den * 2 ^ j) = exponentFor num den := by
      have guess : ((Nat.log2 (num * 2 ^ j) : Nat) : Int) - (Nat.log2 (den * 2 ^ j) : Nat) - 52 =
          (Nat.log2 num : Int) - (Nat.log2 den : Int) - 52 := by
        rw [log2_mul_two_pow zero, log2_mul_two_pow h]
        omega
      unfold exponentFor
      simp only [guess, scaled_mul]
      rw [← Nat.mul_assoc]
      simp only [Nat.mul_lt_mul_right pos]
    rw [if_neg zero, if_neg full]
    simp only [exponent, scaled_mul, roundHalfEven_mul pos]

/-! ## Rounding to a multiple -/

theorem roundHalfEven_of_lt {q t d : Nat} (h : 2 * t < d) : roundHalfEven (q * d + t) d = q := by
  have quotient : (q * d + t) / d = q := Nat.div_eq_of_lt_le (by omega) (by rw [Nat.succ_mul]; omega)
  have rest : (q * d + t) % d = t := by rw [Nat.mul_add_mod', Nat.mod_eq_of_lt (by omega)]
  simp only [roundHalfEven, quotient, rest, if_pos h]

theorem roundHalfEven_of_gt {q t d : Nat} (h : d < 2 * t) (ht : t < d) :
    roundHalfEven (q * d + t) d = q + 1 := by
  have quotient : (q * d + t) / d = q := Nat.div_eq_of_lt_le (by omega) (by rw [Nat.succ_mul]; omega)
  have rest : (q * d + t) % d = t := by rw [Nat.mul_add_mod', Nat.mod_eq_of_lt ht]
  simp only [roundHalfEven, quotient, rest, if_neg (Nat.lt_asymm h), if_pos h]

theorem roundHalfEven_of_eq {q t d : Nat} (h : 2 * t = d) (pos : 0 < d) :
    roundHalfEven (q * d + t) d = if q % 2 = 0 then q else q + 1 := by
  have quotient : (q * d + t) / d = q := Nat.div_eq_of_lt_le (by omega) (by rw [Nat.succ_mul]; omega)
  have rest : (q * d + t) % d = t := by rw [Nat.mul_add_mod', Nat.mod_eq_of_lt (by omega)]
  simp only [roundHalfEven, quotient, rest, h, Nat.lt_irrefl, if_false]

theorem roundHalfEven_mul_self {d : Nat} (pos : 0 < d) (q : Nat) : roundHalfEven (q * d) d = q :=
  roundHalfEven_of_lt (q := q) (t := 0) (d := d) (by omega)

/-- A quotient is rounded to one of its neighbours: to the nearer one, or to the even one. -/
theorem roundHalfEven_cases {q t d : Nat} (ht : t < d) :
    (roundHalfEven (q * d + t) d = q ∧ 2 * t ≤ d ∧ (2 * t = d → q % 2 = 0)) ∨
      (roundHalfEven (q * d + t) d = q + 1 ∧ d ≤ 2 * t ∧ (2 * t = d → q % 2 = 1)) := by
  rcases Nat.lt_trichotomy (2 * t) d with less | half | more
  · exact .inl ⟨roundHalfEven_of_lt less, less.le, fun e => absurd e less.ne⟩
  · have rounded := roundHalfEven_of_eq (q := q) half (by omega)
    by_cases even : q % 2 = 0
    · rw [if_pos even] at rounded
      exact .inl ⟨rounded, half.le, fun _ => even⟩
    · rw [if_neg even] at rounded
      exact .inr ⟨rounded, half.ge, fun _ => by omega⟩
  · exact .inr ⟨roundHalfEven_of_gt more ht, more.le, fun e => absurd e more.ne'⟩

/-! ## Binades -/

theorem leadingBit_eq : leadingBit = 2 ^ 52 := by
  decide

/-- Whether a natural number has 53 bits above its last `e` ones. -/
def InBinade (e n : Nat) : Prop :=
  leadingBit * 2 ^ e ≤ n ∧ n < 2 * leadingBit * 2 ^ e

theorem exists_inBinade (h : leadingBit ≤ n) : ∃ e, InBinade e n := by
  have nonzero : n ≠ 0 := by
    rintro rfl
    exact absurd h (by decide)
  obtain ⟨e, he⟩ := Nat.exists_eq_add_of_le ((Nat.le_log2 nonzero).2 (leadingBit_eq ▸ h))
  have low := Nat.log2_self_le nonzero
  have high := Nat.lt_log2_self (n := n)
  rw [he, pow_add] at low
  rw [he, pow_succ, pow_add] at high
  refine ⟨e, by rwa [leadingBit_eq], ?_⟩
  rw [leadingBit_eq, Nat.mul_assoc, Nat.mul_comm]
  exact high

namespace InBinade

variable {e : Nat} (h : InBinade e n)
include h

theorem ne_zero : n ≠ 0 := by
  rintro rfl
  have leading : 0 < leadingBit := by decide
  exact Nat.not_lt.2 h.1 (Nat.mul_pos leading (Nat.two_pow_pos e))

theorem log2_eq : Nat.log2 n = 52 + e := by
  refine (Nat.log2_eq_iff h.ne_zero).2 ⟨?_, ?_⟩
  · rw [pow_add, ← leadingBit_eq]
    exact h.1
  · have step : 2 ^ (52 + e + 1) = 2 * leadingBit * 2 ^ e := by
      rw [pow_succ, pow_add, leadingBit_eq, Nat.mul_assoc 2, Nat.mul_comm 2]
    rw [step]
    exact h.2

/-- The leading bits of a number and the others. -/
theorem exists_eq : ∃ q t, n = q * 2 ^ e + t ∧ t < 2 ^ e ∧ leadingBit ≤ q ∧ q < 2 * leadingBit := by
  have pos : 0 < 2 ^ e := Nat.two_pow_pos e
  refine ⟨n / 2 ^ e, n % 2 ^ e, ?_, Nat.mod_lt _ pos, ?_, ?_⟩
  · rw [Nat.mul_comm, Nat.div_add_mod]
  · exact (Nat.le_div_iff_mul_le pos).2 h.1
  · exact (Nat.div_lt_iff_lt_mul pos).2 h.2

theorem roundHalfEven_bounds : leadingBit ≤ roundHalfEven n (2 ^ e) ∧
    roundHalfEven n (2 ^ e) ≤ 2 * leadingBit := by
  have pos : 0 < 2 ^ e := Nat.two_pow_pos e
  have low : leadingBit ≤ n / 2 ^ e := (Nat.le_div_iff_mul_le pos).2 h.1
  have high : n / 2 ^ e < 2 * leadingBit := (Nat.div_lt_iff_lt_mul pos).2 h.2
  unfold roundHalfEven
  dsimp only
  split
  · omega
  · split
    · omega
    · split <;> omega

theorem exponentFor_eq : exponentFor n 1 = e := by
  have one : Nat.log2 1 = 0 := by decide
  have guess : ((Nat.log2 n : Nat) : Int) - ((0 : Nat) : Int) - 52 = e := by
    rw [h.log2_eq]
    omega
  have least : minExponent ≤ e := by
    unfold minExponent
    omega
  unfold exponentFor
  simp only [one, guess, scaled_natCast, Nat.one_mul]
  rw [if_neg (Nat.not_lt.2 h.1), max_eq_right least]

theorem ofNat_eq : ofNat n = pack false (roundHalfEven n (2 ^ e)) e := by
  rw [ofNat, ofRatio, if_neg h.ne_zero]
  simp only [h.exponentFor_eq, scaled_natCast, Nat.one_mul]

end InBinade

/-- A number of less than 53 bits is a double, with a negative exponent. -/
theorem ofNat_of_lt (nonzero : n ≠ 0) (h : n < leadingBit) : ∃ k : Nat, 0 < k ∧ k ≤ 52 ∧
    leadingBit ≤ n * 2 ^ k ∧ n * 2 ^ k < 2 * leadingBit ∧
      ofNat n = .finite false (n * 2 ^ k) (-(k : Int)) := by
  have short : Nat.log2 n < 52 := (Nat.log2_lt nonzero).2 (leadingBit_eq ▸ h)
  obtain ⟨k, hk⟩ : ∃ k, 52 = Nat.log2 n + k := ⟨52 - Nat.log2 n, by omega⟩
  have pos : 0 < 2 ^ k := Nat.two_pow_pos k
  have low : leadingBit ≤ n * 2 ^ k := by
    rw [leadingBit_eq, hk, pow_add]
    exact Nat.mul_le_mul_right _ (Nat.log2_self_le nonzero)
  have high : n * 2 ^ k < 2 * leadingBit := by
    have := Nat.mul_lt_mul_of_pos_right (Nat.lt_log2_self (n := n)) pos
    rw [pow_succ, Nat.mul_right_comm, ← pow_add, ← hk, ← leadingBit_eq] at this
    omega
  have one : Nat.log2 1 = 0 := by decide
  have guess : ((Nat.log2 n : Nat) : Int) - ((0 : Nat) : Int) - 52 = -(k : Int) := by omega
  have exponent : exponentFor n 1 = -(k : Int) := by
    have least : minExponent ≤ -(k : Int) := by
      unfold minExponent
      omega
    unfold exponentFor
    simp only [one, guess, scaled_neg (show 0 < k by omega), Nat.mul_one]
    rw [if_neg (Nat.not_lt.2 low), max_eq_right least]
  refine ⟨k, by omega, by omega, low, high, ?_⟩
  have inRange : ¬maxExponent < -(k : Int) := by
    unfold maxExponent
    omega
  rw [ofNat, ofRatio, if_neg nonzero]
  simp only [exponent, scaled_neg (show 0 < k by omega)]
  have exact := roundHalfEven_mul_self (d := 1) (by decide) (n * 2 ^ k)
  rw [Nat.mul_one] at exact
  rw [exact, pack, if_neg high.ne]
  exact if_neg inRange

/-! ## Rounded numbers -/

/-- The value of the double nearest to a natural number, as if there were no greatest one. -/
def roundNat (n : Nat) : Nat :=
  roundHalfEven n (2 ^ (Nat.log2 n - 52)) * 2 ^ (Nat.log2 n - 52)

theorem InBinade.roundNat_eq {e : Nat} (h : InBinade e n) :
    roundNat n = roundHalfEven n (2 ^ e) * 2 ^ e := by
  rw [roundNat, h.log2_eq, Nat.add_sub_cancel_left]

theorem roundNat_of_lt (h : n < 2 * leadingBit) : roundNat n = n := by
  have short : Nat.log2 n - 52 = 0 := by
    by_cases zero : n = 0
    · rw [zero]
      decide
    · have bits : n < 2 ^ 53 := h
      have := (Nat.log2_lt zero).2 bits
      omega
  have exact := roundHalfEven_mul_self (d := 1) (by decide) n
  rw [Nat.mul_one] at exact
  rw [roundNat, short, pow_zero, Nat.mul_one, exact]

theorem inBinade_of_eq {q e t : Nat} (low : leadingBit ≤ q) (high : q < 2 * leadingBit)
    (ht : t < 2 ^ e) : InBinade e (q * 2 ^ e + t) := by
  have least := Nat.mul_le_mul_right (2 ^ e) low
  have most := Nat.mul_le_mul_right (2 ^ e) (Nat.succ_le_of_lt high)
  rw [Nat.succ_mul] at most
  exact ⟨by omega, by omega⟩

theorem le_of_mul_two_pow_lt {e b : Nat} (h : leadingBit * 2 ^ e < 2 * leadingBit * 2 ^ b) :
    e ≤ b := by
  have twice : 2 * leadingBit * 2 ^ b = leadingBit * 2 ^ (b + 1) := by
    rw [pow_succ]
    ring
  rw [twice] at h
  exact Nat.le_of_lt_succ ((Nat.pow_lt_pow_iff_right (by decide)).1 (Nat.lt_of_mul_lt_mul_left h))

/-- A number with at most 53 bits before its last zeros stays as it is. -/
theorem roundNat_mul_two_pow_of_lt {q : Nat} (h : q < 2 * leadingBit) (b : Nat) :
    roundNat (q * 2 ^ b) = q * 2 ^ b := by
  by_cases short : q * 2 ^ b < leadingBit
  · exact roundNat_of_lt (by omega)
  · obtain ⟨e, he⟩ := exists_inBinade (Nat.not_lt.1 short)
    have le : e ≤ b := le_of_mul_two_pow_lt
      (Nat.lt_of_le_of_lt he.1 (Nat.mul_lt_mul_of_pos_right h (Nat.two_pow_pos b)))
    obtain ⟨k, rfl⟩ := Nat.exists_eq_add_of_le le
    have split : q * 2 ^ (e + k) = q * 2 ^ k * 2 ^ e := by rw [pow_add]; ring
    rw [he.roundNat_eq, split, roundHalfEven_mul_self (Nat.two_pow_pos e)]

/-- What is rounded has 53 bits before its last zeros, and is as even as the multiple. -/
theorem InBinade.exists_roundNat_eq {e : Nat} (h : InBinade e n) :
    ∃ q f, leadingBit ≤ q ∧ q < 2 * leadingBit ∧ e ≤ f ∧ roundNat n = q * 2 ^ f ∧
      (roundHalfEven n (2 ^ e) % 2 = 0 → q % 2 = 0) := by
  obtain ⟨low, high⟩ := h.roundHalfEven_bounds
  rcases Nat.lt_or_eq_of_le high with high | top
  · exact ⟨_, e, low, high, Nat.le_refl e, h.roundNat_eq, id⟩
  · refine ⟨leadingBit, e + 1, Nat.le_refl _, by decide, Nat.le_succ e, ?_, fun _ => by decide⟩
    rw [h.roundNat_eq, top, pow_succ]
    ring

theorem roundNat_roundNat (n : Nat) : roundNat (roundNat n) = roundNat n := by
  by_cases short : n < leadingBit
  · have := roundNat_of_lt (n := n) (by omega)
    rw [this, this]
  · obtain ⟨e, he⟩ := exists_inBinade (Nat.not_lt.1 short)
    obtain ⟨q, f, -, high, -, same, -⟩ := he.exists_roundNat_eq
    rw [same, roundNat_mul_two_pow_of_lt high]

theorem InBinade.mul_two_pow {e : Nat} (h : InBinade e n) (b : Nat) :
    InBinade (e + b) (n * 2 ^ b) := by
  have pos : 0 < 2 ^ b := Nat.two_pow_pos b
  rw [InBinade, pow_add, ← Nat.mul_assoc, ← Nat.mul_assoc]
  exact ⟨Nat.mul_le_mul_right _ h.1, Nat.mul_lt_mul_of_pos_right h.2 pos⟩

/-- Zeros behind a number change nothing in its rounding. -/
theorem roundNat_mul_two_pow (n b : Nat) : roundNat (n * 2 ^ b) = roundNat n * 2 ^ b := by
  by_cases short : n < leadingBit
  · rw [roundNat_of_lt (n := n) (by omega), roundNat_mul_two_pow_of_lt (by omega)]
  · obtain ⟨e, he⟩ := exists_inBinade (Nat.not_lt.1 short)
    rw [(he.mul_two_pow b).roundNat_eq, pow_add, roundHalfEven_mul (Nat.two_pow_pos b),
      he.roundNat_eq, Nat.mul_assoc]

/-- After a rounded number of more than 53 bits, the bits of less than its last place are lost. -/
theorem roundNat_add_of_lt {d : Nat} (b : Nat) (large : 2 * leadingBit ≤ n) (hd : d < 2 ^ b) :
    roundNat (roundNat n * 2 ^ b + d) = roundNat n * 2 ^ b := by
  obtain ⟨e, he⟩ := exists_inBinade (n := n) (by omega)
  obtain ⟨q, f, low, high, hf, same, -⟩ := he.exists_roundNat_eq
  have long : 0 < e := by
    refine Nat.pos_of_ne_zero fun zero => ?_
    have := he.2
    rw [zero, pow_zero] at this
    omega
  have small : 2 * d < 2 ^ (f + b) := by
    have one : 2 ^ 1 ≤ 2 ^ f := Nat.pow_le_pow_right (by decide) (by omega)
    have := Nat.mul_le_mul_right (2 ^ b) one
    rw [pow_add]
    omega
  have product : roundNat n * 2 ^ b = q * 2 ^ (f + b) := by rw [same, pow_add, Nat.mul_assoc]
  rw [product, (inBinade_of_eq low high (by omega)).roundNat_eq, roundHalfEven_of_lt small]

theorem pack_of_lt {m : Nat} (h : m < 2 * leadingBit) (e : Int) :
    pack false m e = if maxExponent < e then .infinite false else .finite false m e := by
  unfold pack
  rw [if_neg h.ne]

theorem pack_top (e : Int) : pack false (2 * leadingBit) e = pack false leadingBit (e + 1) := by
  rw [pack_of_lt (by decide : leadingBit < 2 * leadingBit)]
  unfold pack
  rw [if_pos rfl]

/-- A number is rounded once only. -/
theorem ofNat_roundNat (n : Nat) : ofNat (roundNat n) = ofNat n := by
  by_cases short : n < leadingBit
  · rw [roundNat_of_lt (n := n) (by omega)]
  · obtain ⟨e, he⟩ := exists_inBinade (Nat.not_lt.1 short)
    obtain ⟨low, high⟩ := he.roundHalfEven_bounds
    rw [he.roundNat_eq, he.ofNat_eq]
    rcases Nat.lt_or_eq_of_le high with high | top
    · have again : InBinade e (roundHalfEven n (2 ^ e) * 2 ^ e) :=
        inBinade_of_eq low high (Nat.two_pow_pos e)
      rw [again.ofNat_eq, roundHalfEven_mul_self (Nat.two_pow_pos e)]
    · have again : InBinade (e + 1) (leadingBit * 2 ^ (e + 1)) :=
        inBinade_of_eq (Nat.le_refl _) (by decide) (Nat.two_pow_pos (e + 1))
      have next : 2 * leadingBit * 2 ^ e = leadingBit * 2 ^ (e + 1) := by
        rw [pow_succ]
        ring
      rw [top, next, again.ofNat_eq, roundHalfEven_mul_self (Nat.two_pow_pos (e + 1)), pack_top]
      rfl

theorem ofNat_congr {a b : Nat} (h : roundNat a = roundNat b) : ofNat a = ofNat b := by
  rw [← ofNat_roundNat a, h, ofNat_roundNat b]

/-! ## Values of doubles -/

/-- Whether a significand and an exponent are those of a finite double. -/
structure IsCanonical (m : Nat) (e : Int) : Prop where
  lt : m < 2 * leadingBit
  least : minExponent ≤ e
  most : e ≤ maxExponent
  full : m < leadingBit → e = minExponent

/-- The exact value of a finite double. -/
def value (negative : Bool) (m : Nat) (e : Int) : ℚ :=
  (if negative then -1 else 1) * (m * 2 ^ e)

theorem value_natCast (m e : Nat) : value false m e = ((m * 2 ^ e : Nat) : ℚ) := by
  simp [value]

/-- The greatest exponent as a natural number. -/
def topExponent : Nat :=
  971

/-- The first power of two beyond the range of finite doubles, 2^1024. -/
def limit : Nat :=
  4 * leadingBit * 2 ^ (topExponent - 1)

/-- The number half a step beyond the greatest finite double. -/
def overflow : Nat :=
  (4 * leadingBit - 1) * 2 ^ (topExponent - 1)

/-- What is needed of these bounds; the power of two in them is too large to be formed. -/
theorem exists_bounds_eq : ∃ k : Nat, maxExponent = (k : Int) + 1 ∧
    limit = 4 * leadingBit * 2 ^ k ∧ overflow = (4 * leadingBit - 1) * 2 ^ k :=
  ⟨topExponent - 1, rfl, rfl, rfl⟩

/-- The binade with the greatest exponent ends at the limit. -/
theorem exists_limit_eq : ∃ k : Nat, maxExponent = (k : Int) ∧ limit = 2 * leadingBit * 2 ^ k := by
  obtain ⟨k, greatest, hlimit, -⟩ := exists_bounds_eq
  refine ⟨k + 1, greatest, ?_⟩
  rw [hlimit, pow_succ]
  ring

/-- Whether a double is a natural number. -/
def Holds (x : Binary64) (n : Nat) : Prop :=
  ∃ m e, x = .finite false m e ∧ IsCanonical m e ∧ value false m e = n

/-- A number of less than 53 bits is a double itself. -/
theorem holds_ofNat_of_lt (h : n < leadingBit) : Holds (ofNat n) n := by
  have least : minExponent ≤ -52 := by decide
  have most : 0 ≤ maxExponent := by decide
  by_cases zero : n = 0
  · subst zero
    exact ⟨0, minExponent, rfl, ⟨by decide, by decide, by decide, fun _ => rfl⟩, by simp [value]⟩
  · obtain ⟨k, pos, hk, low, high, same⟩ := ofNat_of_lt zero h
    refine ⟨_, _, same, ⟨high, by omega, by omega, fun short => by omega⟩, ?_⟩
    have cancel : (2 : ℚ) ^ k * (2 ^ k)⁻¹ = 1 := mul_inv_cancel₀ (by positivity)
    rw [value, if_neg Bool.false_ne_true, one_mul, zpow_neg, zpow_natCast, Nat.cast_mul,
      Nat.cast_pow, Nat.cast_ofNat, mul_assoc, cancel, mul_one]

/-- A number that is rounded to one in the range is rounded to a double, which is as even as the
multiple. -/
theorem InBinade.exists_ofNat_eq {e : Nat} (h : InBinade e n) (inRange : roundNat n < limit) :
    ∃ m f, ofNat n = .finite false m f ∧ IsCanonical m f ∧ value false m f = roundNat n ∧
      (e : Int) ≤ maxExponent ∧ (roundHalfEven n (2 ^ e) % 2 = 0 → m % 2 = 0) := by
  -- The rounded number has one form as a product, and so it has as a double.
  obtain ⟨q, f, low, high, place, same, even⟩ := h.exists_roundNat_eq
  obtain ⟨k, greatest, hlimit⟩ := exists_limit_eq
  have binade : InBinade f (q * 2 ^ f) := inBinade_of_eq low high (Nat.two_pow_pos f)
  have most : (f : Int) ≤ maxExponent := by
    rw [same, hlimit] at inRange
    have := le_of_mul_two_pow_lt (Nat.lt_of_le_of_lt binade.1 inRange)
    omega
  have least : minExponent ≤ 0 := by decide
  refine ⟨q, f, ?_, ⟨high, by omega, most, fun short => by omega⟩, ?_, by omega, even⟩
  · rw [← ofNat_roundNat, same, binade.ofNat_eq, roundHalfEven_mul_self (Nat.two_pow_pos f),
      pack_of_lt high, if_neg (by omega)]
  · rw [value_natCast, same]

theorem holds_ofNat (h : roundNat n < limit) : Holds (ofNat n) (roundNat n) := by
  by_cases short : n < leadingBit
  · rw [roundNat_of_lt (n := n) (by omega)]
    exact holds_ofNat_of_lt short
  · obtain ⟨e, he⟩ := exists_inBinade (Nat.not_lt.1 short)
    obtain ⟨m, f, same, canonical, exact, -⟩ := he.exists_ofNat_eq h
    exact ⟨m, f, same, canonical, exact⟩

/-- A number that is rounded to one beyond the range is infinite. -/
theorem ofNat_eq_infinite (h : limit ≤ roundNat n) : ofNat n = .infinite false := by
  obtain ⟨k, greatest, hlimit⟩ := exists_limit_eq
  rw [hlimit] at h
  have long : leadingBit ≤ n := by
    refine Nat.not_lt.1 fun short => ?_
    rw [roundNat_of_lt (by omega)] at h
    have := Nat.le_trans (Nat.le_mul_of_pos_right _ (Nat.two_pow_pos _)) h
    omega
  obtain ⟨e, he⟩ := exists_inBinade long
  obtain ⟨q, f, low, high, -, same, -⟩ := he.exists_roundNat_eq
  have binade : InBinade f (q * 2 ^ f) := inBinade_of_eq low high (Nat.two_pow_pos f)
  have beyond : maxExponent < (f : Int) := by
    rw [same] at h
    have between := Nat.lt_of_mul_lt_mul_left (Nat.lt_of_le_of_lt h binade.2)
    have := (Nat.pow_lt_pow_iff_right (by decide)).1 between
    omega
  rw [← ofNat_roundNat, same, binade.ofNat_eq, roundHalfEven_mul_self (Nat.two_pow_pos f),
    pack_of_lt high, if_pos beyond]

theorem ratio_natCast (m e : Nat) : ratio m (e : Int) = (m * 2 ^ e, 1) := by
  cases e with
  | zero => simp [ratio, scaled]
  | succ e => exact scaled_neg (Nat.succ_pos e) m 1

/-- A natural number is written as a quotient with a power of two. -/
theorem Holds.exists_ratio {x : Binary64} (h : Holds x n) :
    ∃ m e j, x = .finite false m e ∧ ratio m e = (n * 2 ^ j, 2 ^ j) := by
  obtain ⟨m, e, rfl, -, exact⟩ := h
  rcases Int.lt_or_le e 0 with neg | nonneg
  · obtain ⟨j, rfl⟩ : ∃ j : Nat, e = -(j : Int) := ⟨e.natAbs, by omega⟩
    refine ⟨m, _, j, rfl, ?_⟩
    have product : m = n * 2 ^ j := by
      have two : (2 : ℚ) ^ j ≠ 0 := by positivity
      rw [value, if_neg Bool.false_ne_true, one_mul, zpow_neg, zpow_natCast, ← div_eq_mul_inv,
        div_eq_iff two] at exact
      exact_mod_cast exact
    rw [ratio, Int.neg_neg, scaled_natCast, Nat.one_mul, product]
  · obtain ⟨e, rfl⟩ := Int.eq_ofNat_of_zero_le nonneg
    refine ⟨m, _, 0, rfl, ?_⟩
    rw [value_natCast] at exact
    have product : m * 2 ^ e = n := by exact_mod_cast exact
    rw [ratio_natCast, product, pow_zero, Nat.mul_one]

theorem mulNat_of_holds {x : Binary64} (h : Holds x n) (k : Nat) : x.mulNat k = ofNat (n * k) := by
  obtain ⟨m, e, j, rfl, quotient⟩ := h.exists_ratio
  have one : ofRatio false (n * k * 2 ^ j) (1 * 2 ^ j) = ofNat (n * k) :=
    ofRatio_mul_two_pow false (n * k) Nat.one_ne_zero j
  rw [Nat.one_mul, Nat.mul_right_comm] at one
  unfold mulNat
  simp only [quotient, one]

theorem addNat_of_holds {x : Binary64} (h : Holds x n) (k : Nat) : x.addNat k = ofNat (n + k) := by
  obtain ⟨m, e, j, rfl, quotient⟩ := h.exists_ratio
  have one : ofRatio false ((n + k) * 2 ^ j) (1 * 2 ^ j) = ofNat (n + k) :=
    ofRatio_mul_two_pow false (n + k) Nat.one_ne_zero j
  rw [Nat.one_mul, Nat.add_mul] at one
  unfold addNat
  simp only [quotient, one, Bool.false_eq_true, if_false]

/-! ## The nearest double -/

/-- No double lies between neighbours of 53 bits. -/
theorem value_le_or_le {q e m : Nat} {f : Int} (low : leadingBit ≤ q) (negative : Bool)
    (h : IsCanonical m f) : value negative m f ≤ ((q * 2 ^ e : Nat) : ℚ) ∨
      (((q + 1) * 2 ^ e : Nat) : ℚ) ≤ value negative m f := by
  have two : (0 : ℚ) < 2 := by norm_num
  cases negative with
  | true =>
    left
    have := zpow_pos two f
    have pos : (0 : ℚ) ≤ m * 2 ^ f := by positivity
    have zero : (0 : ℚ) ≤ ((q * 2 ^ e : Nat) : ℚ) := Nat.cast_nonneg _
    simp only [value, if_true]
    linarith
  | false =>
    rcases Int.lt_or_le f e with small | large
    · -- A smaller exponent makes a number of fewer digits.
      left
      have exponent : (2 : ℚ) ^ f ≤ 2 ^ ((e : Int) - 1) :=
        zpow_le_zpow_right₀ (by norm_num) (by omega)
      have twice : (2 : ℚ) ^ ((e : Int) - 1) * 2 = 2 ^ e := by
        rw [← zpow_natCast, ← zpow_add_one₀ two.ne', Int.sub_add_cancel]
      have significand : (m : ℚ) ≤ 2 * q := by
        have := h.lt
        exact_mod_cast (show m ≤ 2 * q by omega)
      have pos : (0 : ℚ) < 2 ^ ((e : Int) - 1) := zpow_pos two _
      simp only [value, Bool.false_eq_true, if_false, one_mul]
      push_cast
      calc (m : ℚ) * 2 ^ f ≤ 2 * q * 2 ^ ((e : Int) - 1) :=
            mul_le_mul significand exponent (zpow_pos two f).le (by positivity)
        _ = q * 2 ^ e := by rw [← twice]; ring
    · obtain ⟨k, rfl⟩ := Int.le.dest large
      have product : value false m ((e : Int) + k) = ((m * 2 ^ k * 2 ^ e : Nat) : ℚ) := by
        rw [← Nat.cast_add, value_natCast, pow_add]
        congr 1
        ring
      rw [product]
      rcases Nat.lt_or_ge q (m * 2 ^ k) with more | less
      · right
        exact_mod_cast Nat.mul_le_mul_right _ more
      · left
        exact_mod_cast Nat.mul_le_mul_right _ less

/-- The nearer neighbour of a number is nearest to it among all that do not lie between. -/
theorem nearest_of_neighbour {low high x y : ℚ} (least : low ≤ x) (most : x ≤ high)
    (near : x - low ≤ high - x) (apart : y ≤ low ∨ high ≤ y) :
    |low - x| ≤ |y - x| ∧
      (|low - x| = |y - x| → y = low ∨ (y = high ∧ x - low = high - x)) := by
  rw [abs_sub_comm, abs_of_nonneg (sub_nonneg.2 least)]
  rcases apart with beneath | above
  · rw [abs_sub_comm, abs_of_nonneg (by linarith)]
    exact ⟨by linarith, fun same => .inl (by linarith)⟩
  · rw [abs_of_nonneg (by linarith)]
    exact ⟨by linarith, fun same => .inr ⟨by linarith, by linarith⟩⟩

/-- No double is nearer to a number than the multiple to which it is rounded, and one that is as near
is this multiple or an odd one beside it. -/
theorem InBinade.nearest {e m : Nat} {f : Int} (h : InBinade e n) (negative : Bool)
    (hf : IsCanonical m f) :
    |((roundHalfEven n (2 ^ e) * 2 ^ e : Nat) : ℚ) - n| ≤ |value negative m f - n| ∧
      (|((roundHalfEven n (2 ^ e) * 2 ^ e : Nat) : ℚ) - n| = |value negative m f - n| →
        value negative m f = ((roundHalfEven n (2 ^ e) * 2 ^ e : Nat) : ℚ) ∨
          roundHalfEven n (2 ^ e) % 2 = 0 ∧ ∃ o, leadingBit ≤ o ∧ o < 2 * leadingBit ∧ o % 2 = 1 ∧
            value negative m f = ((o * 2 ^ e : Nat) : ℚ)) := by
  obtain ⟨q, t, rfl, ht, low, high⟩ := h.exists_eq
  have leading : 2 * leadingBit = 9007199254740992 := rfl
  have apart := value_le_or_le (e := e) low negative hf
  have least : ((q * 2 ^ e : Nat) : ℚ) ≤ ((q * 2 ^ e + t : Nat) : ℚ) := by
    exact_mod_cast Nat.le_add_right _ t
  have most : ((q * 2 ^ e + t : Nat) : ℚ) ≤ (((q + 1) * 2 ^ e : Nat) : ℚ) := by
    rw [Nat.succ_mul]
    exact_mod_cast Nat.add_le_add_left ht.le _
  have before : ((q * 2 ^ e + t : Nat) : ℚ) - ((q * 2 ^ e : Nat) : ℚ) = t := by
    rw [Nat.cast_add, add_sub_cancel_left]
  have after : (((q + 1) * 2 ^ e : Nat) : ℚ) - ((q * 2 ^ e + t : Nat) : ℚ) =
      ((2 ^ e : Nat) : ℚ) - t := by
    rw [Nat.succ_mul, Nat.cast_add, Nat.cast_add, add_sub_add_left_eq_sub]
  have half (same : (t : ℚ) = ((2 ^ e : Nat) : ℚ) - t) : 2 * t = 2 ^ e := by
    have : 2 * (t : ℚ) = ((2 ^ e : Nat) : ℚ) := by linarith
    exact_mod_cast this
  rcases roundHalfEven_cases (q := q) ht with ⟨rounded, near, tie⟩ | ⟨rounded, near, tie⟩
  · have near : 2 * (t : ℚ) ≤ ((2 ^ e : Nat) : ℚ) := by exact_mod_cast near
    obtain ⟨nearest, even⟩ := nearest_of_neighbour least most (by linarith) apart
    rw [rounded]
    refine ⟨nearest, fun same => (even same).imp_right fun ⟨other, tied⟩ => ?_⟩
    have even := tie (half (before.symm.trans (tied.trans after)))
    exact ⟨even, q + 1, by omega, by omega, by omega, other⟩
  · -- The upper neighbour is the lower one when all signs are turned.
    have near : ((2 ^ e : Nat) : ℚ) ≤ 2 * (t : ℚ) := by exact_mod_cast near
    have turned := nearest_of_neighbour (neg_le_neg most) (neg_le_neg least)
      (by rw [neg_sub_neg, neg_sub_neg]; linarith)
      (apart.symm.imp neg_le_neg neg_le_neg)
    simp only [neg_sub_neg, neg_inj] at turned
    rw [abs_sub_comm, abs_sub_comm _ (value negative m f)] at turned
    rw [rounded]
    refine ⟨turned.1, fun same => (turned.2 same).imp_right fun ⟨other, tied⟩ => ?_⟩
    have odd := tie (half (before.symm.trans (tied.symm.trans after)))
    exact ⟨by omega, q, low, high, odd, other⟩

/-- The numbers that are rounded beyond the range are those from half a step below its end on. -/
theorem limit_le_roundNat_iff : limit ≤ roundNat n ↔ overflow ≤ n := by
  obtain ⟨k, -, hlimit, hoverflow⟩ := exists_bounds_eq
  have pos : 0 < 2 ^ k := Nat.two_pow_pos k
  have leading : leadingBit = 4503599627370496 := rfl
  by_cases short : n < leadingBit
  · rw [roundNat_of_lt (by omega), hlimit, hoverflow, leading]
    omega
  · obtain ⟨e, he⟩ := exists_inBinade (Nat.not_lt.1 short)
    obtain ⟨q, t, rfl, ht, low, high⟩ := he.exists_eq
    obtain ⟨least, most⟩ := he.roundHalfEven_bounds
    rw [he.roundNat_eq, hlimit, hoverflow]
    rcases Nat.lt_trichotomy e (k + 1) with below | rfl | above
    · -- All that is rounded stays at the start of the last binade or before it.
      have place : 2 ^ e ≤ 2 ^ k := Nat.pow_le_pow_right (by decide) (by omega)
      have rounded := Nat.mul_le_mul most place
      have number := Nat.lt_of_lt_of_le he.2 (Nat.mul_le_mul_left _ place)
      rw [leading] at *
      omega
    · -- In the last binade only the greatest significand can be rounded up to the limit.
      have step : 2 ^ (k + 1) = 2 * 2 ^ k := by rw [pow_succ, Nat.mul_comm]
      have rounded := roundHalfEven_cases (q := q) ht
      rw [step] at ht rounded ⊢
      rw [leading] at *
      rcases Nat.lt_or_ge (q + 1) (2 * 4503599627370496) with less | top
      · have number := Nat.mul_le_mul_right (2 * 2 ^ k) (Nat.succ_le_of_lt less)
        rw [Nat.succ_mul, Nat.succ_mul] at number
        rcases rounded with ⟨rounded, -⟩ | ⟨rounded, -⟩
        · rw [rounded]
          omega
        · rw [rounded, Nat.succ_mul q]
          omega
      · obtain rfl : q = 9007199254740991 := by omega
        rcases rounded with ⟨rounded, near, tie⟩ | ⟨rounded, near, -⟩
        · rw [rounded]
          omega
        · rw [rounded]
          omega
    · have place : 2 ^ (k + 2) ≤ 2 ^ e := Nat.pow_le_pow_right (by decide) above
      have four : 2 ^ (k + 2) = 4 * 2 ^ k := by
        rw [pow_add]
        ring
      have rounded := Nat.mul_le_mul least (four ▸ place)
      have number := Nat.le_trans (Nat.mul_le_mul_left leadingBit (four ▸ place)) he.1
      rw [leading] at *
      omega

/-- Whether a double is the one nearest to a natural number. No finite double is nearer, and where
another one is as near, the significand is even; half a step beyond the greatest finite double the
infinity takes over. -/
def IsNearest (n : Nat) : Binary64 → Prop
  | .finite negative m e => n < overflow ∧ negative = false ∧ IsCanonical m e ∧
      ∀ negative' m' e', IsCanonical m' e' →
        |value negative m e - n| ≤ |value negative' m' e' - n| ∧
          (|value negative m e - n| = |value negative' m' e' - n| →
            value negative' m' e' = value negative m e ∨ m % 2 = 0)
  | .infinite negative => overflow ≤ n ∧ negative = false
  | .nan => False

/-- Every natural number is rounded to the nearest double. -/
theorem isNearest_ofNat (n : Nat) : IsNearest n (ofNat n) := by
  by_cases inRange : roundNat n < limit
  · have within : n < overflow := by
      rw [← Nat.not_le, ← limit_le_roundNat_iff, Nat.not_le]
      exact inRange
    by_cases short : n < leadingBit
    · obtain ⟨m, f, same, canonical, exact⟩ := holds_ofNat_of_lt short
      rw [same]
      refine ⟨within, rfl, canonical, fun negative' m' f' _ => ?_⟩
      rw [exact, sub_self, abs_zero]
      refine ⟨abs_nonneg _, fun zero => .inl ?_⟩
      exact sub_eq_zero.1 (abs_eq_zero.1 zero.symm)
    · obtain ⟨e, he⟩ := exists_inBinade (Nat.not_lt.1 short)
      obtain ⟨m, f, same, canonical, rounded, -, even⟩ := he.exists_ofNat_eq inRange
      rw [same]
      refine ⟨within, rfl, canonical, fun negative' m' f' other => ?_⟩
      obtain ⟨nearest, tie⟩ := he.nearest negative' other
      rw [rounded, he.roundNat_eq]
      exact ⟨nearest, fun equal => (tie equal).imp_right fun ⟨tied, _⟩ => even tied⟩
  · have beyond := Nat.not_lt.1 inRange
    rw [ofNat_eq_infinite beyond]
    exact ⟨limit_le_roundNat_iff.1 beyond, rfl⟩

/-- A finite double is written in one way. -/
theorem IsCanonical.eq_of_value_eq {m m' : Nat} {e e' : Int} (h : IsCanonical m e)
    (h' : IsCanonical m' e') (same : value false m e = value false m' e') : m = m' ∧ e = e' := by
  have aligned {m m' : Nat} {e e' : Int} (h : IsCanonical m e) (h' : IsCanonical m' e')
      (same : value false m e = value false m' e') (le : e ≤ e') : m = m' ∧ e = e' := by
    obtain ⟨k, rfl⟩ := Int.le.dest le
    have product : m = m' * 2 ^ k := by
      have two : (2 : ℚ) ^ e ≠ 0 := zpow_ne_zero e (by norm_num)
      simp only [value, Bool.false_eq_true, if_false, one_mul] at same
      rw [zpow_add₀ (by norm_num), zpow_natCast, mul_comm ((2 : ℚ) ^ e), ← mul_assoc] at same
      exact_mod_cast mul_right_cancel₀ two same
    cases k with
    | zero => exact ⟨by rw [product, pow_zero, Nat.mul_one], by simp⟩
    | succ k =>
      -- With a greater exponent the other significand has all its bits, and this one more.
      have full : leadingBit ≤ m' := by
        refine Nat.not_lt.1 fun short => ?_
        have := h'.full short
        have := h.least
        omega
      have := h.lt
      have twice : 2 ^ 1 ≤ 2 ^ (k + 1) := Nat.pow_le_pow_right (by decide) (by omega)
      have := Nat.mul_le_mul full twice
      omega
  rcases Int.le_total e e' with le | le
  · exact aligned h h' same le
  · obtain ⟨hm, he⟩ := aligned h' h same.symm le
    exact ⟨hm.symm, he.symm⟩

/-- A double that is as near to a number as the rounded number is this number, or it is odd. -/
theorem value_eq_roundNat {m : Nat} {f : Int} (inRange : roundNat n < limit) (h : IsCanonical m f)
    (equal : |value false m f - n| = |(roundNat n : ℚ) - n|)
    (tie : (roundNat n : ℚ) = value false m f ∨ m % 2 = 0) : value false m f = roundNat n := by
  by_cases short : n < leadingBit
  · rw [roundNat_of_lt (n := n) (by omega), sub_self, abs_zero] at equal
    rw [roundNat_of_lt (n := n) (by omega)]
    exact sub_eq_zero.1 (abs_eq_zero.1 equal)
  · obtain ⟨e, he⟩ := exists_inBinade (Nat.not_lt.1 short)
    obtain ⟨-, -, -, -, -, most, -⟩ := he.exists_ofNat_eq inRange
    rw [he.roundNat_eq] at equal tie ⊢
    rcases (he.nearest false h).2 equal.symm with same | ⟨-, o, low, high, odd, other⟩
    · exact same
    · refine tie.elim Eq.symm fun even => ?_
      -- The significand would be even, and odd as that of the other neighbour.
      have least : minExponent ≤ 0 := by decide
      have beside : IsCanonical o e := ⟨high, by omega, most, fun short => by omega⟩
      rw [← value_natCast] at other
      have := (h.eq_of_value_eq beside other).1
      omega

/-- One double is nearest to a number. -/
theorem isNearest_iff {x : Binary64} : IsNearest n x ↔ x = ofNat n := by
  constructor
  · intro h
    have rounded := isNearest_ofNat n
    cases x with
    | nan => exact h.elim
    | infinite negative =>
      obtain ⟨beyond, rfl⟩ := h
      exact (ofNat_eq_infinite (limit_le_roundNat_iff.2 beyond)).symm
    | finite negative m f =>
      obtain ⟨within, rfl, canonical, nearest⟩ := h
      have inRange : roundNat n < limit := by
        rw [← Nat.not_le, limit_le_roundNat_iff, Nat.not_le]
        exact within
      obtain ⟨m', f', same, canonical', exact⟩ := holds_ofNat inRange
      rw [same] at rounded ⊢
      obtain ⟨-, -, -, nearest'⟩ := rounded
      obtain ⟨le, tie⟩ := nearest false m' f' canonical'
      have equal := le_antisymm le (nearest' false m f canonical).1
      have tied := tie equal
      rw [exact] at equal tied
      have agree := (value_eq_roundNat inRange canonical equal tied).trans exact.symm
      obtain ⟨rfl, rfl⟩ := canonical.eq_of_value_eq canonical' agree
      rfl
  · rintro rfl
    exact isNearest_ofNat n

/-! ## Numbers that are cut off -/

/-- Whether a number lies halfway between two finite doubles and is rounded to the lower one. -/
def IsHalfDown (n : Nat) : Prop :=
  ∃ q e : Nat, leadingBit ≤ q ∧ q < 2 * leadingBit ∧ q % 2 = 0 ∧ (e : Int) < maxExponent ∧
    n = (2 * q + 1) * 2 ^ e

/-- Whether a number has more than 53 bits before its last `j` places and stands for another one that
differs from it only in these places, where it has zeros. -/
structure IsCut (j cut n : Nat) : Prop where
  long : 2 * leadingBit * 2 ^ j ≤ cut
  zeros : 2 ^ j ∣ cut
  low : cut ≤ n
  high : n < cut + 2 ^ j

theorem add_le_of_dvd {d a b : Nat} (ha : d ∣ a) (hb : d ∣ b) (h : a < b) : a + d ≤ b := by
  obtain ⟨x, rfl⟩ := ha
  obtain ⟨y, rfl⟩ := hb
  rw [← Nat.mul_succ]
  exact Nat.mul_le_mul_left d (Nat.lt_of_mul_lt_mul_left h)

namespace IsCut

variable {j cut : Nat} (h : IsCut j cut n)
include h

/-- The places that are cut off are fewer than those behind the 53 bits, so the number and the one it
stands for have the same 53 bits. -/
theorem exists_eq : ∃ e q t t', j ≤ e ∧ leadingBit ≤ q ∧ q < 2 * leadingBit ∧
    cut = q * 2 ^ (e + 1) + t ∧ n = q * 2 ^ (e + 1) + t' ∧
      2 ^ j ∣ t ∧ t ≤ t' ∧ t' < t + 2 ^ j ∧ t' < 2 ^ (e + 1) := by
  have pos : 0 < 2 ^ j := Nat.two_pow_pos j
  have long : leadingBit ≤ cut := by
    have := Nat.le_trans (Nat.le_mul_of_pos_right _ pos) h.long
    omega
  obtain ⟨e, he⟩ := exists_inBinade long
  have above : j < e := by
    have between := Nat.lt_of_mul_lt_mul_left (Nat.lt_of_le_of_lt h.long he.2)
    exact (Nat.pow_lt_pow_iff_right (by decide)).1 between
  obtain ⟨e, rfl⟩ := Nat.exists_eq_add_of_lt above
  obtain ⟨q, t, hcut, ht, low, high⟩ := he.exists_eq
  have place : 2 ^ j ∣ 2 ^ (j + e + 1) := Nat.pow_dvd_pow 2 (by omega)
  have rest : 2 ^ j ∣ t := by
    have zeros := h.zeros
    rw [hcut] at zeros
    exact (Nat.dvd_add_right (Nat.dvd_trans place (Nat.dvd_mul_left _ _))).1 zeros
  have inside := add_le_of_dvd rest place ht
  obtain ⟨lost, rfl⟩ := Nat.exists_eq_add_of_le h.low
  have := h.high
  exact ⟨j + e, q, t, t + lost, by omega, low, high, hcut, by omega, rest, by omega, by omega,
    by omega⟩

/-- A number that is cut off is rounded like the whole one, unless it lies halfway. -/
theorem ofNat_eq (notDown : cut = n ∨ ¬IsHalfDown cut) : ofNat cut = ofNat n := by
  rcases notDown with rfl | notDown
  · rfl
  obtain ⟨e, q, t, t', hj, low, high, rfl, rfl, ht, least, most, inside⟩ := h.exists_eq
  have step : 2 ^ (e + 1) = 2 * 2 ^ e := by rw [pow_succ, Nat.mul_comm]
  have place : 2 ^ j ∣ 2 ^ e := Nat.pow_dvd_pow 2 hj
  have cutBinade := inBinade_of_eq low high (Nat.lt_of_le_of_lt least inside)
  have binade := inBinade_of_eq low high inside
  rcases Nat.lt_trichotomy t (2 ^ e) with below | rfl | above
  · have apart := add_le_of_dvd ht place below
    rw [cutBinade.ofNat_eq, binade.ofNat_eq, roundHalfEven_of_lt (by omega),
      roundHalfEven_of_lt (by omega)]
  · by_cases exact : 2 ^ e = t'
    · rw [exact]
    · have up : roundHalfEven (q * 2 ^ (e + 1) + t') (2 ^ (e + 1)) = q + 1 :=
        roundHalfEven_of_gt (by omega) inside
      rw [cutBinade.ofNat_eq, binade.ofNat_eq, up, roundHalfEven_of_eq step.symm (by omega)]
      by_cases even : q % 2 = 0
      · -- Rounded down, it is beyond the range.
        have beyond : maxExponent < ((e + 1 : Nat) : Int) := by
          refine Int.not_le.1 fun inRange => notDown ⟨q, e, low, high, even, by omega, ?_⟩
          rw [step]
          ring
        have leading : 2 * leadingBit = 9007199254740992 := rfl
        rw [if_pos even, pack_of_lt high, if_pos beyond, pack_of_lt (by omega), if_pos beyond]
      · rw [if_neg even]
  · rw [cutBinade.ofNat_eq, binade.ofNat_eq, roundHalfEven_of_gt (by omega) (by omega),
      roundHalfEven_of_gt (by omega) inside]

/-- A number halfway between two doubles is not rounded like one that lies above it. -/
theorem ofNat_ne (differs : cut ≠ n) (down : IsHalfDown cut) : ofNat cut ≠ ofNat n := by
  obtain ⟨q, e, low, high, even, inRange, hcut⟩ := down
  have step : 2 ^ (e + 1) = 2 * 2 ^ e := by rw [pow_succ, Nat.mul_comm]
  have half : cut = q * 2 ^ (e + 1) + 2 ^ e := by
    rw [hcut, step]
    ring
  have pos : 0 < 2 ^ e := Nat.two_pow_pos e
  have place : 2 ^ j ≤ 2 ^ e := by
    have binade : InBinade (e + 1) cut := half ▸ inBinade_of_eq low high (by omega)
    have between := Nat.lt_of_mul_lt_mul_left (Nat.lt_of_le_of_lt h.long binade.2)
    have := (Nat.pow_lt_pow_iff_right (by decide)).1 between
    exact Nat.pow_le_pow_right (by decide) (by omega)
  obtain ⟨t, rfl, more, less⟩ : ∃ t, n = q * 2 ^ (e + 1) + t ∧ 2 ^ e < t ∧ t < 2 ^ (e + 1) := by
    have := h.low
    have := h.high
    exact ⟨n - q * 2 ^ (e + 1), by omega, by omega, by omega⟩
  have leading : 2 * leadingBit = 9007199254740992 := rfl
  have most : ¬maxExponent < ((e + 1 : Nat) : Int) := by omega
  have down : ofNat cut = .finite false q ((e + 1 : Nat) : Int) := by
    rw [half, (inBinade_of_eq low high (by omega)).ofNat_eq, roundHalfEven_of_eq step.symm (by omega),
      if_pos even, pack_of_lt high, if_neg most]
  have up : ofNat (q * 2 ^ (e + 1) + t) = .finite false (q + 1) ((e + 1 : Nat) : Int) := by
    rw [(inBinade_of_eq low high less).ofNat_eq, roundHalfEven_of_gt (by omega) less,
      pack_of_lt (by omega), if_neg most]
  rw [down, up]
  intro same
  injection same
  omega

end IsCut

end ScriptTree.Binary64
