import Mathlib.Data.List.TakeWhile
import Mathlib.Data.Nat.Digits.Lemmas
import ScriptTree.Literal.Numeral
import ScriptTree.Proofs.Rounding
import ScriptTree.Proofs.TextOctets

/-!
# Numerals in other bases

The digits of a numeral in a base other than ten are taken in one after another. Each step is exact as
long as the value has at most 53 bits, and the first step that goes beyond them rounds. From then on
every digit is less than half of the last place, so it is read as a zero (`appendDigit_ofNat`). The
value of a numeral is therefore the double nearest to the number in which these digits are zeros
(`RadixNumeral.significant`). That is the one nearest to the numeral itself, unless the number lies
halfway between two doubles and is rounded down although digits follow (`numeral_value`).
-/
namespace ScriptTree.Numeral

open Binary64 (ofNat roundNat leadingBit limit Holds IsNearest IsCut IsHalfDown)

/-! ## One digit -/

/-- A number with one digit more; from 2^53 on the digit is read as a zero. -/
def appendSignificant (base value digit : Nat) : Nat :=
  if value < 2 * leadingBit then value * base + digit else value * base

theorem mul_two_pow_lt_limit {n b : Nat} (h : n < 2 * leadingBit) (hb : b ≤ 4) :
    n * 2 ^ b < limit := by
  obtain ⟨k, greatest, hlimit⟩ := Binary64.exists_limit_eq
  have top : Binary64.maxExponent = 971 := rfl
  have place : 2 ^ b ≤ 2 ^ k := Nat.pow_le_pow_right (by decide) (by omega)
  rw [hlimit]
  calc n * 2 ^ b < 2 * leadingBit * 2 ^ b := Nat.mul_lt_mul_of_pos_right h (Nat.two_pow_pos b)
    _ ≤ 2 * leadingBit * 2 ^ k := Nat.mul_le_mul_left _ place

theorem appendDigit_of_holds {x : Binary64} {n base : Nat} (h : Holds x n)
    (exact : roundNat (n * base) = n * base) (inRange : n * base < limit) (digit : Nat) :
    appendDigit base x digit = ofNat (n * base + digit) := by
  have product := Binary64.holds_ofNat (exact.symm ▸ inRange)
  rw [exact] at product
  rw [appendDigit, Binary64.mulNat_of_holds h, Binary64.addNat_of_holds product]

/-- One step of a value: the digit is taken in and the result is rounded, or the digit is lost. -/
theorem appendDigit_ofNat {b digit : Nat} (hb : b ≤ 4) (hd : digit < 2 ^ b) (value : Nat) :
    appendDigit (2 ^ b) (ofNat value) digit = ofNat (appendSignificant (2 ^ b) value digit) := by
  by_cases short : value < 2 * leadingBit
  · have exact := Binary64.roundNat_of_lt short
    have product := mul_two_pow_lt_limit short hb
    have number := Nat.lt_of_le_of_lt (Nat.le_mul_of_pos_right value (Nat.two_pow_pos b)) product
    have holds := Binary64.holds_ofNat (exact.symm ▸ number)
    rw [exact] at holds
    rw [appendSignificant, if_pos short]
    exact appendDigit_of_holds holds (Binary64.roundNat_mul_two_pow_of_lt short b) product digit
  · have long := Nat.not_lt.1 short
    have rounded := Binary64.roundNat_mul_two_pow value b
    rw [appendSignificant, if_neg short]
    rcases Nat.lt_or_ge (roundNat value * 2 ^ b) limit with inRange | beyond
    · have number :=
        Nat.lt_of_le_of_lt (Nat.le_mul_of_pos_right _ (Nat.two_pow_pos b)) inRange
      have exact : roundNat (roundNat value * 2 ^ b) = roundNat value * 2 ^ b := by
        rw [Binary64.roundNat_mul_two_pow, Binary64.roundNat_roundNat]
      rw [appendDigit_of_holds (Binary64.holds_ofNat number) exact inRange]
      exact Binary64.ofNat_congr ((Binary64.roundNat_add_of_lt b long hd).trans rounded.symm)
    · have pos : 2 ^ b ≠ 0 := (Nat.two_pow_pos b).ne'
      have product : (ofNat value).mulNat (2 ^ b) = .infinite false := by
        rcases Nat.lt_or_ge (roundNat value) limit with inRange | top
        · have again : roundNat (roundNat value * 2 ^ b) = roundNat value * 2 ^ b := by
            rw [Binary64.roundNat_mul_two_pow, Binary64.roundNat_roundNat]
          rw [Binary64.mulNat_of_holds (Binary64.holds_ofNat inRange)]
          exact Binary64.ofNat_eq_infinite (again.symm ▸ beyond)
        · rw [Binary64.ofNat_eq_infinite top, Binary64.mulNat, if_neg pos]
      rw [appendDigit, product, Binary64.ofNat_eq_infinite (rounded ▸ beyond)]
      rfl

/-! ## All digits -/

/-- A run over digits below the base gives the number in which the lost digits are zeros. -/
theorem foldl_appendDigit {b : Nat} (hb : b ≤ 4) {digits : List Nat} (hd : ∀ d ∈ digits, d < 2 ^ b)
    (value : Nat) : digits.foldl (appendDigit (2 ^ b)) (ofNat value) =
      ofNat (digits.foldl (appendSignificant (2 ^ b)) value) := by
  induction digits generalizing value with
  | nil => rfl
  | cons d digits ih =>
    rw [List.foldl_cons, List.foldl_cons, appendDigit_ofNat hb (hd d List.mem_cons_self)]
    exact ih (fun d hd' => hd d (List.mem_cons_of_mem _ hd')) _

/-- Whether the significant part of a number is the number, or the number with lost digits. -/
def Stands (significant n : Nat) : Prop :=
  significant = n ∨ ∃ j, IsCut j significant n

theorem Stands.append {significant n b d : Nat} (h : Stands significant n) (hd : d < 2 ^ b) :
    Stands (appendSignificant (2 ^ b) significant d) (n * 2 ^ b + d) := by
  have pos : 0 < 2 ^ b := Nat.two_pow_pos b
  rcases h with rfl | ⟨j, long, zeros, low, high⟩
  · unfold appendSignificant
    split
    · exact .inl rfl
    · next long =>
      refine .inr ⟨b, Nat.mul_le_mul_right _ (Nat.not_lt.1 long), Nat.dvd_mul_left _ _,
        Nat.le_add_right _ _, ?_⟩
      omega
  · have large : ¬significant < 2 * leadingBit := by
      have := Nat.le_trans (Nat.le_mul_of_pos_right _ (Nat.two_pow_pos j)) long
      omega
    rw [appendSignificant, if_neg large]
    refine .inr ⟨j + b, ?_, ?_, ?_, ?_⟩
    · rw [pow_add, ← Nat.mul_assoc]
      exact Nat.mul_le_mul_right _ long
    · rw [pow_add]
      exact Nat.mul_dvd_mul_right zeros _
    · have := Nat.mul_le_mul_right (2 ^ b) low
      omega
    · have := Nat.mul_le_mul_right (2 ^ b) (Nat.succ_le_of_lt high)
      rw [Nat.succ_mul, Nat.add_mul] at this
      rw [pow_add]
      omega

/-- A run over digits keeps the significant part of the number that the digits write. -/
theorem stands_foldl {b : Nat} {digits : List Nat} (hd : ∀ d ∈ digits, d < 2 ^ b)
    {significant n : Nat} (h : Stands significant n) :
    Stands (digits.foldl (appendSignificant (2 ^ b)) significant)
      (digits.foldl (fun n d => n * 2 ^ b + d) n) := by
  induction digits generalizing significant n with
  | nil => exact h
  | cons d digits ih =>
    rw [List.foldl_cons, List.foldl_cons]
    exact ih (fun d hd' => hd d (List.mem_cons_of_mem _ hd')) (h.append (hd d List.mem_cons_self))

/-- The double nearest to the significant part is nearest to the number, unless the part lies halfway
between two doubles and is rounded down although something is lost. -/
theorem Stands.isNearest_iff {significant n : Nat} (h : Stands significant n) :
    IsNearest n (ofNat significant) ↔ ¬(significant ≠ n ∧ IsHalfDown significant) := by
  rw [Binary64.isNearest_iff]
  rcases h with rfl | ⟨j, cut⟩
  · exact iff_of_true rfl fun ⟨differs, _⟩ => differs rfl
  · constructor
    · exact fun same ⟨differs, down⟩ => cut.ofNat_ne differs down same
    · intro notDown
      rw [not_and_or, not_not] at notDown
      exact cut.ofNat_eq notDown

/-! ## Digits of a text -/

/-- The number that the digits of a text write in a base. -/
def numberOf (base : Nat) (text : List Char) : Nat :=
  Nat.ofDigits base (text.filterMap (Decimal.digitValue? base)).reverse

theorem foldl_eq_ofDigits (base : Nat) (digits : List Nat) :
    digits.foldl (fun n d => n * base + d) 0 = Nat.ofDigits base digits.reverse := by
  rw [Nat.ofDigits_eq_foldr, List.foldr_reverse]
  congr 1
  funext n d
  rw [Nat.add_comm, Nat.mul_comm]
  rfl

/-- What is no digit in any base has no value. -/
theorem digitValue?_eq_none {c : Char} (h : c = '_' ∨ c = 'n') (base : Nat) :
    Decimal.digitValue? base c = none := by
  rcases h with rfl | rfl
  · simp [Decimal.digitValue?]
  · simp [Decimal.digitValue?]

theorem mapM_eq_filterMap {α β : Type} {f : α → Option β} {l : List α}
    (h : ∀ a ∈ l, (f a).isSome) : l.mapM f = some (l.filterMap f) := by
  induction l with
  | nil => rfl
  | cons a l ih =>
    obtain ⟨b, hb⟩ := Option.isSome_iff_exists.1 (h a List.mem_cons_self)
    rw [List.mapM_cons, hb, ih fun a ha => h a (List.mem_cons_of_mem _ ha),
      List.filterMap_cons_some hb]
    rfl

/-- Without the separators a text of digits has the same digits. -/
theorem filterMap_digits (base : Nat) (text : List Char) :
    (text.filter (· != '_')).filterMap (Decimal.digitValue? base) =
      text.filterMap (Decimal.digitValue? base) := by
  rw [List.filterMap_filter]
  refine List.filterMap_congr fun c _ => ?_
  by_cases separator : c = '_'
  · rw [separator, digitValue?_eq_none (.inl rfl)]
    rfl
  · rw [if_pos (by simp [separator])]

/-! ## Numerals in a base -/

/-- How a numeral that is not decimal starts, with its base. -/
def radixStarts : List (List Char × Nat) :=
  [("0x".toList, 16), ("0X".toList, 16), ("0o".toList, 8), ("0O".toList, 8), ("0b".toList, 2),
    ("0B".toList, 2), ("0".toList, 8)]

/-- A numeral in a base other than ten: a start, and then digits of the base, with separators among
them. -/
structure RadixNumeral where
  start : List Char
  base : Nat
  body : List Char
  known : (start, base) ∈ radixStarts
  chars : ∀ c ∈ body, c = '_' ∨ (Decimal.digitValue? base c).isSome
  hasDigit : ∃ c ∈ body, c ≠ '_'

namespace RadixNumeral

variable (n : RadixNumeral)

/-- The text of a numeral. -/
def text : List Char :=
  n.start ++ n.body

/-- The number that a numeral writes. -/
def value : Nat :=
  numberOf n.base n.body

/-- The number that is left when the digits after the first 53 bits are zeros. -/
def significant : Nat :=
  (n.body.filterMap (Decimal.digitValue? n.base)).foldl (appendSignificant n.base) 0

/-- The digits of a numeral as they are written. -/
def digits : List Char :=
  n.body.filter (· != '_')

theorem isSome_of_mem_digits {c : Char} (h : c ∈ n.digits) :
    (Decimal.digitValue? n.base c).isSome := by
  obtain ⟨mem, digit⟩ := List.mem_filter.1 h
  refine (n.chars c mem).resolve_left ?_
  rintro rfl
  cases digit

theorem digits_ne_nil : n.digits ≠ [] := by
  obtain ⟨c, mem, digit⟩ := n.hasDigit
  exact List.ne_nil_of_mem (List.mem_filter.2 ⟨mem, by simp [digit]⟩)

theorem exists_base_eq : ∃ b, b ≤ 4 ∧ n.base = 2 ^ b := by
  have known := n.known
  simp only [radixStarts, List.mem_cons, Prod.mk.injEq, List.not_mem_nil, or_false] at known
  rcases known with h | h | h | h | h | h | h
  · exact ⟨4, by decide, h.2⟩
  · exact ⟨4, by decide, h.2⟩
  · exact ⟨3, by decide, h.2⟩
  · exact ⟨3, by decide, h.2⟩
  · exact ⟨1, by decide, h.2⟩
  · exact ⟨1, by decide, h.2⟩
  · exact ⟨3, by decide, h.2⟩

theorem filter_text : n.text.filter (· != '_') = n.start ++ n.digits := by
  have all : ∀ start ∈ radixStarts, start.1.filter (· != '_') = start.1 := by decide
  rw [text, List.filter_append, all _ n.known, digits]

/-- A numeral does not end like one of unbounded size. -/
theorem getLast?_ne : (n.start ++ n.digits).getLast? ≠ some 'n' := by
  rw [List.getLast?_append, List.getLast?_eq_some_getLast n.digits_ne_nil, Option.some_or]
  intro final
  have digit := n.isSome_of_mem_digits (List.getLast_mem n.digits_ne_nil)
  rw [Option.some.inj final, digitValue?_eq_none (.inr rfl)] at digit
  cases digit

end RadixNumeral

theorem isOctalDigit_of_isSome {c : Char} (h : (Decimal.digitValue? 8 c).isSome) :
    isOctalDigit c := by
  obtain ⟨d, h⟩ := Option.isSome_iff_exists.1 h
  unfold Decimal.digitValue? at h
  simp only [Option.ite_none_right_eq_some] at h
  obtain ⟨small, -⟩ := h
  by_cases decimal : '0' ≤ c ∧ c ≤ '9'
  · rw [if_pos decimal] at small
    have last : c ≤ '7' := by
      have zero : '0'.toNat = 48 := rfl
      show c.toNat ≤ 55
      omega
    rw [isOctalDigit, Bool.and_eq_true, decide_eq_true_eq, decide_eq_true_eq]
    exact ⟨decimal.1, last⟩
  · rw [if_neg decimal] at small
    split at small
    · omega
    · split at small <;> omega

theorem baseOfMark_of_isDigit {c : Char} (h : c.isDigit) : baseOfMark c = none := by
  have differs {mark : Char} (other : mark.isDigit = false) : c ≠ mark := by
    rintro rfl
    rw [h] at other
    cases other
  unfold baseOfMark
  split
  · exact absurd rfl (differs (by decide))
  · exact absurd rfl (differs (by decide))
  · exact absurd rfl (differs (by decide))
  · exact absurd rfl (differs (by decide))
  · exact absurd rfl (differs (by decide))
  · exact absurd rfl (differs (by decide))
  · rfl

theorem isDigit_of_isOctalDigit {c : Char} (h : isOctalDigit c) : c.isDigit := by
  rw [isOctalDigit, Bool.and_eq_true, decide_eq_true_eq, decide_eq_true_eq] at h
  obtain ⟨low, high⟩ := h
  exact Char.isDigit_iff_toNat.2 ⟨low, Nat.le_trans high (by decide)⟩

/-- A zero before octal digits starts an octal numeral. -/
theorem radixForm?_of_octal {digits : List Char} (nonempty : digits ≠ [])
    (octal : ∀ c ∈ digits, isOctalDigit c) : radixForm? ('0' :: digits) = some (8, digits) := by
  obtain ⟨mark, rest, rfl⟩ := List.exists_cons_of_ne_nil nonempty
  have noMark := baseOfMark_of_isDigit (isDigit_of_isOctalDigit (octal mark List.mem_cons_self))
  simp only [radixForm?, noMark, if_pos (List.all_eq_true.2 octal)]

/-- The start of a numeral tells its base. -/
theorem RadixNumeral.radixForm?_eq (n : RadixNumeral) :
    radixForm? (n.start ++ n.digits) = some (n.base, n.digits) := by
  have valid := fun c hc => n.isSome_of_mem_digits (c := c) hc
  have known := n.known
  simp only [radixStarts, List.mem_cons, Prod.mk.injEq, List.not_mem_nil, or_false] at known
  rcases known with h | h | h | h | h | h | h
  · rw [h.1, h.2]; rfl
  · rw [h.1, h.2]; rfl
  · rw [h.1, h.2]; rfl
  · rw [h.1, h.2]; rfl
  · rw [h.1, h.2]; rfl
  · rw [h.1, h.2]; rfl
  · rw [h.2] at valid
    rw [h.1, h.2]
    exact radixForm?_of_octal n.digits_ne_nil fun c hc => isOctalDigit_of_isSome (valid c hc)

namespace RadixNumeral

variable (n : RadixNumeral)

theorem lt_of_mem_filterMap {b : Nat} (base : n.base = 2 ^ b) :
    ∀ d ∈ n.body.filterMap (Decimal.digitValue? n.base), d < 2 ^ b := by
  intro d hd
  obtain ⟨c, -, hc⟩ := List.mem_filterMap.1 hd
  exact base ▸ Decimal.digitValue?_lt hc

/-- A numeral in a base is read as its significant part, rounded. -/
theorem read?_text : read? n.text = some (ofNat n.significant) := by
  obtain ⟨b, hb, base⟩ := n.exists_base_eq
  have values := mapM_eq_filterMap fun c hc => n.isSome_of_mem_digits hc
  have run := foldl_appendDigit hb (n.lt_of_mem_filterMap base) 0
  rw [← base] at run
  unfold read?
  simp only [n.filter_text, if_neg n.getLast?_ne, n.radixForm?_eq, readRadix?]
  rw [if_neg (by simp [n.digits_ne_nil]), values, digits, filterMap_digits, Option.map_some]
  exact congrArg some run

theorem stands : Stands n.significant n.value := by
  obtain ⟨b, -, base⟩ := n.exists_base_eq
  have zero : Stands 0 0 := .inl rfl
  have run := stands_foldl (n.lt_of_mem_filterMap base) zero
  rw [← base, foldl_eq_ofDigits] at run
  exact run

end RadixNumeral

/-! ## Decimal numerals with a leading zero -/

/-- A numeral of decimal digits with a zero before them that cannot be octal. -/
structure LateDecimal where
  body : List Char
  chars : ∀ c ∈ body, c = '_' ∨ c.isDigit
  noOctal : '8' ∈ body ∨ '9' ∈ body

namespace LateDecimal

variable (n : LateDecimal)

/-- The text of a numeral. -/
def text : List Char :=
  '0' :: n.body

/-- The number that a numeral writes. -/
def value : Nat :=
  numberOf 10 n.text

end LateDecimal

theorem digitValue?_of_isDigit {c : Char} (h : c.isDigit) :
    Decimal.digitValue? 10 c = some (c.toNat - '0'.toNat) := by
  obtain ⟨low, high⟩ := Char.isDigit_iff_toNat.1 h
  have decimal : '0' ≤ c ∧ c ≤ '9' := ⟨low, high⟩
  have zero : '0'.toNat = 48 := rfl
  have nine : '9'.toNat = 57 := rfl
  unfold Decimal.digitValue?
  dsimp only
  rw [if_pos decimal, if_pos (by omega)]

theorem ofDigits_eq_numberOf {digits : List Char} (h : ∀ c ∈ digits, c.isDigit) :
    Decimal.ofDigits digits = numberOf 10 digits := by
  have values : digits.filterMap (Decimal.digitValue? 10) =
      digits.map fun c => c.toNat - '0'.toNat := by
    rw [← List.filterMap_eq_map]
    exact List.filterMap_congr fun c hc => digitValue?_of_isDigit (h c hc)
  rw [numberOf, ← foldl_eq_ofDigits, values, List.foldl_map]
  rfl

/-- A digit is no sign, and no name starts with one. -/
theorem isDigit_ne {c : Char} (h : c.isDigit) :
    c ≠ '-' ∧ c ≠ '+' ∧ c.toLower ≠ 'i' ∧ c.toLower ≠ 'n' := by
  have below : c.toNat < 0x3A := Nat.lt_succ_of_le (Char.isDigit_iff_toNat.1 h).2
  have all : c.isDigit → c ≠ '-' ∧ c ≠ '+' ∧ c.toLower ≠ 'i' ∧ c.toLower ≠ 'n' :=
    Utf8.forall_below (by decide) c below
  exact all h

/-- A whole number is rounded once, also where its digits alone tell that it is beyond the range. -/
theorem toBinary64_natCast (n : Nat) : Decimal.toBinary64 ⟨false, n, 0⟩ = ofNat n := by
  unfold Decimal.toBinary64
  by_cases zero : n = 0
  · subst zero
    rfl
  have count : Decimal.digitCount n = (Nat.toDigits 10 n).length := if_neg zero
  simp only [if_neg zero, Int.zero_add]
  split
  · next many =>
    have large : 10 ^ 310 ≤ n := by
      refine Nat.not_lt.1 fun small => ?_
      have := (Nat.length_toDigits_le_iff (by decide) (by decide)).2 small
      omega
    have beyond : Binary64.overflow ≤ 10 ^ 310 := by decide +kernel
    exact (Binary64.ofNat_eq_infinite
      (Binary64.limit_le_roundNat_iff.2 (Nat.le_trans beyond large))).symm
  · rw [if_neg (by omega), if_pos (Int.le_refl 0)]
    exact congrArg (Binary64.ofRatio false · 1) (Nat.mul_one n)

/-- Decimal digits alone are read as the number that they write, rounded. -/
theorem decimal_read?_digits {digits : List Char} (nonempty : digits ≠ [])
    (h : ∀ c ∈ digits, c.isDigit) : Decimal.read? digits = some (ofNat (numberOf 10 digits)) := by
  have whole : digits.takeWhile Char.isDigit = digits := List.takeWhile_eq_self_iff.2 h
  have rest : digits.dropWhile Char.isDigit = [] := List.dropWhile_eq_nil_iff.2 h
  have unsigned : Decimal.takeSign digits = (false, digits) := by
    unfold Decimal.takeSign
    split
    · exact absurd rfl (isDigit_ne (h _ List.mem_cons_self)).1
    · exact absurd rfl (isDigit_ne (h _ List.mem_cons_self)).2.1
    · rfl
  have noName {name : List Char} (letter : name.head? = some 'i' ∨ name.head? = some 'n') :
      digits.map Char.toLower ≠ name := by
    obtain ⟨first, others, rfl⟩ := List.exists_cons_of_ne_nil nonempty
    obtain ⟨-, -, i, n⟩ := isDigit_ne (h _ List.mem_cons_self)
    rintro rfl
    rcases letter with e | e
    · exact i (Option.some.inj e)
    · exact n (Option.some.inj e)
  have read : Decimal.readUnsigned false digits = some ⟨false, numberOf 10 digits, 0⟩ := by
    unfold Decimal.readUnsigned
    simp only [whole, rest, List.append_nil, ofDigits_eq_numberOf h]
    rw [if_neg (by simp [nonempty])]
    rfl
  unfold Decimal.read?
  simp only [unsigned]
  rw [if_neg (not_or.2 ⟨noName (.inl (by decide)), noName (.inl (by decide))⟩),
    if_neg (noName (.inr (by decide))), read, Option.map_some, toBinary64_natCast]

/-- A digit above the octal ones makes a numeral decimal. -/
theorem LateDecimal.read?_text (n : LateDecimal) : read? n.text = some (ofNat n.value) := by
  let digits := n.body.filter (· != '_')
  have isDigit : ∀ c ∈ digits, c.isDigit := by
    intro c hc
    obtain ⟨mem, digit⟩ := List.mem_filter.1 hc
    refine (n.chars c mem).resolve_left ?_
    rintro rfl
    cases digit
  obtain ⟨c, mem, noOctal⟩ : ∃ c ∈ digits, isOctalDigit c = false := by
    rcases n.noOctal with mem | mem
    · exact ⟨'8', List.mem_filter.2 ⟨mem, rfl⟩, rfl⟩
    · exact ⟨'9', List.mem_filter.2 ⟨mem, rfl⟩, rfl⟩
  have text : n.text.filter (· != '_') = '0' :: digits := rfl
  have all : ∀ c ∈ '0' :: digits, c.isDigit := List.forall_mem_cons.2 ⟨rfl, isDigit⟩
  have noSuffix : ('0' :: digits).getLast? ≠ some 'n' := fun final =>
    absurd (all 'n' (List.mem_of_getLast? final)) (by decide)
  have noRadix : radixForm? ('0' :: digits) = none := by
    obtain ⟨mark, rest, split⟩ := List.exists_cons_of_ne_nil (List.ne_nil_of_mem mem)
    have noMark := baseOfMark_of_isDigit (isDigit mark (split ▸ List.mem_cons_self))
    have notAll : ¬(mark :: rest).all isOctalDigit := fun all => by
      rw [← split] at all
      exact Bool.false_ne_true (noOctal.symm.trans (List.all_eq_true.1 all c mem))
    simp only [split, radixForm?, noMark, if_neg notAll]
  have value : numberOf 10 ('0' :: digits) = n.value := by
    rw [LateDecimal.value, numberOf, ← text, filterMap_digits, numberOf]
  unfold read?
  simp only [text, if_neg noSuffix, noRadix, decimal_read?_digits (List.cons_ne_nil _ _) all, value]

/-- Numerals in another base, and decimal ones with a leading zero. The first are read as the double
nearest to their significant part, which is the one nearest to their value, unless the part lies
halfway between two doubles and is rounded down although what is lost is not zero. The others are
read as the double nearest to their value. -/
theorem numeral_value (n : RadixNumeral) (late : LateDecimal) :
    (read? n.text = some (ofNat n.significant) ∧
      (IsNearest n.value (ofNat n.significant) ↔
        ¬(n.significant ≠ n.value ∧ IsHalfDown n.significant))) ∧
    ∃ x, read? late.text = some x ∧ IsNearest late.value x :=
  ⟨⟨n.read?_text, n.stands.isNearest_iff⟩, _, late.read?_text, Binary64.isNearest_ofNat _⟩

/-- A numeral of 2^57 + 17. -/
def halfwayNumeral : RadixNumeral where
  start := "0x".toList
  base := 16
  body := "200000000000011".toList
  known := by decide
  chars c hc := .inr (List.all_eq_true (p := fun c => (Decimal.digitValue? 16 c).isSome).1
    (by decide) c hc)
  hasDigit := ⟨'2', by decide, by decide⟩

/-- The significant part of the numeral lies halfway between two doubles, and the lower one is read
though the other one is nearer. -/
theorem numeral_read_as_farther_double :
    read? halfwayNumeral.text = some (.finite false leadingBit 5) ∧
      halfwayNumeral.value = 2 ^ 57 + 17 ∧
      ¬IsNearest halfwayNumeral.value (.finite false leadingBit 5) ∧
      IsNearest halfwayNumeral.value (.finite false (leadingBit + 1) 5) := by
  have value : halfwayNumeral.value = 2 ^ 57 + 17 := by decide +kernel
  have rounded : ofNat (2 ^ 57 + 17) = .finite false (leadingBit + 1) 5 := by decide +kernel
  refine ⟨by decide +kernel, value, ?_, ?_⟩
  · rw [value, Binary64.isNearest_iff, rounded]
    decide
  · rw [value, Binary64.isNearest_iff, rounded]

end ScriptTree.Numeral
