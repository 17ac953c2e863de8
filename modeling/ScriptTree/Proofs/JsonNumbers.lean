import ScriptTree.Json.Reader

/-!
# JSON numbers read back

A number is read up to its end if what follows cannot be part of one (`readNumber_append`). Natural
numbers and doubles are spelled as numbers (`isNumber_toText?`).
-/
namespace ScriptTree

namespace Json

/-- At least one digit. -/
def IsDigits (text : List Char) : Prop :=
  text ≠ [] ∧ ∀ c ∈ text, c.isDigit = true

/-- Digits before the point: a zero alone, or digits of which the first is not zero. -/
def IsWhole (text : List Char) : Prop :=
  text = ['0'] ∨ IsDigits text ∧ text.head? ≠ some '0'

/-- What may stand between the digits before the point and the power of ten. -/
def IsFraction (text : List Char) : Prop :=
  text = [] ∨ ∃ digits, IsDigits digits ∧ text = '.' :: digits

/-- What may stand at the end of a number. -/
def IsPower (text : List Char) : Prop :=
  text = [] ∨ ∃ sign digits, (sign = '-' ∨ sign = '+') ∧ IsDigits digits ∧
    text = 'e' :: sign :: digits

/-- The spelling of a number. -/
def IsNumber (spelling : List Char) : Prop :=
  ∃ sign whole fraction power, (sign = [] ∨ sign = ['-']) ∧ IsWhole whole ∧
    IsFraction fraction ∧ IsPower power ∧ spelling = sign ++ whole ++ fraction ++ power

/-- What follows a number is not part of it. -/
def Delimited (rest : List Char) : Prop :=
  ∀ c ∈ rest.head?, c.isDigit = false ∧ c ≠ '.' ∧ c ≠ 'e' ∧ c ≠ 'E'

theorem delimited_cons {c : Char} {rest : List Char}
    (h : c.isDigit = false ∧ c ≠ '.' ∧ c ≠ 'e' ∧ c ≠ 'E') : Delimited (c :: rest) := by
  rintro d hd
  cases hd
  exact h

/-! ## Reading -/

theorem takeDigits_append {digits rest : List Char} (h : IsDigits digits)
    (hr : ∀ c ∈ rest.head?, c.isDigit = false) :
    takeDigits (digits ++ rest) = some (digits, rest) := by
  have taken : rest.takeWhile Char.isDigit = [] ∧ rest.dropWhile Char.isDigit = rest := by
    cases rest with
    | nil => exact ⟨rfl, rfl⟩
    | cons c rest =>
      have hc := hr c rfl
      exact ⟨List.takeWhile_cons_of_neg (by simp [hc]), List.dropWhile_cons_of_neg (by simp [hc])⟩
  rw [takeDigits, List.takeWhile_append_of_pos h.2, List.dropWhile_append_of_pos h.2, taken.1,
    taken.2, List.append_nil, List.isEmpty_eq_false_iff.2 h.1]
  rfl

theorem takeWhole_append {whole rest : List Char} (h : IsWhole whole)
    (hr : ∀ c ∈ rest.head?, c.isDigit = false) :
    takeWhole (whole ++ rest) = some (whole, rest) := by
  rcases h with rfl | ⟨digits, hz⟩
  · rfl
  · rw [takeWhole]
    · exact takeDigits_append digits hr
    · rintro text h
      cases whole with
      | nil => exact digits.1 rfl
      | cons d whole =>
        cases h
        exact hz rfl

theorem takeFraction_append {fraction rest : List Char} (h : IsFraction fraction)
    (hr : ∀ c ∈ rest.head?, c.isDigit = false ∧ c ≠ '.') :
    takeFraction (fraction ++ rest) = some (fraction, rest) := by
  rcases h with rfl | ⟨digits, hd, rfl⟩
  · rw [List.nil_append, takeFraction]
    rintro text rfl
    exact (hr '.' rfl).2 rfl
  · rw [List.cons_append, takeFraction, takeDigits_append hd fun c hc => (hr c hc).1]
    rfl

theorem takePower_append {power rest : List Char} (h : IsPower power)
    (hr : ∀ c ∈ rest.head?, c.isDigit = false ∧ c ≠ 'e' ∧ c ≠ 'E') :
    takePower (power ++ rest) = some (power, rest) := by
  rcases h with rfl | ⟨sign, digits, hs, hd, rfl⟩
  · cases rest with
    | nil => rfl
    | cons c rest =>
      have := hr c rfl
      simp [takePower, this]
  · have taken := takeDigits_append hd fun c hc => (hr c hc).1
    rcases hs with rfl | rfl <;>
      simp only [List.cons_append, takePower, true_or, if_true, taken, Option.map_some]

/-- The end of a number is no digit. -/
theorem isDigit_head_power {power rest : List Char} (h : IsPower power) (hr : Delimited rest) :
    ∀ c ∈ (power ++ rest).head?, c.isDigit = false ∧ c ≠ '.' := by
  rcases h with rfl | ⟨sign, digits, -, -, rfl⟩
  · exact fun c hc => ⟨(hr c hc).1, (hr c hc).2.1⟩
  · rintro c hc
    cases hc
    decide

theorem isDigit_head_fraction {fraction rest : List Char} (h : IsFraction fraction)
    (hr : ∀ c ∈ rest.head?, c.isDigit = false) :
    ∀ c ∈ (fraction ++ rest).head?, c.isDigit = false := by
  rcases h with rfl | ⟨digits, -, rfl⟩
  · exact hr
  · rintro c hc
    cases hc
    rfl

theorem head_whole {whole : List Char} (h : IsWhole whole) (rest : List Char) :
    ∃ c text, whole ++ rest = c :: text ∧ c.isDigit = true := by
  cases whole with
  | nil => exact h.elim (fun h => absurd h (by simp)) fun h => absurd rfl h.1.1
  | cons c whole =>
    refine ⟨c, whole ++ rest, rfl, ?_⟩
    rcases h with h | h
    · cases h
      rfl
    · exact h.1.2 c List.mem_cons_self

/-- A number is read up to its end. -/
theorem readNumber_append {spelling rest : List Char} (h : IsNumber spelling)
    (hr : Delimited rest) :
    readNumber (spelling ++ rest) = some (String.ofList spelling, rest) := by
  obtain ⟨sign, whole, fraction, power, hs, hw, hf, hp, rfl⟩ := h
  have point := isDigit_head_power hp hr
  have read := takeWhole_append hw (isDigit_head_fraction hf fun c hc => (point c hc).1)
  obtain ⟨d, text, hd, digit⟩ := head_whole hw (fraction ++ (power ++ rest))
  have ends := takePower_append hp fun c hc => ⟨(hr c hc).1, (hr c hc).2.2⟩
  rcases hs with rfl | rfl
  · have minus : d ≠ '-' := by
      rintro rfl
      cases digit
    have unsigned : ∀ text', whole ++ (fraction ++ (power ++ rest)) ≠ '-' :: text' := by
      rw [hd]
      rintro text' h
      cases h
      exact minus rfl
    simp only [List.nil_append, List.append_assoc] at *
    rw [readNumber]
    · simp [read, takeFraction_append hf point, ends]
    · exact unsigned
  · simp [readNumber, read, takeFraction_append hf point, ends]

/-! ## Writing -/

theorem isDigits_toDigits (n : Nat) : IsDigits (Nat.toDigits 10 n) :=
  ⟨Nat.toDigits_ne_nil, fun _ hc => Nat.isDigit_of_mem_toDigits (by decide) (by decide) hc⟩

theorem head?_append_of_isDigits {digits : List Char} (h : IsDigits digits) (rest : List Char) :
    (digits ++ rest).head? = digits.head? := by
  cases digits with
  | nil => exact absurd rfl h.1
  | cons d digits => rfl

theorem head_toDigits {n : Nat} (h : n ≠ 0) : (Nat.toDigits 10 n).head? ≠ some '0' := by
  induction n using Nat.strongRecOn with
  | ind n ih =>
    by_cases small : n < 10
    · have digits : ∀ n < 10, n ≠ 0 → [n.digitChar].head? ≠ some '0' := by decide
      rw [Nat.toDigits_of_lt_base small]
      exact digits n small h
    · rw [Nat.toDigits_of_base_le (by decide) (by omega), head?_append_of_isDigits]
      · exact ih (n / 10) (by omega) (by omega)
      · exact isDigits_toDigits _

theorem isWhole_toDigits (n : Nat) : IsWhole (Nat.toDigits 10 n) := by
  by_cases h : n = 0
  · exact .inl (h ▸ rfl)
  · exact .inr ⟨isDigits_toDigits n, head_toDigits h⟩

theorem isNumber_toString (n : Nat) : IsNumber (toString n).toList :=
  ⟨[], Nat.toDigits 10 n, [], [], .inl rfl, isWhole_toDigits n, .inl rfl, .inl rfl, by
    simp [toString, Nat.toList_repr]⟩

end Json

namespace Binary64

open Json

/-- The digits are not all zero, or the power of ten is one that only scientific notation writes. -/
def Leads (d : Nat × Int) : Prop :=
  d.1 ≠ 0 ∨ 16 ≤ d.2

theorem trimZeros_leads {fuel : Nat} {d : Nat × Int} (h : Leads d) : Leads (trimZeros fuel d) := by
  induction fuel generalizing d with
  | zero => exact h
  | succ fuel ih =>
    rw [trimZeros]
    split
    · refine ih (h.imp (fun h => ?_) fun h => ?_)
      · show d.1 / 10 ≠ 0
        omega
      · show 16 ≤ d.2 + 1
        omega
    · exact h

theorem Interval.ne_zero_of_holds {i : Interval} {place candidate unit : Nat} (hl : 0 < i.low)
    (hp : 0 < place) (h : i.holds place candidate unit = true) : candidate ≠ 0 := by
  have positive := Nat.mul_pos hl hp
  rintro rfl
  rw [holds, Nat.zero_mul] at h
  split at h <;> simp only [Bool.and_eq_true, decide_eq_true_eq] at h <;> omega

/-- A grid point that reads back as a positive double is not zero. -/
theorem Interval.pick_ne_zero {i : Interval} {place unit n : Nat} (hl : 0 < i.low)
    (hp : 0 < place) (h : i.pick place unit = some n) : n ≠ 0 := by
  unfold pick at h
  dsimp only at h
  split at h
  · next below _ =>
    have below := ne_zero_of_holds hl hp below
    repeat' split at h
    all_goals cases h
    all_goals first
      | exact below
      | exact Nat.succ_ne_zero _
  · next below _ =>
    cases h
    exact ne_zero_of_holds hl hp below
  · cases h
    exact Nat.succ_ne_zero _
  · cases h

theorem search_leads {i : Interval} {num den : Nat} {power : Int} {fuel digits : Nat}
    (hl : 0 < i.low) (hn : 0 < num) (hd : fuel + digits = 18) :
    Leads (search i num den power fuel digits) := by
  induction fuel generalizing digits with
  | zero =>
    -- Nothing is known of the digits that are taken when no grid has a point that reads back.
    refine .inr ?_
    show 16 ≤ (digits : Int)
    omega
  | succ fuel ih =>
    rw [search]
    split
    · next n h =>
      refine .inl (Interval.pick_ne_zero hl ?_ h)
      split
      · exact hn
      · exact Nat.mul_pos hn (Nat.pow_pos (by decide))
    · exact ih (by omega)

theorem ratio_one_pos (e : Int) : 0 < (ratio 1 e).1 := by
  unfold ratio scaled
  split
  · exact Nat.one_pos
  · exact Nat.mul_pos Nat.one_pos (Nat.pow_pos (by decide))

theorem interval_low_pos {m : Nat} (h : m ≠ 0) (e : Int) : 0 < (interval m e).low := by
  unfold interval
  split
  · show 0 < 4 * m - 1
    omega
  · show 0 < 4 * m - 2
    omega

theorem shortest_leads {m : Nat} (h : m ≠ 0) (e : Int) : Leads (shortest m e) :=
  trimZeros_leads (search_leads (interval_low_pos h e) (ratio_one_pos (e - 2)) rfl)

/-! ## Layout of digits -/

theorem isDigits_zero : IsDigits ['0'] :=
  ⟨List.cons_ne_nil _ _, List.forall_mem_singleton.2 rfl⟩

theorem positional_isNumber {digits : List Char} (h : IsDigits digits)
    (hz : digits.head? ≠ some '0') (exponent : Int) :
    ∃ whole fraction, IsWhole whole ∧ IsFraction fraction ∧
      positional digits exponent = whole ++ fraction := by
  have zeros : ∀ n, ∀ c ∈ List.replicate n '0', c.isDigit = true := by
    intro n c hc
    rw [List.eq_of_mem_replicate hc]
    rfl
  unfold positional
  split
  · refine ⟨digits ++ List.replicate exponent.toNat '0', ['.', '0'], .inr ⟨⟨?_, ?_⟩, ?_⟩,
      .inr ⟨['0'], isDigits_zero, rfl⟩, rfl⟩
    · exact List.append_ne_nil_of_left_ne_nil h.1 _
    · intro c hc
      exact (List.mem_append.1 hc).elim (h.2 c) (zeros _ c)
    · rwa [head?_append_of_isDigits h]
  · dsimp only
    split
    · next places =>
      have length := List.length_pos_iff.2 h.1
      refine ⟨digits.take (digits.length - (-exponent).toNat),
        '.' :: digits.drop (digits.length - (-exponent).toNat), .inr ⟨⟨?_, ?_⟩, ?_⟩,
        .inr ⟨_, ⟨?_, ?_⟩, rfl⟩, rfl⟩
      · rw [← List.length_pos_iff, List.length_take]
        omega
      · exact fun c hc => h.2 c (List.mem_of_mem_take hc)
      · rwa [List.head?_take, if_neg (by omega)]
      · rw [← List.length_pos_iff, List.length_drop]
        omega
      · exact fun c hc => h.2 c (List.mem_of_mem_drop hc)
    · refine ⟨['0'], '.' :: (List.replicate ((-exponent).toNat - digits.length) '0' ++ digits),
        .inl rfl, .inr ⟨_, ⟨?_, ?_⟩, rfl⟩, rfl⟩
      · exact List.append_ne_nil_of_right_ne_nil _ h.1
      · intro c hc
        exact (List.mem_append.1 hc).elim (zeros _ c) (h.2 c)

theorem isWhole_singleton {c : Char} (h : c.isDigit = true) : IsWhole [c] := by
  by_cases zero : c = '0'
  · exact .inl (zero ▸ rfl)
  · refine .inr ⟨⟨List.cons_ne_nil _ _, ?_⟩, ?_⟩
    · simpa using h
    · simpa using zero

theorem scientific_isNumber {digits : List Char} (h : IsDigits digits) (power : Int) :
    ∃ whole fraction tail, IsWhole whole ∧ IsFraction fraction ∧ IsPower tail ∧
      scientific digits power = whole ++ fraction ++ tail := by
  have ends : IsPower ('e' :: (if power < 0 then ['-'] else ['+']) ++
      Nat.toDigits 10 power.natAbs) := by
    refine .inr ⟨if power < 0 then '-' else '+', _, ?_, isDigits_toDigits power.natAbs, ?_⟩
    · split
      · exact .inl rfl
      · exact .inr rfl
    · split <;> rfl
  unfold scientific
  match digits, h with
  | [first], h =>
    exact ⟨[first], [], _, isWhole_singleton (h.2 first List.mem_cons_self), .inl rfl, ends, rfl⟩
  | first :: second :: rest, h =>
    refine ⟨[first], '.' :: second :: rest, _, isWhole_singleton (h.2 first List.mem_cons_self),
      .inr ⟨_, ⟨List.cons_ne_nil _ _, fun c hc => h.2 c (List.mem_cons_of_mem _ hc)⟩, rfl⟩, ends,
      by simp⟩
  | [], h => exact absurd rfl h.1

theorem isNumber_render (negative : Bool) (m : Nat) (e : Int) :
    IsNumber (render negative m e) := by
  have signs : (if negative then ['-'] else [] : List Char) = [] ∨
      (if negative then ['-'] else [] : List Char) = ['-'] := by
    cases negative
    · exact .inl rfl
    · exact .inr rfl
  unfold render
  dsimp only
  generalize (if negative then ['-'] else [] : List Char) = sign at *
  split
  · exact ⟨sign, ['0'], ['.', '0'], [], signs, .inl rfl,
      .inr ⟨['0'], isDigits_zero, rfl⟩, .inl rfl, by simp⟩
  · next h =>
    have leads := shortest_leads h e
    have digits := isDigits_toDigits (shortest m e).1
    split
    · next power =>
      -- A zero with so great a power of ten is not written with all its places.
      have zero : (shortest m e).1 ≠ 0 := by
        rcases leads with leads | leads
        · exact leads
        · have := List.length_pos_iff.2 digits.1
          omega
      obtain ⟨whole, fraction, hw, hf, laid⟩ :=
        positional_isNumber digits (head_toDigits zero) (shortest m e).2
      exact ⟨sign, whole, fraction, [], signs, hw, hf, .inl rfl, by simp [laid]⟩
    · obtain ⟨whole, fraction, tail, hw, hf, hp, laid⟩ := scientific_isNumber digits
        ((shortest m e).2 + ((Nat.toDigits 10 (shortest m e).1).length : Int) - 1)
      exact ⟨sign, whole, fraction, tail, signs, hw, hf, hp, by simp [laid]⟩

/-- The text of a double is a number. -/
theorem isNumber_toText? {x : Binary64} {text : String} (h : x.toText? = some text) :
    IsNumber text.toList := by
  cases x with
  | finite negative m e =>
    cases h
    rw [String.toList_ofList]
    exact isNumber_render negative m e
  | _ => cases h

end Binary64

end ScriptTree
