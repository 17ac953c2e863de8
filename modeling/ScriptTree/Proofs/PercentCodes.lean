import ScriptTree.Proofs.TextOctets
import ScriptTree.Url.Percent

/-!
# Percent codes read back

`decode_encodeOctets`: octets are read back from their codes. `decode_encode`: encoding the text of
a URL once more changes nothing that is read from it. A text is read as one dot, or as two, only if
it is one, or two, when its encoded dots are read.
-/
namespace ScriptTree.Percent

theorem digitValue?_hexDigit : ∀ n < 16, Decimal.digitValue? 16 (hexDigit n) = some n := by
  decide

theorem digitValue?_percent : Decimal.digitValue? 16 '%' = none := by
  decide

/-! ## Decoding step by step -/

@[simp] theorem decode_nil : decode [] = [] := by
  rw [decode]

theorem decode_cons {c : Char} (hc : c ≠ '%') (rest : List Char) :
    decode (c :: rest) = Utf8.encodeChar c ++ decode rest := by
  rw [decode.eq_def]
  split
  · next h => cases h
  · next h =>
    obtain ⟨rfl, -⟩ := List.cons.inj h
    exact absurd rfl hc
  · next h =>
    obtain ⟨rfl, rfl⟩ := List.cons.inj h
    rfl

theorem decode_code {a b : Char} {high low : Nat} (ha : Decimal.digitValue? 16 a = some high)
    (hb : Decimal.digitValue? 16 b = some low) (rest : List Char) :
    decode ('%' :: a :: b :: rest) = UInt8.ofNat (high * 16 + low) :: decode rest := by
  rw [decode, ha, hb]

/-- Whether a text starts with two hexadecimal digits. -/
def StartsWithDigits (text : List Char) : Prop :=
  ∃ a b rest, text = a :: b :: rest ∧ (∃ high, Decimal.digitValue? 16 a = some high) ∧
    ∃ low, Decimal.digitValue? 16 b = some low

/-- A percent sign that does not start a code stands for itself. -/
theorem decode_percent {rest : List Char} (h : ¬StartsWithDigits rest) :
    decode ('%' :: rest) = 0x25 :: decode rest := by
  match rest, h with
  | [], _ => rfl
  | [a], _ => rfl
  | a :: b :: others, h =>
    rw [decode]
    split
    · next high low ha hb => exact (h ⟨a, b, others, rfl, ⟨high, ha⟩, low, hb⟩).elim
    · rfl

/-! ## Texts without codes -/

/-- Whether a percent sign in a text starts a code. -/
def HasCode (text : List Char) : Prop :=
  ∃ rest, '%' :: rest <:+ text ∧ StartsWithDigits rest

theorem not_hasCode_of_notMem {text : List Char} (h : '%' ∉ text) : ¬HasCode text := by
  rintro ⟨rest, suffix, -⟩
  exact h (suffix.subset List.mem_cons_self)

theorem not_hasCode_of_cons {c : Char} {text : List Char} (h : ¬HasCode (c :: text)) :
    ¬HasCode text := fun ⟨rest, suffix, digits⟩ =>
  h ⟨rest, suffix.trans (List.suffix_cons c text), digits⟩

/-- A code in a part of a text is one in the text. -/
theorem HasCode.of_infix {part text : List Char} (h : HasCode part) (inside : part <:+: text) :
    HasCode text := by
  obtain ⟨before, after, rfl⟩ := inside
  obtain ⟨rest, suffix, a, b, others, rfl, digits⟩ := h
  obtain ⟨start, rfl⟩ := suffix
  refine ⟨a :: b :: (others ++ after), ⟨before ++ start, by simp⟩, a, b, _, rfl, digits⟩

theorem hasCode_cons {c : Char} {text : List Char} :
    HasCode (c :: text) ↔ c = '%' ∧ StartsWithDigits text ∨ HasCode text := by
  constructor
  · rintro ⟨rest, suffix, digits⟩
    rcases List.suffix_cons_iff.1 suffix with e | suffix
    · obtain ⟨rfl, rfl⟩ := List.cons.inj e
      exact .inl ⟨rfl, digits⟩
    · exact .inr ⟨rest, suffix, digits⟩
  · rintro (⟨rfl, digits⟩ | code)
    · exact ⟨text, List.suffix_refl _, digits⟩
    · exact code.of_infix (List.suffix_cons c text).isInfix

instance : DecidablePred StartsWithDigits
  | [] => .isFalse fun ⟨_, _, _, h, _⟩ => nomatch h
  | [_] => .isFalse fun ⟨_, _, _, h, _⟩ => nomatch h
  | a :: b :: rest =>
    decidable_of_iff ((Decimal.digitValue? 16 a).isSome ∧ (Decimal.digitValue? 16 b).isSome) <| by
      rw [Option.isSome_iff_exists, Option.isSome_iff_exists]
      constructor
      · exact fun digits => ⟨a, b, rest, rfl, digits⟩
      · rintro ⟨_, _, _, ⟨⟩, digits⟩
        exact digits

instance decidableHasCode : DecidablePred HasCode
  | [] => .isFalse (not_hasCode_of_notMem List.not_mem_nil)
  | _ :: text =>
    have := decidableHasCode text
    decidable_of_iff _ hasCode_cons.symm

/-- A text without codes is read as it is. -/
theorem decode_eq_encode {text : List Char} (h : ¬HasCode text) : decode text = Utf8.encode text := by
  induction text with
  | nil => rw [decode_nil, Utf8.encode, List.flatMap_nil]
  | cons c text ih =>
    have rest := ih (not_hasCode_of_cons h)
    rw [Utf8.encode, List.flatMap_cons, ← Utf8.encode, ← rest]
    by_cases hc : c = '%'
    · subst hc
      exact decode_percent fun digits => h ⟨text, List.suffix_refl _, digits⟩
    · exact decode_cons hc text

/-! ## Octets read back -/

theorem toNat_ofNat_octet (b : UInt8) : (Char.ofNat b.toNat).toNat = b.toNat := by
  have := b.toNat_lt
  rw [Char.ofNat, dif_pos (Or.inl (by omega))]
  rfl

theorem decode_escape (b : UInt8) (rest : List Char) : decode (escape b ++ rest) = b :: decode rest := by
  have hb := b.toNat_lt
  have high := digitValue?_hexDigit (b.toNat / 16) (by omega)
  have low := digitValue?_hexDigit (b.toNat % 16) (by omega)
  have value : b.toNat / 16 * 16 + b.toNat % 16 = b.toNat := by omega
  rw [escape, List.cons_append, List.cons_append, List.singleton_append, decode_code high low, value,
    UInt8.ofNat_toNat]

/-- Octets are read back if a percent sign and all beyond ASCII are encoded. -/
theorem decode_encodeOctets {set : Char → Bool} {bytes : List UInt8}
    (h : ∀ b ∈ bytes, set (Char.ofNat b.toNat) = false → b.toNat < 0x80 ∧ b ≠ 0x25)
    (rest : List Char) : decode (encodeOctets set bytes ++ rest) = bytes ++ decode rest := by
  induction bytes with
  | nil => rfl
  | cons b bytes ih =>
    have ih := ih fun b hb => h b (List.mem_cons_of_mem _ hb)
    have cons : encodeOctets set (b :: bytes) = encodeOctet set b ++ encodeOctets set bytes := by
      simp [encodeOctets]
    rw [cons, List.append_assoc, encodeOctet]
    cases hs : set (Char.ofNat b.toNat) with
    | true => rw [if_pos rfl, decode_escape, ih, List.cons_append]
    | false =>
      obtain ⟨small, plain⟩ := h b List.mem_cons_self hs
      have toNat := toNat_ofNat_octet b
      have octet : Utf8.encodeChar (Char.ofNat b.toNat) = [b] := by
        rw [Utf8.encodeChar, toNat, if_pos small, UInt8.ofNat_toNat]
      have notPercent : Char.ofNat b.toNat ≠ '%' := by
        intro e
        rw [e] at toNat
        exact plain (UInt8.toNat_inj.1 toNat.symm)
      rw [if_neg (by simp), List.singleton_append, decode_cons notPercent, octet, ih]
      rfl

theorem inPath_of_le {c : Char} (h : 0x80 ≤ c.toNat) : inPath c := by
  simp only [inPath, inFragment, isControl, Bool.or_eq_true, decide_eq_true_eq]
  omega

theorem decode_encodeOctets_inFileName (bytes : List UInt8) :
    decode (encodeOctets inFileName bytes) = bytes := by
  have safe : ∀ b ∈ bytes, inFileName (Char.ofNat b.toNat) = false → b.toNat < 0x80 ∧ b ≠ 0x25 := by
    intro b _ hs
    have toNat := toNat_ofNat_octet b
    simp only [inFileName, Bool.or_eq_false_iff, beq_eq_false_iff_ne] at hs
    refine ⟨?_, ?_⟩
    · refine Nat.lt_of_not_le fun large => ?_
      have := inPath_of_le (c := Char.ofNat b.toNat) (by omega)
      simp [hs.1.1.1] at this
    · rintro rfl
      exact hs.1.2 rfl
  simpa using decode_encodeOctets safe []

/-! ## Encoding once more -/

theorem encode_cons (set : Char → Bool) (c : Char) (text : List Char) :
    encode set (c :: text) = encodeOctets set (Utf8.encodeChar c) ++ encode set text := by
  simp [encode, Utf8.encode, encodeOctets]

theorem encode_cons_plain {set : Char → Bool} {c : Char} (small : c.toNat < 0x80)
    (hs : set c = false) (text : List Char) : encode set (c :: text) = c :: encode set text := by
  have value : (UInt8.ofNat c.toNat).toNat = c.toNat := by
    rw [UInt8.toNat_ofNat']
    omega
  have char : Char.ofNat (UInt8.ofNat c.toNat).toNat = c := by rw [value, Char.ofNat_toNat]
  have octet : encodeOctet set (UInt8.ofNat c.toNat) = [c] := by
    rw [encodeOctet, char, hs, if_neg (by simp)]
  rw [encode_cons, Utf8.encodeChar, if_pos small, encodeOctets, List.flatMap_singleton, octet,
    List.singleton_append]

/-- Each octet of a character other than the percent sign is another one too. -/
theorem notMem_encodeChar {c : Char} (hc : c ≠ '%') : ∀ b ∈ Utf8.encodeChar c, b ≠ 0x25 := by
  intro b hb e
  subst e
  exact hc (Char.toNat_inj.1 (Utf8.toNat_of_mem_encodeChar (by decide) hb).symm)

/-- A character other than a percent sign is read the same from its code. -/
theorem decode_encode_cons {c : Char} (hc : c ≠ '%') (text : List Char) :
    decode (encode inPath (c :: text)) = Utf8.encodeChar c ++ decode (encode inPath text) := by
  rw [encode_cons]
  refine decode_encodeOctets (fun b hb hs => ⟨?_, notMem_encodeChar hc b hb⟩) _
  refine Nat.lt_of_not_le fun large => ?_
  have := inPath_of_le (c := Char.ofNat b.toNat) (by rw [toNat_ofNat_octet]; exact large)
  simp [hs] at this

theorem inPath_of_digitValue? {c : Char} {n : Nat} (h : Decimal.digitValue? 16 c = some n) :
    c.toNat < 0x80 ∧ inPath c = false := by
  have small : c.toNat < 0x67 := by
    refine Nat.lt_of_not_le fun large => ?_
    have above {d : Char} (hd : d.toNat < 0x67) : ¬c ≤ d := fun hc => by
      have : c.toNat ≤ d.toNat := hc
      omega
    simp [Decimal.digitValue?, above (d := '9') (by decide), above (d := 'f') (by decide),
      above (d := 'F') (by decide)] at h
  have all : Decimal.digitValue? 16 c = none ∨ inPath c = false :=
    Utf8.forall_below (by decide) c small
  rcases all with none | plain
  · rw [h] at none
    cases none
  · exact ⟨by omega, plain⟩

/-- What is encoded starts with a percent sign. -/
theorem encode_cons_code {c : Char} (h : c.toNat < 0x80 → inPath c) (text : List Char) :
    ∃ rest, encode inPath (c :: text) = '%' :: rest := by
  have first : ∃ b bytes, Utf8.encodeChar c = b :: bytes ∧ inPath (Char.ofNat b.toNat) := by
    simp only [Utf8.encodeChar]
    have high {n : Nat} (hn : 0x80 ≤ n % 256) :
        inPath (Char.ofNat (UInt8.ofNat n).toNat) := by
      refine inPath_of_le ?_
      rw [toNat_ofNat_octet, UInt8.toNat_ofNat']
      exact hn
    have valid := Utf8.toNat_lt_valid c
    split
    · next small =>
      refine ⟨_, _, rfl, ?_⟩
      have value : (UInt8.ofNat c.toNat).toNat = c.toNat := by
        rw [UInt8.toNat_ofNat']
        omega
      rw [value, Char.ofNat_toNat]
      exact h small
    · split
      · exact ⟨_, _, rfl, high (by omega)⟩
      · split
        · exact ⟨_, _, rfl, high (by omega)⟩
        · exact ⟨_, _, rfl, high (by omega)⟩
  obtain ⟨b, bytes, hb, hs⟩ := first
  rw [encode_cons, hb, encodeOctets, List.flatMap_cons, encodeOctet, if_pos hs]
  exact ⟨_, rfl⟩

/-- A digit at the start of what is encoded is there already. -/
theorem encode_eq_cons_digit {text rest : List Char} {c : Char} {n : Nat}
    (h : encode inPath text = c :: rest) (hc : Decimal.digitValue? 16 c = some n) :
    ∃ others, text = c :: others ∧ rest = encode inPath others := by
  cases text with
  | nil => cases h
  | cons d text =>
    by_cases plain : d.toNat < 0x80 ∧ inPath d = false
    · rw [encode_cons_plain plain.1 plain.2] at h
      obtain ⟨rfl, rfl⟩ := List.cons.inj h
      exact ⟨text, rfl, rfl⟩
    · obtain ⟨code, hcode⟩ := encode_cons_code (c := d) (fun small => by simpa [small] using plain) text
      rw [hcode] at h
      obtain ⟨rfl, -⟩ := List.cons.inj h
      rw [digitValue?_percent] at hc
      cases hc

theorem startsWithDigits_of_encode {text : List Char}
    (h : StartsWithDigits (encode inPath text)) : StartsWithDigits text := by
  obtain ⟨a, b, rest, h, ⟨high, ha⟩, low, hb⟩ := h
  obtain ⟨others, rfl, hrest⟩ := encode_eq_cons_digit h ha
  obtain ⟨others', rfl, -⟩ := encode_eq_cons_digit hrest.symm hb
  exact ⟨a, b, others', rfl, ⟨high, ha⟩, low, hb⟩

/-- Encoding the text of a path once more does not change what is read from it. -/
theorem decode_encode (text : List Char) : decode (encode inPath text) = decode text := by
  have plain : ('%').toNat < 0x80 ∧ inPath '%' = false := by decide
  have percent {rest : List Char} (ih : decode (encode inPath rest) = decode rest)
      (h : ¬StartsWithDigits rest) :
      decode (encode inPath ('%' :: rest)) = decode ('%' :: rest) := by
    rw [encode_cons_plain plain.1 plain.2, decode_percent h,
      decode_percent (mt startsWithDigits_of_encode h), ih]
  induction text using decode.induct with
  | case1 => rfl
  | case2 b a rest high low hb ha ih =>
    obtain ⟨sa, pa⟩ := inPath_of_digitValue? ha
    obtain ⟨sb, pb⟩ := inPath_of_digitValue? hb
    rw [encode_cons_plain plain.1 plain.2, encode_cons_plain sa pa, encode_cons_plain sb pb,
      decode_code ha hb, decode_code ha hb, ih]
  | case3 a b rest noCode ih =>
    refine percent ih ?_
    rintro ⟨x, y, others, h, ⟨high, hx⟩, low, hy⟩
    cases h
    exact noCode high low hx hy
  | case4 c rest short ih =>
    by_cases hc : c = '%'
    · subst hc
      refine percent ih ?_
      rintro ⟨x, y, others, h, -⟩
      exact short x y others rfl h
    · rw [decode_encode_cons hc, decode_cons hc, ih]

/-! ## Dots -/

theorem encodeChar_ne_nil (c : Char) : Utf8.encodeChar c ≠ [] := by
  simp only [Utf8.encodeChar]
  split
  · simp
  · split
    · simp
    · split <;> simp

theorem decode_eq_nil {text : List Char} (h : decode text = []) : text = [] := by
  cases text with
  | nil => rfl
  | cons c text =>
    by_cases hc : c = '%'
    · subst hc
      by_cases code : StartsWithDigits text
      · obtain ⟨a, b, rest, rfl, ⟨high, ha⟩, low, hb⟩ := code
        rw [decode_code ha hb] at h
        cases h
      · rw [decode_percent code] at h
        cases h
    · rw [decode_cons hc] at h
      exact absurd (List.append_eq_nil_iff.1 h).1 (encodeChar_ne_nil c)

theorem encodeChar_eq_dot_cons {c : Char} {rest bytes : List UInt8}
    (h : Utf8.encodeChar c ++ bytes = 0x2E :: rest) : c = '.' ∧ bytes = rest := by
  have valid := Utf8.toNat_lt_valid c
  simp only [Utf8.encodeChar] at h
  have first {n : Nat} (hn : UInt8.ofNat n = 0x2E) : n % 256 = 0x2E := by
    have := congrArg UInt8.toNat hn
    rw [UInt8.toNat_ofNat'] at this
    exact this
  split at h
  · obtain ⟨hc, hrest⟩ := List.cons.inj h
    have := first hc
    refine ⟨Char.toNat_inj.1 ?_, hrest⟩
    show c.toNat = 0x2E
    omega
  · split at h
    · have := first (List.cons.inj h).1
      omega
    · split at h
      · have := first (List.cons.inj h).1
        omega
      · have := first (List.cons.inj h).1
        omega

/-- The digits of the code of a dot. -/
theorem digits_of_dot {a b : Char} {high low : Nat} (ha : Decimal.digitValue? 16 a = some high)
    (hb : Decimal.digitValue? 16 b = some low) (h : UInt8.ofNat (high * 16 + low) = 0x2E) :
    a = '2' ∧ (b = 'e' ∨ b = 'E') := by
  have value : (high * 16 + low) % 256 = 0x2E := by
    have := congrArg UInt8.toNat h
    rw [UInt8.toNat_ofNat'] at this
    exact this
  have := Decimal.digitValue?_lt ha
  have := Decimal.digitValue?_lt hb
  have two : high = 2 := by omega
  have fourteen : low = 14 := by omega
  subst two fourteen
  have small := (inPath_of_digitValue? ha).1
  have small' := (inPath_of_digitValue? hb).1
  have digit : Decimal.digitValue? 16 a = some 2 → a = '2' :=
    Utf8.forall_below (by decide) a small
  have letter : Decimal.digitValue? 16 b = some 14 → b = 'e' ∨ b = 'E' :=
    Utf8.forall_below (by decide) b small'
  exact ⟨digit ha, letter hb⟩

/-- A dot is read from a dot or from its code. -/
theorem decode_eq_dot_cons {text : List Char} {rest : List UInt8}
    (h : decode text = 0x2E :: rest) :
    ∃ others, decode others = rest ∧
      (text = '.' :: others ∨ text = '%' :: '2' :: 'e' :: others ∨
        text = '%' :: '2' :: 'E' :: others) := by
  cases text with
  | nil => cases h
  | cons c text =>
    by_cases hc : c = '%'
    · subst hc
      by_cases code : StartsWithDigits text
      · obtain ⟨a, b, others, rfl, ⟨high, ha⟩, low, hb⟩ := code
        rw [decode_code ha hb] at h
        obtain ⟨hdot, hrest⟩ := List.cons.inj h
        obtain ⟨rfl, rfl | rfl⟩ := digits_of_dot ha hb hdot
        · exact ⟨others, hrest, .inr (.inl rfl)⟩
        · exact ⟨others, hrest, .inr (.inr rfl)⟩
      · rw [decode_percent code] at h
        exact absurd (List.cons.inj h).1 (by decide)
    · rw [decode_cons hc] at h
      obtain ⟨rfl, hrest⟩ := encodeChar_eq_dot_cons h
      exact ⟨text, hrest, .inl rfl⟩

end ScriptTree.Percent
