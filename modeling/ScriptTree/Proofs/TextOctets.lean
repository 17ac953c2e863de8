import ScriptTree.Text.Utf8

/-!
# Octets of texts

An octet of an ASCII character is never part of another character, so octets may be read on either
side of it (`decodeLossy_append`), whatever stands there. What is written is read back
(`decodeLossy_encode`): the bounds on a second octet leave out no character. Octets that can be read
without a replacement are those of the text that is read (`decode?_eq_some`).
-/
namespace ScriptTree.Utf8

/-- What can be tested of the characters below a bound one by one holds of each of them. -/
@[elab_as_elim]
theorem forall_below {P : Char → Prop} {bound : Nat} (h : ∀ v < bound, P (Char.ofNat v)) (c : Char)
    (below : c.toNat < bound) : P c := by
  have := h c.toNat below
  rwa [Char.ofNat_toNat] at this

/-- What may follow a first octet lies beyond ASCII. -/
theorem low_of_ofOctet {b low high tails : Nat} (h : Lead.ofOctet b = .follow low high tails) :
    0x80 ≤ low := by
  unfold Lead.ofOctet at h
  repeat' split at h
  all_goals cases h <;> omega

section

variable {mark : UInt8} (ascii : mark.toNat < 0x80)
include ascii

theorem between_ascii {low high : Nat} (h : 0x80 ≤ low) : between low high mark = false := by
  have : ¬low ≤ mark.toNat := by omega
  simp [between, this]

theorem readTails_append (n value : Nat) (bytes rest : List UInt8) :
    readTails n value (bytes ++ mark :: rest) =
      ((readTails n value bytes).1, (readTails n value bytes).2 ++ mark :: rest) := by
  induction n generalizing value bytes with
  | zero => rfl
  | succ n ih =>
    cases bytes with
    | nil => simp [readTails, between_ascii ascii]
    | cons b bytes =>
      simp only [List.cons_append, readTails]
      split
      · exact ih _ bytes
      · rfl

theorem readChar_append (b : UInt8) (bytes rest : List UInt8) :
    readChar b (bytes ++ mark :: rest) =
      ((readChar b bytes).1, (readChar b bytes).2 ++ mark :: rest) := by
  unfold readChar
  split
  · rfl
  · rfl
  · next low high tails lead =>
    cases bytes with
    | nil => simp [between_ascii ascii (low_of_ofOctet lead)]
    | cons second bytes =>
      simp only [List.cons_append]
      split
      · exact readTails_append ascii _ _ bytes rest
      · rfl

theorem scan_cons_ascii (rest : List UInt8) :
    scan (mark :: rest) = some (Char.ofNat mark.toNat) :: scan rest := by
  rw [scan]
  simp [readChar, Lead.ofOctet, ascii]

/-- Octets are read on either side of an ASCII character. -/
theorem scan_append (bytes rest : List UInt8) :
    scan (bytes ++ mark :: rest) =
      scan bytes ++ some (Char.ofNat mark.toNat) :: scan rest := by
  induction bytes using scan.induct with
  | case1 => rw [List.nil_append, scan_cons_ascii ascii, scan, List.nil_append]
  | case2 b bytes ih =>
    rw [List.cons_append, scan, readChar_append ascii, ih, scan, List.cons_append]

theorem decodeLossy_append (bytes rest : List UInt8) :
    decodeLossy (bytes ++ mark :: rest) =
      decodeLossy bytes ++ Char.ofNat mark.toNat :: decodeLossy rest := by
  rw [decodeLossy, scan_append ascii, List.map_append, List.map_cons]
  rfl

end

theorem toNat_lt_valid (c : Char) : c.toNat < 0x110000 := by
  have := c.valid
  unfold UInt32.isValidChar Nat.isValidChar at this
  unfold Char.toNat
  omega

/-- An octet of ASCII stands for itself, whatever character it is found in. -/
theorem toNat_of_mem_encodeChar {c : Char} {b : UInt8} (ascii : b.toNat < 0x80)
    (hb : b ∈ encodeChar c) : b.toNat = c.toNat := by
  have valid := toNat_lt_valid c
  have value {n : Nat} (h : b = UInt8.ofNat n) : b.toNat = n % 256 := by
    rw [h, UInt8.toNat_ofNat']
  unfold encodeChar at hb
  dsimp only at hb
  split at hb
  · have := value (List.mem_singleton.1 hb)
    omega
  · split at hb
    · simp only [List.mem_cons, List.not_mem_nil, or_false] at hb
      rcases hb with h | h <;> have := value h <;> omega
    · split at hb
      · simp only [List.mem_cons, List.not_mem_nil, or_false] at hb
        rcases hb with h | h | h <;> have := value h <;> omega
      · simp only [List.mem_cons, List.not_mem_nil, or_false] at hb
        rcases hb with h | h | h | h <;> have := value h <;> omega

theorem encodeChar_ascii {c : Char} (h : c.toNat < 0x80) : encodeChar c = [UInt8.ofNat c.toNat] := by
  rw [encodeChar, if_pos h]

theorem toNat_ofNat_ascii {c : Char} (h : c.toNat < 0x80) : (UInt8.ofNat c.toNat).toNat = c.toNat := by
  rw [UInt8.toNat_ofNat']
  omega

/-! ## Reading what is written -/

theorem encode_append (a b : List Char) : encode (a ++ b) = encode a ++ encode b :=
  List.flatMap_append

theorem toNat_ofNat_octet {n : Nat} (h : n < 0x100) : (UInt8.ofNat n).toNat = n := by
  rw [UInt8.toNat_ofNat']
  exact Nat.mod_eq_of_lt h

theorem not_surrogate (c : Char) : c.toNat < 0xD800 ∨ 0xDFFF < c.toNat := by
  have := c.valid
  unfold UInt32.isValidChar Nat.isValidChar at this
  unfold Char.toNat
  omega

theorem between_eq_true {low high n : Nat} (h : low ≤ n) (h' : n ≤ high) (small : n < 0x100) :
    between low high (UInt8.ofNat n) = true := by
  simp [between, UInt8.toNat_ofNat', Nat.mod_eq_of_lt small, h, h']

/-- A tail adds six bits. -/
theorem readTails_succ (n value : Nat) {bits : Nat} (h : bits < 0x40) (rest : List UInt8) :
    readTails (n + 1) value (UInt8.ofNat (0x80 + bits) :: rest) =
      readTails n (value * 0x40 + bits) rest := by
  rw [readTails, if_pos (between_eq_true (by omega) (by omega) (by omega)),
    toNat_ofNat_octet (by omega)]
  congr 2
  omega

/-- A character is read from its first octet, if the second one is within the bounds. -/
theorem readChar_follow {b low high tails bits : Nat} (hb : b < 0x100)
    (lead : Lead.ofOctet b = .follow low high tails) (h : bits < 0x40) (hlow : low ≤ 0x80 + bits)
    (hhigh : 0x80 + bits ≤ high) (rest : List UInt8) :
    readChar (UInt8.ofNat b) (UInt8.ofNat (0x80 + bits) :: rest) =
      readTails tails (Lead.bits b tails * 0x40 + bits) rest := by
  unfold readChar
  rw [toNat_ofNat_octet hb, lead]
  dsimp only
  rw [if_pos (between_eq_true hlow hhigh (by omega)), toNat_ofNat_octet (by omega)]
  congr 2
  omega

theorem ofOctet_two (high : Nat) (least : 2 ≤ high) (most : high < 0x20) :
    Lead.ofOctet (0xC0 + high) = .follow 0x80 0xBF 0 := by
  unfold Lead.ofOctet
  repeat' split
  all_goals first | omega | rfl

/-- The first octet of three leaves out what has a shorter form, and the surrogates. -/
theorem ofOctet_three (high middle : Nat) (most : high < 0x10) (bits : middle < 0x40)
    (least : 0x20 ≤ high * 0x40 + middle) (gap : high * 0x40 + middle < 0x360 ∨
      0x380 ≤ high * 0x40 + middle) :
    ∃ low up, Lead.ofOctet (0xE0 + high) = .follow low up 1 ∧
      low ≤ 0x80 + middle ∧ 0x80 + middle ≤ up := by
  unfold Lead.ofOctet
  repeat' split
  all_goals first | omega | exact ⟨_, _, rfl, by omega, by omega⟩

/-- The first octet of four leaves out what has a shorter form, and what is beyond the last
character. -/
theorem ofOctet_four (high middle : Nat) (bits : middle < 0x40)
    (least : 0x10 ≤ high * 0x40 + middle) (most : high * 0x40 + middle < 0x110) :
    ∃ low up, Lead.ofOctet (0xF0 + high) = .follow low up 2 ∧
      low ≤ 0x80 + middle ∧ 0x80 + middle ≤ up := by
  unfold Lead.ofOctet
  repeat' split
  all_goals first | omega | exact ⟨_, _, rfl, by omega, by omega⟩

/-- A character is read from the octets in which it is written. -/
theorem scan_encodeChar (c : Char) (rest : List UInt8) :
    scan (encodeChar c ++ rest) = some c :: scan rest := by
  have valid := toNat_lt_valid c
  have gap := not_surrogate c
  have last {value : Nat} (hv : value = c.toNat) :
      readTails 0 value rest = (some c, rest) := by
    rw [readTails, hv, Char.ofNat_toNat]
  have read {b : UInt8} {tail : List UInt8} (h : readChar b (tail ++ rest) = (some c, rest)) :
      scan (b :: tail ++ rest) = some c :: scan rest := by
    rw [List.cons_append, scan, h]
  unfold encodeChar
  generalize c.toNat = v at valid gap last
  dsimp only
  split
  · have lead : Lead.ofOctet v = .alone := by
      rw [Lead.ofOctet, if_pos (by omega)]
    refine read ?_
    unfold readChar
    rw [toNat_ofNat_octet (by omega), lead]
    exact last rfl
  · split
    · have bits : Lead.bits (0xC0 + v / 0x40) 0 = v / 0x40 := by
        show (0xC0 + v / 0x40) % 0x20 = _
        omega
      have lead := ofOctet_two (v / 0x40) (by omega) (by omega)
      refine read ((readChar_follow (by omega) lead (by omega) (by omega) (by omega) rest).trans ?_)
      rw [bits]
      exact last (by omega)
    · split
      · obtain ⟨low, up, lead, hlow, hup⟩ := ofOctet_three (v / 0x1000)
          (v / 0x40 % 0x40) (by omega) (by omega) (by omega) (by omega)
        have bits : Lead.bits (0xE0 + v / 0x1000) 1 = v / 0x1000 := by
          show (0xE0 + v / 0x1000) % 0x10 = _
          omega
        refine read ((readChar_follow (by omega) lead (by omega) hlow hup _).trans ?_)
        rw [bits]
        refine (readTails_succ 0 _ (by omega) rest).trans ?_
        exact last (by omega)
      · obtain ⟨low, up, lead, hlow, hup⟩ := ofOctet_four (v / 0x40000)
          (v / 0x1000 % 0x40) (by omega) (by omega) (by omega)
        have bits : Lead.bits (0xF0 + v / 0x40000) 2 = v / 0x40000 := by
          show (0xF0 + v / 0x40000) % 0x08 = _
          omega
        refine read ((readChar_follow (by omega) lead (by omega) hlow hup _).trans ?_)
        rw [bits]
        refine (readTails_succ 1 _ (by omega) _).trans ((readTails_succ 0 _ (by omega) rest).trans ?_)
        exact last (by omega)

theorem scan_encode (text : List Char) : scan (encode text) = text.map some := by
  induction text with
  | nil => rw [encode, List.flatMap_nil, scan, List.map_nil]
  | cons c text ih => rw [encode, List.flatMap_cons, scan_encodeChar, List.map_cons, ← encode, ih]

/-- A text is read from the octets in which it is written. -/
theorem decodeLossy_encode (text : List Char) : decodeLossy (encode text) = text := by
  rw [decodeLossy, scan_encode, List.map_map]
  exact List.map_id text

theorem encode_injective : Function.Injective encode := fun a b h => by
  rw [← decodeLossy_encode a, h, decodeLossy_encode]

/-! ## Octets that a text writes -/

theorem between_iff {low high : Nat} {b : UInt8} :
    between low high b = true ↔ low ≤ b.toNat ∧ b.toNat ≤ high := by
  simp [between]

/-- Tails are read one by one, each between two bounds. -/
theorem readTails_succ_eq_some {n value : Nat} {bytes rest : List UInt8} {c : Char}
    (h : readTails (n + 1) value bytes = (some c, rest)) :
    ∃ b tail, bytes = b :: tail ∧ 0x80 ≤ b.toNat ∧ b.toNat < 0xC0 ∧
      readTails n (value * 0x40 + b.toNat % 0x40) tail = (some c, rest) := by
  cases bytes with
  | nil => cases h
  | cons b tail =>
    rw [readTails] at h
    split at h
    · next bounds =>
      obtain ⟨low, high⟩ := between_iff.1 bounds
      exact ⟨b, tail, rfl, low, Nat.lt_succ_of_le high, h⟩
    · cases h

/-- The first octet of several tells how many tails follow, and bounds the second one where a
shorter form, a surrogate or a number beyond the last character could be written. -/
theorem bounds_of_ofOctet {b low high tails : Nat} (h : Lead.ofOctet b = .follow low high tails) :
    0x80 ≤ low ∧ high < 0xC0 ∧
      ((tails = 0 ∧ 0xC2 ≤ b ∧ b < 0xE0) ∨
        (tails = 1 ∧ 0xE0 ≤ b ∧ b < 0xF0 ∧ (b = 0xE0 → low = 0xA0) ∧ (b = 0xED → high = 0x9F)) ∨
        (tails = 2 ∧ 0xF0 ≤ b ∧ b < 0xF5 ∧ (b = 0xF0 → low = 0x90) ∧ (b = 0xF4 → high = 0x8F))) := by
  unfold Lead.ofOctet at h
  repeat' split at h
  all_goals first
    | cases h
      done
    | cases h
      omega

theorem toNat_ofNat_valid {v : Nat} (h : v < 0xD800 ∨ 0xDFFF < v ∧ v < 0x110000) :
    (Char.ofNat v).toNat = v := by
  have valid : v.isValidChar := by
    unfold Nat.isValidChar
    omega
  rw [Char.ofNat, dif_pos valid]
  rfl

theorem eq_ofNat {b : UInt8} {n : Nat} (h : b.toNat = n) : b = UInt8.ofNat n := by
  rw [← h, UInt8.ofNat_toNat]

theorem two_octets {a b : UInt8} {v : Nat} {rest : List UInt8} (range : 0x80 ≤ v ∧ v < 0x800)
    (ha : a.toNat = 0xC0 + v / 0x40) (hb : b.toNat = 0x80 + v % 0x40) :
    a :: b :: rest = encodeChar (Char.ofNat v) ++ rest := by
  unfold encodeChar
  rw [toNat_ofNat_valid (by omega)]
  dsimp only
  rw [if_neg (by omega), if_pos (by omega), ← eq_ofNat ha, ← eq_ofNat hb]
  rfl

theorem three_octets {a b c : UInt8} {v : Nat} {rest : List UInt8}
    (range : 0x800 ≤ v ∧ (v < 0xD800 ∨ 0xDFFF < v) ∧ v < 0x10000)
    (ha : a.toNat = 0xE0 + v / 0x1000) (hb : b.toNat = 0x80 + v / 0x40 % 0x40)
    (hc : c.toNat = 0x80 + v % 0x40) :
    a :: b :: c :: rest = encodeChar (Char.ofNat v) ++ rest := by
  unfold encodeChar
  rw [toNat_ofNat_valid (by omega)]
  dsimp only
  rw [if_neg (by omega), if_neg (by omega), if_pos (by omega), ← eq_ofNat ha, ← eq_ofNat hb,
    ← eq_ofNat hc]
  rfl

theorem four_octets {a b c d : UInt8} {v : Nat} {rest : List UInt8}
    (range : 0x10000 ≤ v ∧ v < 0x110000) (ha : a.toNat = 0xF0 + v / 0x40000)
    (hb : b.toNat = 0x80 + v / 0x1000 % 0x40) (hc : c.toNat = 0x80 + v / 0x40 % 0x40)
    (hd : d.toNat = 0x80 + v % 0x40) :
    a :: b :: c :: d :: rest = encodeChar (Char.ofNat v) ++ rest := by
  unfold encodeChar
  rw [toNat_ofNat_valid (by omega)]
  dsimp only
  rw [if_neg (by omega), if_neg (by omega), if_neg (by omega), ← eq_ofNat ha, ← eq_ofNat hb,
    ← eq_ofNat hc, ← eq_ofNat hd]
  rfl

/-- The octets from which a character is read are those in which it is written. -/
theorem eq_encodeChar_of_readChar {b : UInt8} {bytes rest : List UInt8} {c : Char}
    (h : readChar b bytes = (some c, rest)) : b :: bytes = encodeChar c ++ rest := by
  have octet := b.toNat_lt
  unfold readChar at h
  split at h
  · next alone =>
    obtain ⟨⟨⟩, rfl⟩ := Prod.mk.inj h
    have ascii : b.toNat < 0x80 := by
      unfold Lead.ofOctet at alone
      repeat' split at alone
      all_goals first
        | assumption
        | cases alone
    have value := toNat_ofNat_valid (.inl (Nat.lt_trans ascii (by decide)))
    rw [encodeChar_ascii (value.symm ▸ ascii), value, UInt8.ofNat_toNat]
    rfl
  · cases h
  · next low high tails lead =>
    obtain ⟨least, most, kinds⟩ := bounds_of_ofOctet lead
    cases bytes with
    | nil => cases h
    | cons second bytes =>
      dsimp only at h
      split at h
      · next bounds =>
        obtain ⟨above, below⟩ := between_iff.1 bounds
        rcases kinds with
          ⟨rfl, least, most⟩ | ⟨rfl, least, most, short, gap⟩ | ⟨rfl, least, most, short, last⟩
        · obtain ⟨⟨⟩, rfl⟩ := Prod.mk.inj h
          rw [show Lead.bits b.toNat 0 = b.toNat % 0x20 from rfl]
          refine two_octets ?_ ?_ ?_ <;> omega
        · obtain ⟨third, tail, rfl, low', high', h⟩ := readTails_succ_eq_some h
          obtain ⟨⟨⟩, rfl⟩ := Prod.mk.inj h
          rw [show Lead.bits b.toNat 1 = b.toNat % 0x10 from rfl]
          refine three_octets ?_ ?_ ?_ ?_ <;> omega
        · obtain ⟨third, tail, rfl, low', high', h⟩ := readTails_succ_eq_some h
          obtain ⟨fourth, tail, rfl, low'', high'', h⟩ := readTails_succ_eq_some h
          obtain ⟨⟨⟩, rfl⟩ := Prod.mk.inj h
          rw [show Lead.bits b.toNat 2 = b.toNat % 0x08 from rfl]
          refine four_octets ?_ ?_ ?_ ?_ ?_ <;> omega
      · cases h

theorem mapM_id_eq_some {marks : List (Option Char)} {text : List Char} :
    marks.mapM id = some text ↔ marks = text.map some := by
  induction marks generalizing text with
  | nil => cases text <;> simp
  | cons mark marks ih =>
    cases mark with
    | none => cases text <;> simp
    | some c =>
      rw [List.mapM_cons]
      simp only [id, Option.pure_def, Option.bind_eq_bind, Option.bind_some,
        Option.bind_eq_some_iff, Option.some.injEq, ih]
      constructor
      · rintro ⟨others, rfl, rfl⟩
        rfl
      · intro same
        cases text with
        | nil => cases same
        | cons d text =>
          obtain ⟨first, rest⟩ := List.cons.inj same
          exact ⟨text, rest, by rw [Option.some.inj first]⟩

theorem eq_encode_of_scan {bytes : List UInt8} {text : List Char}
    (h : scan bytes = text.map some) : bytes = encode text := by
  induction text generalizing bytes with
  | nil =>
    cases bytes with
    | nil => rfl
    | cons b bytes =>
      rw [scan] at h
      cases h
  | cons c text ih =>
    cases bytes with
    | nil =>
      rw [scan] at h
      cases h
    | cons b bytes =>
      rw [scan, List.map_cons] at h
      obtain ⟨first, rest⟩ := List.cons.inj h
      have read : readChar b bytes = (some c, (readChar b bytes).2) := by rw [← first]
      rw [encode, List.flatMap_cons, ← encode, ← ih rest]
      exact eq_encodeChar_of_readChar read

/-- Strictly read, octets are a text exactly if it is written in them. -/
theorem decode?_eq_some {bytes : List UInt8} {text : List Char} :
    decode? bytes = some text ↔ bytes = encode text := by
  rw [decode?, mapM_id_eq_some]
  constructor
  · exact eq_encode_of_scan
  · rintro rfl
    exact scan_encode text

end ScriptTree.Utf8
