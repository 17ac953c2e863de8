import ScriptTree.Json.Printer
import ScriptTree.Json.Reader
import ScriptTree.Proofs.TextOctets

/-!
# JSON strings read back

A text in quotes is read as that text (`readString_quote`): what is written for a character is read
as the UTF-16 units of that character, and the units of a text as the text.
-/
namespace ScriptTree

namespace Utf16

theorem not_surrogate {c : Char} (small : c.toNat < 0x10000) :
    (isLeading c.toNat || isTrailing c.toNat) = false := by
  have valid := c.valid
  have value : c.val.toNat = c.toNat := rfl
  unfold UInt32.isValidChar Nat.isValidChar at valid
  rw [value] at valid
  simp only [isLeading, isTrailing, Bool.or_eq_false_iff, Bool.and_eq_false_iff,
    decide_eq_false_iff_not]
  omega

/-- A unit outside the surrogates stands for a character, whatever comes after it. -/
theorem decode?_cons {u : Nat} (single : (isLeading u || isTrailing u) = false) (rest : List Nat) :
    decode? (u :: rest) = (decode? rest).map (Char.ofNat u :: ·) := by
  cases rest with
  | nil => simp [decode?, single]
  | cons v rest =>
    have leading : isLeading u = false := (Bool.or_eq_false_iff.1 single).1
    rw [decode?, leading, Bool.false_and, if_neg Bool.false_ne_true, ← leading, single,
      if_neg Bool.false_ne_true]

theorem decode?_encodeChar (c : Char) (rest : List Nat) :
    decode? (encodeChar c ++ rest) = (decode? rest).map (c :: ·) := by
  have valid := Utf8.toNat_lt_valid c
  unfold encodeChar encodeCodePoint
  by_cases small : c.toNat < 0x10000
  · rw [if_pos small, List.singleton_append, decode?_cons (not_surrogate small), Char.ofNat_toNat]
  · rw [if_neg small, List.cons_append, List.singleton_append, decode?]
    have pair : (isLeading (0xD800 + (c.toNat - 0x10000) / 0x400) &&
        isTrailing (0xDC00 + (c.toNat - 0x10000) % 0x400)) = true := by
      simp only [isLeading, isTrailing, Bool.and_eq_true, decide_eq_true_eq]
      omega
    have joined : join (0xD800 + (c.toNat - 0x10000) / 0x400)
        (0xDC00 + (c.toNat - 0x10000) % 0x400) = c := by
      have value : 0x10000 + (0xD800 + (c.toNat - 0x10000) / 0x400 - 0xD800) * 0x400 +
          (0xDC00 + (c.toNat - 0x10000) % 0x400 - 0xDC00) = c.toNat := by
        omega
      rw [join, value, Char.ofNat_toNat]
    rw [if_pos pair, joined]

theorem encode_cons (c : Char) (text : List Char) :
    encode (c :: text) = encodeChar c ++ encode text :=
  List.flatMap_cons

/-- The units of a text are read as that text. -/
theorem decode?_encode (text : List Char) : decode? (encode text) = some text := by
  induction text with
  | nil => rfl
  | cons c text ih =>
    rw [encode_cons, decode?_encodeChar, ih]
    rfl

end Utf16

namespace Json

/-- What is written for a character stands for it: it is a letter after a backslash, or a code. -/
def escapes (c : Char) : Bool :=
  match escapeChar c with
  | ['\\', letter] => letter != 'u' && shortEscape? letter == some c
  | ['\\', 'u', a, b, x, y] => hexUnit? a b x y == some c.toNat
  | _ => false

theorem escapes_control {c : Char} (control : c.toNat < 0x20) : escapes c = true :=
  Utf8.forall_below (by decide) c control

theorem readUnits_of_escapes {c : Char} (h : escapes c = true) (small : c.toNat < 0x10000)
    (rest : List Char) :
    readUnits (escapeChar c ++ rest) =
      (readUnits rest).map fun (us, rest) => (Utf16.encodeChar c ++ us, rest) := by
  unfold escapes at h
  split at h
  · next letter written =>
    simp only [Bool.and_eq_true, bne_iff_ne, ne_eq, beq_iff_eq] at h
    rw [written, List.cons_append, List.singleton_append, readUnits, h.2]
    · cases readUnits rest <;> rfl
    · grind
  · next a b x y written =>
    rw [written]
    simp only [List.cons_append, List.nil_append, readUnits, beq_iff_eq.1 h]
    rw [Utf16.encodeChar, Utf16.encodeCodePoint, if_pos small]
    cases readUnits rest <;> rfl
  · cases h

theorem readUnits_plain {c : Char} (quote : c ≠ '"') (backslash : c ≠ '\\')
    (h : ¬c.toNat < 0x20) (rest : List Char) :
    readUnits (c :: rest) =
      (readUnits rest).map fun (us, rest) => (Utf16.encodeChar c ++ us, rest) := by
  rw [readUnits, if_neg] <;> grind

/-- What is written for a character is read as its units. -/
theorem readUnits_escapeChar (c : Char) (rest : List Char) :
    readUnits (escapeChar c ++ rest) =
      (readUnits rest).map fun (us, rest) => (Utf16.encodeChar c ++ us, rest) := by
  by_cases quote : c = '"'
  · exact readUnits_of_escapes (quote ▸ rfl) (quote ▸ by decide) rest
  by_cases backslash : c = '\\'
  · exact readUnits_of_escapes (backslash ▸ rfl) (backslash ▸ by decide) rest
  by_cases control : c.toNat < 0x20
  · exact readUnits_of_escapes (escapes_control control) (by omega) rest
  · have written : escapeChar c = [c] := by
      rw [escapeChar, if_neg quote, if_neg backslash, if_pos (by omega)]
    rw [written, List.singleton_append, readUnits_plain quote backslash control]

theorem readUnits_escaped (text rest : List Char) :
    readUnits (text.flatMap escapeChar ++ '"' :: rest) = some (Utf16.encode text, rest) := by
  induction text with
  | nil => rw [List.flatMap_nil, List.nil_append, readUnits]; rfl
  | cons c text ih =>
    rw [List.flatMap_cons, List.append_assoc, readUnits_escapeChar, ih, Utf16.encode_cons]
    rfl

/-- A text in quotes is read after its opening quote. -/
theorem readString_quote (text : String) (rest : List Char) :
    readString (text.toList.flatMap escapeChar ++ '"' :: rest) = some (text, rest) := by
  rw [readString, readUnits_escaped]
  simp only [Option.bind_eq_bind, Option.bind_some, Utf16.decode?_encode, Option.pure_def,
    String.ofList_toList]

end Json

end ScriptTree
