import ScriptTree.Files.Building
import ScriptTree.Proofs.JsonStrings
import ScriptTree.Proofs.Results

/-!
# Saved texts read back

A text may be saved behind the mark of an encoding or, unless it starts like the mark of UTF-8 itself,
in UTF-8 without a mark. Whichever it is, the file is read as that text (`decodeSource_of_savedAs`):
no octets of a text in UTF-8 look like the mark of another encoding (`detect_encode`), and units are
read back from their octets in either order (`decodeBytes_encodeBytes`). So a build of the file is the
build of the text (`saved_text_read_back`).
-/
namespace ScriptTree

namespace Utf16

/-! ## Units and octets -/

/-- What the strict reader reads, the lenient one reads as well. -/
theorem decodeLossy_of_decode? {us : List Nat} {text : List Char} (h : decode? us = some text) :
    decodeLossy us = text := by
  fun_induction decode? us generalizing text with
  | case1 => simpa [decodeLossy] using h
  | case2 u lone => simp at h
  | case3 u plain =>
    simp only [Option.some.injEq] at h
    subst h
    simp [decodeLossy, single, plain]
  | case4 u v rest pair ih =>
    obtain ⟨others, read, rfl⟩ := Option.map_eq_some_iff.1 h
    rw [decodeLossy, if_pos pair, ih read]
  | case5 u v rest unpaired lone => simp at h
  | case6 u v rest unpaired plain ih =>
    obtain ⟨others, read, rfl⟩ := Option.map_eq_some_iff.1 h
    rw [decodeLossy, if_neg unpaired, ih read, single, if_neg plain]

theorem encodeChar_lt (c : Char) : ∀ u ∈ encodeChar c, u < 0x10000 := by
  intro u hu
  have valid := Utf8.toNat_lt_valid c
  unfold encodeChar encodeCodePoint at hu
  split at hu
  · simp only [List.mem_singleton] at hu
    omega
  · simp only [List.mem_cons, List.not_mem_nil, or_false] at hu
    rcases hu with hu | hu <;> omega

theorem encode_lt (text : List Char) : ∀ u ∈ encode text, u < 0x10000 := by
  intro u hu
  obtain ⟨c, -, hc⟩ := List.mem_flatMap.1 hu
  exact encodeChar_lt c u hc

/-- A unit is read from its two octets. -/
theorem units_octets (endian : Endian) {u : Nat} (h : u < 0x10000) (rest : List UInt8) :
    units endian (endian.octets u ++ rest) =
      (u :: (units endian rest).1, (units endian rest).2) := by
  have low : (UInt8.ofNat (u % 0x100)).toNat = u % 0x100 := Utf8.toNat_ofNat_octet (by omega)
  have high : (UInt8.ofNat (u / 0x100)).toNat = u / 0x100 := Utf8.toNat_ofNat_octet (by omega)
  have value : u / 0x100 * 0x100 + u % 0x100 = u := by omega
  cases endian <;> simp [Endian.octets, units, Endian.unit, low, high, value]

theorem units_flatMap (endian : Endian) {us : List Nat} (h : ∀ u ∈ us, u < 0x10000) :
    units endian (us.flatMap endian.octets) = (us, false) := by
  induction us with
  | nil => rfl
  | cons u us ih =>
    have later := ih fun v hv => h v (List.mem_cons_of_mem _ hv)
    rw [List.flatMap_cons, units_octets endian (h u List.mem_cons_self), later]

/-- A text is read from its octets in either order. -/
theorem decodeBytes_encodeBytes (endian : Endian) (text : List Char) :
    decodeBytes endian (encodeBytes endian text) = text := by
  have read := decodeLossy_of_decode? (decode?_encode text)
  simp [decodeBytes, encodeBytes, units_flatMap endian (encode_lt text), read]

end Utf16

namespace Encoding

/-! ## Marks -/

theorem detect_mark (encoding : Encoding) (rest : List UInt8) :
    detect (encoding.mark ++ rest) = (encoding, rest) := by
  rcases encoding with _ | _ | _ <;> rfl

theorem decode_encode (encoding : Encoding) (text : List Char) :
    encoding.decode (encoding.encode text) = text := by
  cases encoding with
  | utf8 => exact Utf8.decodeLossy_encode text
  | utf16 endian => exact Utf16.decodeBytes_encodeBytes endian text

/-- The character that the marks stand for. -/
def markChar : Char := '\uFEFF'

theorem encodeChar_markChar : Utf8.encodeChar markChar = utf8.mark := by
  decide

/-- No octet of UTF-8 is one of the two that marks of UTF-16 are made of. -/
theorem toNat_lt_of_mem_encode {text : List Char} {b : UInt8} (h : b ∈ Utf8.encode text) :
    b.toNat < 0xFE := by
  obtain ⟨c, -, hb⟩ := List.mem_flatMap.1 h
  have valid := Utf8.toNat_lt_valid c
  unfold Utf8.encodeChar at hb
  dsimp only at hb
  have value {n : Nat} (e : b = UInt8.ofNat n) : b.toNat = n % 0x100 := by
    rw [e, UInt8.toNat_ofNat']
  repeat' split at hb
  all_goals simp only [List.mem_cons, List.not_mem_nil, or_false] at hb
  · have := value hb
    omega
  · rcases hb with hb | hb <;> have := value hb <;> omega
  · rcases hb with hb | hb | hb <;> have := value hb <;> omega
  · rcases hb with hb | hb | hb | hb <;> have := value hb <;> omega

/-- Only a text that starts with the character of the mark starts like the mark of UTF-8. -/
theorem head?_of_encode_eq_mark {text : List Char} {rest : List UInt8}
    (h : Utf8.encode text = utf8.mark ++ rest) : text.head? = some markChar := by
  have read := Utf8.decodeLossy_encode text
  rw [h, ← encodeChar_markChar, Utf8.decodeLossy, Utf8.scan_encodeChar] at read
  rw [← read]
  rfl

/-- A text in UTF-8 has the mark of no encoding, unless it starts with its character. -/
theorem detect_encode {text : List Char} (h : text.head? ≠ some markChar) :
    detect (Utf8.encode text) = (utf8, Utf8.encode text) := by
  have octets {b : UInt8} {rest : List UInt8} (e : Utf8.encode text = b :: rest) :
      b.toNat < 0xFE := toNat_lt_of_mem_encode (e ▸ List.mem_cons_self)
  unfold detect
  split
  · next rest e => exact absurd (head?_of_encode_eq_mark e) h
  · next rest e => exact absurd (octets e) (by decide)
  · next rest e => exact absurd (octets e) (by decide)
  · rfl

end Encoding

open Encoding

/-! ## Saved texts -/

/-- The files in which a text may be saved: behind the mark of an encoding or, if it does not start
with the character of the mark itself, in UTF-8 as it is. -/
inductive SavedAs (text : List Char) : List UInt8 → Prop
  | marked (encoding : Encoding) : SavedAs text (encoding.mark ++ encoding.encode text)
  | plain : text.head? ≠ some markChar → SavedAs text (Utf8.encode text)

/-- Behind a mark every text is read as it is, also one that starts with the mark again. -/
theorem decodeSource_marked (encoding : Encoding) (text : List Char) :
    decodeSource (encoding.mark ++ encoding.encode text) = text := by
  simp only [decodeSource, detect_mark, decode_encode]

/-- Without a mark, the character of the mark at the start of a text is taken for one. -/
theorem decodeSource_encode (text : List Char) :
    decodeSource (Utf8.encode text) = if text.head? = some markChar then text.tail else text := by
  by_cases h : text.head? = some markChar
  · obtain ⟨rest, rfl⟩ := List.head?_eq_some_iff.1 h
    have octets : Utf8.encode (markChar :: rest) = utf8.mark ++ utf8.encode rest := by
      rw [Utf8.encode, List.flatMap_cons, encodeChar_markChar]
      rfl
    rw [octets, decodeSource_marked, if_pos h, List.tail_cons]
  · rw [if_neg h]
    simp only [decodeSource, detect_encode h]
    exact decode_encode utf8 text

theorem decodeSource_of_savedAs {text : List Char} {bytes : List UInt8} (h : SavedAs text bytes) :
    decodeSource bytes = text := by
  cases h with
  | marked encoding => exact decodeSource_marked encoding text
  | plain unmarked => rw [decodeSource_encode, if_neg unmarked]

/-- A text is read back from each of the files in which it may be saved; without a mark it loses the
character of the mark at its start, and nothing else. What a session builds from such a file, and
what it is left with, is what the text itself gives: it does not tell the encoding. -/
theorem saved_text_read_back (text : List Char) :
    (∀ encoding : Encoding, decodeSource (encoding.mark ++ encoding.encode text) = text) ∧
      (decodeSource (Utf8.encode text) =
        if text.head? = some markChar then text.tail else text) ∧
      ∀ bytes, SavedAs text bytes → ∀ (d : Disk) (p : Path), d.read p = .ok bytes →
        d.readSource p = .ok text ∧ ∀ (s : BuildSession) (parser : Parser),
          let (result, after) := s.build ⟨String.ofList p.toText, text⟩ (parser text)
          s.buildFile parser d p = (result.mapError (.unbuildable p), after) := by
  refine ⟨fun encoding => decodeSource_marked encoding text, decodeSource_encode text, ?_⟩
  intro bytes saved d p read
  have source : d.readSource p = .ok text := by
    rw [Disk.readSource, read, Except.map, decodeSource_of_savedAs saved]
  refine ⟨source, fun s parser => ?_⟩
  rw [BuildSession.buildFile, source]

/-- A text that starts with the character of the mark and goes on beyond 16 bits, saved with the most
significant octets first. The first mark is that of the file and the second one is in the text. -/
theorem utf16_file_read_back :
    let text := [markChar, 'é', '😀']
    let bytes : List UInt8 := [0xFE, 0xFF, 0xFE, 0xFF, 0x00, 0xE9, 0xD8, 0x3D, 0xDE, 0x00]
    let d : Disk := ⟨.directory [(Utf8.encode "a.js".toList, .file (.ok bytes))], ⟨[Path.slash]⟩⟩
    let p := Path.ofText "/a.js".toList
    (SavedAs text bytes ∧ d.read p = .ok bytes) ∧ d.readSource p = .ok text ∧
      ∀ (s : BuildSession) (parser : Parser),
        let (result, after) := s.build ⟨"/a.js", text⟩ (parser text)
        s.buildFile parser d p = (result.mapError (.unbuildable p), after) := by
  intro text bytes d p
  have octets : (utf16 .big).mark ++ (utf16 .big).encode text = bytes := by decide
  have saved : SavedAs text bytes := octets ▸ .marked (utf16 .big)
  have read : d.read p = .ok bytes := eq_ok_of_toOption (by decide +kernel)
  have name : String.ofList p.toText = "/a.js" := by decide +kernel
  obtain ⟨source, built⟩ := (saved_text_read_back text).2.2 bytes saved d p read
  rw [name] at built
  exact ⟨⟨saved, read⟩, source, built⟩

end ScriptTree
