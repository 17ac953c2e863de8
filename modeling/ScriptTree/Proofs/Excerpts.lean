import ScriptTree.Text.Excerpt
import Mathlib.Data.List.Chain

/-!
# Excerpts are normal forms

An excerpt depends on the words of a text and on nothing else: two texts that are spaced out of the
same words (`Spaced`) have one excerpt. The lines that `squeeze` makes are the tidy ones, with
single spaces between words, and it leaves these as they are (`squeeze_eq_self_iff`). Cutting a tidy
line and adding dots gives a tidy line again, also where the cut falls behind a space, since a dot
follows it. So an excerpt is its own excerpt: it is tidy, and if it has dots, then it is too long
and is cut at the same place again (`excerpt_excerpt`).
-/
namespace ScriptTree.Text

variable {c : Char} {w line text : List Char} {ws : List (List Char)}

/-! ## The words of a text -/

/-- At least one character, and none of them blank. -/
structure IsWord (w : List Char) : Prop where
  ne_nil : w ≠ []
  solid : ∀ c ∈ w, isBlank c = false

/-- A text that consists of blanks and of words, in this order. Each word ends before a blank or
with the text. -/
inductive Spaced : List (List Char) → List Char → Prop
  | nil : Spaced [] []
  | blank {c : Char} {ws : List (List Char)} {text : List Char} (blank : isBlank c = true)
      (rest : Spaced ws text) : Spaced ws (c :: text)
  | word {w : List Char} {ws : List (List Char)} {text : List Char} (word : IsWord w)
      (ends : ∀ c ∈ text.head?, isBlank c = true) (rest : Spaced ws text) :
      Spaced (w :: ws) (w ++ text)

theorem isWord_singleton (solid : isBlank c = false) : IsWord [c] :=
  ⟨List.cons_ne_nil c [], by simpa using solid⟩

theorem IsWord.cons (solid : isBlank c = false) (word : IsWord w) : IsWord (c :: w) :=
  ⟨List.cons_ne_nil c w, List.forall_mem_cons.2 ⟨solid, word.solid⟩⟩

theorem Spaced.isWord (h : Spaced ws text) : ∀ w ∈ ws, IsWord w := by
  induction h with
  | nil => exact fun _ hw => nomatch hw
  | blank _ _ ih => exact ih
  | word word _ _ ih => exact List.forall_mem_cons.2 ⟨word, ih⟩

theorem words_cons_blank (blank : isBlank c = true) : words (c :: text) = words text := by
  simp [words, cutBlanks, blank]

theorem cutBlanks_solid_append (solid : ∀ c ∈ w, isBlank c = false) (text : List Char) :
    cutBlanks (w ++ text) = (w ++ (cutBlanks text).1, (cutBlanks text).2) := by
  induction w with
  | nil => rfl
  | cons c w ih =>
    rw [List.forall_mem_cons] at solid
    rw [List.cons_append, cutBlanks, ih solid.2, solid.1]
    rfl

theorem words_word_append (word : IsWord w) (ends : ∀ c ∈ text.head?, isBlank c = true) :
    words (w ++ text) = w :: words text := by
  have first : (cutBlanks text).1 = [] := by
    cases text with
    | nil => rfl
    | cons c text => simp [cutBlanks, ends c rfl]
  simp [words, cutBlanks_solid_append word.solid, first, word.ne_nil]

theorem Spaced.words_eq (h : Spaced ws text) : words text = ws := by
  induction h with
  | nil => rfl
  | blank blank _ ih => rw [words_cons_blank blank, ih]
  | word word ends _ ih => rw [words_word_append word ends, ih]

/-- A character that is not blank becomes the first one of a word, or a word by itself. -/
theorem Spaced.exists_cons (solid : isBlank c = false) (h : Spaced ws text) :
    ∃ ws, Spaced ws (c :: text) := by
  cases h with
  | nil => exact ⟨_, .word (isWord_singleton solid) (by simp) .nil⟩
  | blank blank rest =>
    exact ⟨_, .word (isWord_singleton solid) (by simpa using blank) (.blank blank rest)⟩
  | word word ends rest => exact ⟨_, .word (word.cons solid) ends rest⟩

theorem exists_spaced (text : List Char) : ∃ ws, Spaced ws text := by
  induction text with
  | nil => exact ⟨[], .nil⟩
  | cons c text ih =>
    obtain ⟨ws, h⟩ := ih
    cases blank : isBlank c with
    | true => exact ⟨ws, .blank blank h⟩
    | false => exact h.exists_cons blank

/-- Every text is spaced out of its words, and of no others. -/
theorem spaced_iff : Spaced ws text ↔ words text = ws := by
  refine ⟨Spaced.words_eq, ?_⟩
  rintro rfl
  obtain ⟨ws, h⟩ := exists_spaced text
  exact h.words_eq ▸ h

theorem existsUnique_spaced (text : List Char) : ∃! ws, Spaced ws text :=
  ⟨words text, spaced_iff.2 rfl, fun _ h => h.words_eq.symm⟩

/-! ## Tidy lines -/

/-- A text on one line. The only blanks are spaces, no two of them stand side by side, and none is
first or last. -/
structure IsTidy (line : List Char) : Prop where
  spaces : ∀ c ∈ line, isBlank c = true → c = ' '
  single : line.IsChain fun c d => ¬(isBlank c = true ∧ isBlank d = true)
  first : ∀ c ∈ line.head?, isBlank c = false
  last : ∀ c ∈ line.getLast?, isBlank c = false

theorem isTidy_nil : IsTidy [] :=
  ⟨by simp, .nil, by simp, by simp⟩

theorem IsWord.isTidy (word : IsWord w) : IsTidy w where
  spaces c hc blank := by simp [word.solid c hc] at blank
  single := by
    refine (List.pairwise_of_forall_mem_list fun c hc d _ => ?_).isChain
    simp [word.solid c hc]
  first c hc := word.solid c (List.mem_of_mem_head? hc)
  last c hc := word.solid c (List.mem_of_mem_getLast? hc)

/-- A word goes before a tidy line with a space between them. -/
theorem IsTidy.word_append (h : IsTidy line) (ne_nil : line ≠ []) (word : IsWord w) :
    IsTidy (w ++ ' ' :: line) where
  spaces c hc blank := by
    rw [List.mem_append, List.mem_cons] at hc
    rcases hc with hc | rfl | hc
    · exact word.isTidy.spaces c hc blank
    · rfl
    · exact h.spaces c hc blank
  single := by
    rw [List.isChain_append, List.isChain_cons]
    refine ⟨word.isTidy.single, ⟨fun c hc => ?_, h.single⟩, fun c hc _ _ => ?_⟩
    · simp [h.first c hc]
    · simp [word.isTidy.last c hc]
  first c hc := by
    rw [List.head?_append_of_ne_nil w word.ne_nil] at hc
    exact word.isTidy.first c hc
  last c hc := by
    rw [List.getLast?_append_of_ne_nil w (List.cons_ne_nil ' ' line),
      List.getLast?_cons_of_ne_nil ne_nil] at hc
    exact h.last c hc

/-- A word may go right behind any part of a tidy line. -/
theorem IsTidy.take_append_word (h : IsTidy line) (word : IsWord w) (n : Nat) :
    IsTidy (line.take n ++ w) where
  spaces c hc blank := by
    rw [List.mem_append] at hc
    rcases hc with hc | hc
    · exact h.spaces c (List.mem_of_mem_take hc) blank
    · exact word.isTidy.spaces c hc blank
  single := by
    rw [List.isChain_append]
    refine ⟨h.single.take n, word.isTidy.single, fun c _ d hd => ?_⟩
    simp [word.isTidy.first d hd]
  first := by
    cases line with
    | nil => simpa using word.isTidy.first
    | cons c line =>
      cases n with
      | zero => simpa using word.isTidy.first
      | succ n => exact h.first
  last := by
    rw [List.getLast?_append_of_ne_nil (line.take n) word.ne_nil]
    exact word.isTidy.last

theorem isTidy_intercalate (h : ∀ w ∈ ws, IsWord w) : IsTidy ([' '].intercalate ws) := by
  induction ws with
  | nil => exact isTidy_nil
  | cons w ws ih =>
    rw [List.forall_mem_cons] at h
    cases ws with
    | nil =>
      rw [List.intercalate_singleton]
      exact h.1.isTidy
    | cons w' ws =>
      have ne_nil : [' '].intercalate (w' :: ws) ≠ [] := by
        cases ws <;> simp [List.intercalate_cons_cons, (h.2 w' List.mem_cons_self).ne_nil]
      rw [List.intercalate_cons_cons, List.append_assoc]
      exact (ih h.2).word_append ne_nil h.1

theorem spaced_intercalate (h : ∀ w ∈ ws, IsWord w) : Spaced ws ([' '].intercalate ws) := by
  induction ws with
  | nil => exact .nil
  | cons w ws ih =>
    rw [List.forall_mem_cons] at h
    cases ws with
    | nil => simpa using Spaced.word h.1 (by simp) .nil
    | cons w' ws =>
      have space : isBlank ' ' = true := rfl
      rw [List.intercalate_cons_cons, List.append_assoc]
      exact .word h.1 (by simpa using space) (.blank space (ih h.2))

/-- What begins with a character that is not blank is tidy at the end of a tidy line. -/
theorem IsTidy.of_append (before : List Char) (h : IsTidy (before ++ line)) (ne_nil : line ≠ [])
    (first : ∀ c ∈ line.head?, isBlank c = false) : IsTidy line where
  spaces c hc := h.spaces c (List.mem_append_right before hc)
  single := h.single.right_of_append
  first := first
  last := by
    rw [← List.getLast?_append_of_ne_nil before ne_nil]
    exact h.last

/-- A tidy line is made of words with single spaces between them. The line behind a space is tidy
again, so the recursion takes two steps at a space. -/
theorem IsTidy.exists_words :
    ∀ {line : List Char}, IsTidy line → ∃ ws, (∀ w ∈ ws, IsWord w) ∧ [' '].intercalate ws = line
  | [], _ => ⟨[], by simp, rfl⟩
  | [c], h => ⟨[[c]], by simpa using isWord_singleton (h.first c rfl), by simp⟩
  | c :: d :: line, h => by
    have solid := h.first c rfl
    cases blank : isBlank d with
    | false =>
      have rest : IsTidy (d :: line) :=
        h.of_append [c] (List.cons_ne_nil d line) (by simpa using blank)
      obtain ⟨_ | ⟨w, ws⟩, hws, joined⟩ := rest.exists_words
      · cases joined
      rw [List.forall_mem_cons] at hws
      refine ⟨(c :: w) :: ws, List.forall_mem_cons.2 ⟨hws.1.cons solid, hws.2⟩, ?_⟩
      rw [← joined]
      cases ws <;> simp [List.intercalate_cons_cons]
    | true =>
      obtain rfl := h.spaces d (by simp) blank
      have ne_nil : line ≠ [] := by
        rintro rfl
        cases (h.last ' ' rfl).symm.trans blank
      have apart := (List.isChain_cons.1 (List.isChain_cons.1 h.single).2).1
      have rest : IsTidy line :=
        h.of_append [c, ' '] ne_nil fun e he => by simpa [blank] using apart e he
      obtain ⟨_ | ⟨w, ws⟩, hws, joined⟩ := rest.exists_words
      · exact absurd joined.symm ne_nil
      refine ⟨[c] :: w :: ws, List.forall_mem_cons.2 ⟨isWord_singleton solid, hws⟩, ?_⟩
      rw [List.intercalate_cons_cons, joined]
      rfl

theorem squeeze_intercalate (h : ∀ w ∈ ws, IsWord w) :
    squeeze ([' '].intercalate ws) = [' '].intercalate ws := by
  rw [squeeze, (spaced_intercalate h).words_eq]

theorem isTidy_squeeze (text : List Char) : IsTidy (squeeze text) :=
  isTidy_intercalate (spaced_iff.2 rfl : Spaced (words text) text).isWord

/-- The tidy lines are the ones that are left as they are. -/
theorem squeeze_eq_self_iff : squeeze line = line ↔ IsTidy line := by
  refine ⟨fun h => h ▸ isTidy_squeeze line, fun h => ?_⟩
  obtain ⟨ws, hws, rfl⟩ := h.exists_words
  exact squeeze_intercalate hws

/-! ## Excerpts -/

theorem isWord_dots : IsWord ['.', '.', '.'] :=
  ((isWord_singleton rfl).cons rfl).cons rfl

theorem excerpt_of_le (h : (squeeze text).length ≤ excerptLimit) : excerpt text = squeeze text :=
  if_pos h

theorem excerpt_of_lt (h : excerptLimit < (squeeze text).length) :
    excerpt text = (squeeze text).take excerptLimit ++ ['.', '.', '.'] :=
  if_neg (Nat.not_le.2 h)

/-- Texts with the same words have the same excerpt. -/
theorem Spaced.excerpt_eq {other : List Char} (h : Spaced ws text) (h' : Spaced ws other) :
    excerpt other = excerpt text := by
  rw [excerpt, excerpt, squeeze, squeeze, h.words_eq, h'.words_eq]

/-- An excerpt has all words that fit on its line. -/
theorem Spaced.excerpt_of_le (h : Spaced ws text)
    (fits : ([' '].intercalate ws).length ≤ excerptLimit) :
    excerpt text = [' '].intercalate ws ∧ Spaced ws (excerpt text) := by
  have line : squeeze text = [' '].intercalate ws := by rw [squeeze, h.words_eq]
  rw [Text.excerpt_of_le (line ▸ fits), line]
  exact ⟨rfl, spaced_intercalate h.isWord⟩

theorem isTidy_excerpt (text : List Char) : IsTidy (excerpt text) := by
  rcases Nat.lt_or_ge excerptLimit (squeeze text).length with long | fits
  · rw [excerpt_of_lt long]
    exact (isTidy_squeeze text).take_append_word isWord_dots excerptLimit
  · rw [excerpt_of_le fits]
    exact isTidy_squeeze text

theorem length_excerpt_le (text : List Char) : (excerpt text).length ≤ excerptLimit + 3 := by
  rcases Nat.lt_or_ge excerptLimit (squeeze text).length with long | fits
  · rw [excerpt_of_lt long, List.length_append]
    exact Nat.add_le_add_right (List.length_take_le _ _) 3
  · rw [excerpt_of_le fits]
    exact Nat.le_add_right_of_le fits

/-- An excerpt of an excerpt with dots is cut where it was cut before, and gets the dots again. -/
theorem excerpt_excerpt (text : List Char) : excerpt (excerpt text) = excerpt text := by
  have tidy : squeeze (excerpt text) = excerpt text := squeeze_eq_self_iff.2 (isTidy_excerpt text)
  rcases Nat.lt_or_ge excerptLimit (squeeze text).length with long | fits
  · have kept : ((squeeze text).take excerptLimit).length = excerptLimit :=
      List.length_take_of_le (Nat.le_of_lt long)
    rw [excerpt_of_lt long] at tidy ⊢
    rw [excerpt_of_lt (by rw [tidy, List.length_append, kept]; decide), tidy,
      List.take_left' kept]
  · rw [excerpt_of_le fits] at tidy ⊢
    rw [excerpt_of_le (by rwa [tidy]), tidy]

/-- The cut falls behind a space, which the dots then close. -/
example : excerpt (List.replicate 79 'x' ++ ['\t', ' ', 'y', '\n']) =
    List.replicate 79 'x' ++ [' ', '.', '.', '.'] := by
  decide +kernel

end ScriptTree.Text
