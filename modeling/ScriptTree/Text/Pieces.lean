/-!
# Texts cut at a separator

`pieces` cuts a list at every occurrence of one item; `join` puts the item back between the pieces.
-/
namespace ScriptTree.Text

variable {α : Type} [DecidableEq α]

/-- The pieces of a list between the occurrences of an item, empty ones included. -/
def pieces (separator : α) : List α → List (List α)
  | [] => [[]]
  | c :: rest =>
    match pieces separator rest with
    | [] => [[c]]
    | first :: others => if c = separator then [] :: first :: others else (c :: first) :: others

/-- Pieces with an item between each two of them. -/
def join (separator : α) : List (List α) → List α
  | [] => []
  | [piece] => piece
  | piece :: others => piece ++ separator :: join separator others

theorem pieces_ne_nil (separator : α) (l : List α) : pieces separator l ≠ [] := by
  cases l with
  | nil => simp [pieces]
  | cons c rest =>
    simp only [pieces]
    split
    · simp
    · split <;> simp

theorem join_pieces (separator : α) (l : List α) : join separator (pieces separator l) = l := by
  induction l with
  | nil => rfl
  | cons c rest ih =>
    simp only [pieces]
    split
    · next h => exact absurd h (pieces_ne_nil separator rest)
    · next first others h =>
      rw [h] at ih
      split
      · next hc => simp [join, ih, hc]
      · cases others with
        | nil => simpa [join] using ih
        | cons second others => simpa [join] using ih

theorem pieces_cons_self (separator : α) (l : List α) :
    pieces separator (separator :: l) = [] :: pieces separator l := by
  rw [pieces]
  cases h : pieces separator l with
  | nil => exact absurd h (pieces_ne_nil separator l)
  | cons first others => simp

theorem pieces_cons_of_ne {separator c : α} (hc : c ≠ separator) (l : List α) :
    ∃ first others, pieces separator l = first :: others ∧
      pieces separator (c :: l) = (c :: first) :: others := by
  cases h : pieces separator l with
  | nil => exact absurd h (pieces_ne_nil separator l)
  | cons first others => exact ⟨first, others, rfl, by simp [pieces, h, hc]⟩

/-- A separator cuts a list in two. -/
theorem pieces_append (separator : α) (a b : List α) :
    pieces separator (a ++ separator :: b) = pieces separator a ++ pieces separator b := by
  induction a with
  | nil => exact pieces_cons_self separator b
  | cons c a ih =>
    rw [List.cons_append]
    by_cases hc : c = separator
    · subst hc
      rw [pieces_cons_self, pieces_cons_self, ih, List.cons_append]
    · obtain ⟨first, others, ha, hca⟩ := pieces_cons_of_ne hc a
      obtain ⟨first', others', hab, hcab⟩ := pieces_cons_of_ne hc (a ++ separator :: b)
      rw [ih, ha, List.cons_append] at hab
      obtain ⟨rfl, rfl⟩ := List.cons.inj hab
      rw [hcab, hca, List.cons_append]

theorem pieces_of_notMem {separator : α} {l : List α} (h : separator ∉ l) :
    pieces separator l = [l] := by
  induction l with
  | nil => rfl
  | cons c l ih =>
    rw [List.mem_cons, not_or] at h
    obtain ⟨first, others, hl, hcl⟩ := pieces_cons_of_ne (Ne.symm h.1) l
    rw [ih h.2] at hl
    obtain ⟨rfl, rfl⟩ := List.cons.inj hl
    exact hcl

theorem notMem_of_mem_pieces {separator : α} {l piece : List α} (h : piece ∈ pieces separator l) :
    separator ∉ piece := by
  induction l generalizing piece with
  | nil =>
    rw [pieces, List.mem_singleton] at h
    simp [h]
  | cons c l ih =>
    by_cases hc : c = separator
    · subst hc
      rw [pieces_cons_self, List.mem_cons] at h
      rcases h with rfl | h
      · exact List.not_mem_nil
      · exact ih h
    · obtain ⟨first, others, hl, hcl⟩ := pieces_cons_of_ne hc l
      rw [hcl, List.mem_cons] at h
      rw [hl] at ih
      rcases h with rfl | h
      · rw [List.mem_cons, not_or]
        exact ⟨Ne.symm hc, ih List.mem_cons_self⟩
      · exact ih (List.mem_cons_of_mem first h)

/-- Pieces without the separator are found again. -/
theorem pieces_join {separator : α} {ps : List (List α)} (hne : ps ≠ [])
    (h : ∀ piece ∈ ps, separator ∉ piece) : pieces separator (join separator ps) = ps := by
  induction ps with
  | nil => exact absurd rfl hne
  | cons piece ps ih =>
    have first := pieces_of_notMem (h piece List.mem_cons_self)
    cases ps with
    | nil => exact first
    | cons next rest =>
      have others := ih (List.cons_ne_nil next rest) fun p hp => h p (List.mem_cons_of_mem piece hp)
      rw [join, pieces_append, first, others]
      · rfl
      · intro e
        cases e

omit [DecidableEq α] in
theorem mem_join {separator x : α} {ps : List (List α)} (h : x ∈ join separator ps) :
    x = separator ∨ ∃ piece ∈ ps, x ∈ piece := by
  induction ps with
  | nil => cases h
  | cons piece ps ih =>
    cases ps with
    | nil => exact .inr ⟨piece, List.mem_cons_self, h⟩
    | cons next rest =>
      rw [join, List.mem_append, List.mem_cons] at h
      · rcases h with h | h | h
        · exact .inr ⟨piece, List.mem_cons_self, h⟩
        · exact .inl h
        · obtain he | ⟨other, ho, hx⟩ := ih h
          · exact .inl he
          · exact .inr ⟨other, List.mem_cons_of_mem piece ho, hx⟩
      · intro e
        cases e

end ScriptTree.Text
