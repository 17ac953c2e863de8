import ScriptTree.Proofs.JsonNumbers
import ScriptTree.Proofs.JsonStrings
import ScriptTree.Report.Basic

/-!
# JSON text read back

Main result `Report.parse?_object`: a value whose numbers are spelled as numbers is read from its
text, in either layout.
-/
namespace ScriptTree

namespace Json

/-- A value that is nested at most so many levels deep and whose numbers are spelled as such. -/
inductive Fits : Nat → Json → Prop where
  | null {depth} : Fits depth .null
  | bool {depth value} : Fits depth (.bool value)
  | number {depth spelling} : IsNumber spelling.toList → Fits depth (.number spelling)
  | string {depth value} : Fits depth (.string value)
  | array {depth items} : (∀ item ∈ items, Fits depth item) → Fits (depth + 1) (.array items)
  | object {depth members} :
      (∀ member ∈ members, Fits depth member.2) → Fits (depth + 1) (.object members)

theorem Fits.mono {d d' : Nat} {value : Json} (h : Fits d value) (hd : d ≤ d') :
    Fits d' value := by
  induction h generalizing d' with
  | null => exact .null
  | bool => exact .bool
  | number h => exact .number h
  | string => exact .string
  | array _ ih =>
    obtain ⟨d', rfl⟩ := Nat.exists_eq_add_of_lt hd
    exact .array fun item hi => ih item hi (by omega)
  | object _ ih =>
    obtain ⟨d', rfl⟩ := Nat.exists_eq_add_of_lt hd
    exact .object fun member hm => ih member hm (by omega)

theorem fits_ofNat (depth n : Nat) : Fits depth (ofNat n) :=
  .number (isNumber_toString n)

theorem Fits.items {depth : Nat} {items : List Json} (h : Fits depth (.array items)) :
    ∀ item ∈ items, Fits depth item := by
  cases h with
  | array h => exact fun item hi => (h item hi).mono (Nat.le_succ _)

/-! ## Blanks -/

section Blanks

variable {gap : List Char}

theorem skipSpace_append (blank : ∀ c ∈ gap, isSpace c = true) (text : List Char) :
    skipSpace (gap ++ text) = skipSpace text :=
  List.dropWhile_append_of_pos blank

theorem skipSpace_cons {c : Char} (h : isSpace c = false) (text : List Char) :
    skipSpace (c :: text) = c :: text :=
  List.dropWhile_cons_of_neg (by simp [h])

/-- A number ends where blanks stand before a character that cannot be part of it. -/
theorem delimited_gap (blank : ∀ c ∈ gap, isSpace c = true) {c : Char}
    (h : c = ',' ∨ c = ']' ∨ c = '\x7d') (rest : List Char) : Delimited (gap ++ c :: rest) := by
  cases gap with
  | nil =>
    refine delimited_cons ?_
    rcases h with rfl | rfl | rfl <;> decide
  | cons s gap =>
    refine delimited_cons ?_
    have space := blank s List.mem_cons_self
    simp only [isSpace, Bool.or_eq_true, beq_iff_eq] at space
    rcases space with ((rfl | rfl) | rfl) | rfl <;> decide

end Blanks

theorem Layout.newline_blank (layout : Layout) (depth : Nat) :
    ∀ c ∈ layout.newline depth, isSpace c = true := by
  intro c hc
  cases layout with
  | compact => cases hc
  | indented =>
    rcases List.mem_cons.1 hc with rfl | hc
    · rfl
    · rw [List.eq_of_mem_replicate hc]
      rfl

/-! ## Containers -/

/-- A reader reads what is written for an item, which starts neither with a blank nor with a closing
bracket. -/
structure Readable {α : Type} (read : Reader α) (write : α → List Char) (item : α) : Prop where
  opens : ∃ c text, write item = c :: text ∧ isSpace c = false ∧ c ≠ ']' ∧ c ≠ '\x7d'
  reads : ∀ rest, Delimited rest → read (write item ++ rest) = some (item, rest)

theorem Readable.skipSpace {α : Type} {read : Reader α} {write : α → List Char} {item : α}
    (h : Readable read write item) (rest : List Char) :
    skipSpace (write item ++ rest) = write item ++ rest := by
  obtain ⟨c, text, hw, space, -⟩ := h.opens
  rw [hw, List.cons_append, skipSpace_cons space]

theorem Readable.length_pos {α : Type} {read : Reader α} {write : α → List Char} {item : α}
    (h : Readable read write item) : 0 < (write item).length := by
  obtain ⟨c, text, hw, -⟩ := h.opens
  rw [hw]
  exact Nat.succ_pos _

/-- Items, each after a comma and a gap. -/
def separated {α : Type} (write : α → List Char) (gap : List Char) (items : List α) : List Char :=
  items.flatMap fun item => ',' :: gap ++ write item

theorem separated_cons {α : Type} (write : α → List Char) (gap : List Char) (item : α)
    (items : List α) :
    separated write gap (item :: items) = ',' :: gap ++ write item ++ separated write gap items :=
  List.flatMap_cons

section Containers

variable {α : Type} {read : Reader α} (write : α → List Char) (gap : List Char) {last : List Char}
  {close : Char}

/-- After an item comes a comma or the closing bracket. -/
theorem delimited_separated (closing : close = ']' ∨ close = '\x7d')
    (blank : ∀ c ∈ last, isSpace c = true) (items : List α) (rest : List Char) :
    Delimited (separated write gap items ++ (last ++ close :: rest)) := by
  cases items with
  | nil => exact delimited_gap blank (.inr closing) rest
  | cons item items =>
    rw [separated_cons]
    exact delimited_cons (by decide)

theorem length_le_separated (items : List α) :
    items.length ≤ (separated write gap items).length := by
  induction items with
  | nil => exact Nat.le_refl _
  | cons item items ih =>
    rw [separated_cons, List.length_append, List.length_append, List.length_cons, List.length_cons]
    omega

variable {write gap} (closing : close = ']' ∨ close = '\x7d') (blank : ∀ c ∈ gap, isSpace c = true)
  (blankLast : ∀ c ∈ last, isSpace c = true)
include closing blank blankLast

theorem readRest_separated {items : List α} (h : ∀ item ∈ items, Readable read write item)
    {fuel : Nat} (hf : items.length < fuel) (rest : List Char) :
    readRest read close fuel (separated write gap items ++ (last ++ close :: rest)) =
      some (items, rest) := by
  have solid : isSpace close = false := by rcases closing with rfl | rfl <;> rfl
  have comma : ',' ≠ close := by rcases closing with rfl | rfl <;> decide
  induction items generalizing fuel with
  | nil =>
    cases fuel with
    | zero => exact absurd hf (Nat.not_lt_zero _)
    | succ fuel =>
      rw [separated, List.flatMap_nil, List.nil_append, readRest, skipSpace_append blankLast,
        skipSpace_cons solid]
      exact if_pos rfl
  | cons item items ih =>
    cases fuel with
    | zero => exact absurd hf (Nat.not_lt_zero _)
    | succ fuel =>
      have first := h item List.mem_cons_self
      have next := first.reads _ (delimited_separated write gap closing blankLast items rest)
      have further := ih (fun i hi => h i (List.mem_cons_of_mem _ hi)) (Nat.lt_of_succ_lt_succ hf)
      rw [separated_cons, readRest, List.cons_append, List.cons_append, List.cons_append,
        skipSpace_cons (by decide)]
      simp only [comma, if_false, if_true, List.append_assoc]
      rw [skipSpace_append blank, first.skipSpace, next]
      simp only [Option.bind_eq_bind, Option.bind_some, further, Option.pure_def]

/-- The items of a container are read from what is written for them. -/
theorem readAll_separated {item : α} {items : List α}
    (h : ∀ i ∈ item :: items, Readable read write i) (rest : List Char) :
    readAll read close (gap ++ (write item ++ (separated write gap items ++
      (last ++ close :: rest)))) = some (item :: items, rest) := by
  have first := h item List.mem_cons_self
  have next := first.reads _ (delimited_separated write gap closing blankLast items rest)
  have bound : items.length <
      (separated write gap items ++ (last ++ close :: rest)).length + 1 := by
    have := length_le_separated write gap items
    rw [List.length_append]
    omega
  have further := readRest_separated closing blank blankLast
    (fun i hi => h i (List.mem_cons_of_mem _ hi)) bound rest
  obtain ⟨c, text, hw, -, square, curly⟩ := first.opens
  have opened : c ≠ close := by rcases closing with rfl | rfl <;> assumption
  rw [readAll, skipSpace_append blank, first.skipSpace, hw, List.cons_append]
  simp only [opened, if_false]
  rw [← List.cons_append, ← hw, next]
  simp only [Option.bind_eq_bind, Option.bind_some, further, Option.pure_def]

end Containers

theorem renderItems_eq (layout : Layout) (depth : Nat) (items : List Json) :
    renderItems layout depth items =
      separated (render layout depth) (layout.newline depth) items := by
  induction items with
  | nil => rfl
  | cons item items ih => rw [renderItems, separated_cons, ih]

/-- What is written for a member. -/
def renderMember (layout : Layout) (depth : Nat) (member : String × Json) : List Char :=
  quote member.1.toList ++ layout.colon ++ render layout depth member.2

theorem renderMembers_eq (layout : Layout) (depth : Nat) (members : List (String × Json)) :
    renderMembers layout depth members =
      separated (renderMember layout depth) (layout.newline depth) members := by
  induction members with
  | nil => rfl
  | cons member members ih =>
    rw [renderMembers, separated_cons, ih, renderMember]
    simp only [List.append_assoc, List.cons_append]

theorem readable_member {read : Reader Json} {layout : Layout} {depth : Nat}
    {member : String × Json} (h : Readable read (render layout depth) member.2) :
    Readable (readMember read) (renderMember layout depth) member := by
  obtain ⟨name, value⟩ := member
  have blank : ∃ gap, layout.colon = ':' :: gap ∧ ∀ c ∈ gap, isSpace c = true := by
    cases layout with
    | compact => exact ⟨[], rfl, fun _ hc => absurd hc List.not_mem_nil⟩
    | indented => exact ⟨[' '], rfl, List.forall_mem_singleton.2 rfl⟩
  obtain ⟨gap, colon, blank⟩ := blank
  refine ⟨⟨'"', _, rfl, by decide, by decide, by decide⟩, fun rest hr => ?_⟩
  simp only [renderMember, quote, List.cons_append, List.append_assoc, readMember, colon,
    List.nil_append]
  rw [readString_quote]
  have solid : isSpace ':' = false := rfl
  simp only [Option.bind_eq_bind, Option.bind_some, skipSpace_cons solid]
  rw [skipSpace_append blank, h.skipSpace, h.reads rest hr]
  rfl

/-! ## Values -/

theorem isNumber_cons {spelling : List Char} (h : IsNumber spelling) :
    ∃ c text, spelling = c :: text ∧ (c = '-' ∨ c.isDigit = true) := by
  obtain ⟨sign, whole, fraction, power, hs, hw, -, -, rfl⟩ := h
  rcases hs with rfl | rfl
  · obtain ⟨c, text, hc, digit⟩ := head_whole hw (fraction ++ power)
    exact ⟨c, text, by rw [← hc]; simp, .inr digit⟩
  · exact ⟨'-', _, rfl, .inl rfl⟩

theorem readValue_number {c : Char} (h : c = '-' ∨ c.isDigit = true) (depth : Nat)
    (text : List Char) :
    readValue depth (c :: text) =
      (readNumber (c :: text)).map fun (spelling, rest) => (.number spelling, rest) := by
  have other : c ≠ 'n' ∧ c ≠ 't' ∧ c ≠ 'f' ∧ c ≠ '"' ∧ c ≠ '[' ∧ c ≠ '\x7b' := by
    refine ⟨?_, ?_, ?_, ?_, ?_, ?_⟩ <;> rintro rfl <;> revert h <;> decide
  rw [readValue] <;> grind

theorem opens_number {c : Char} (h : c = '-' ∨ c.isDigit = true) :
    isSpace c = false ∧ c ≠ ']' ∧ c ≠ '\x7d' := by
  refine ⟨?_, ?_, ?_⟩
  · rw [← Bool.not_eq_true]
    intro space
    simp only [isSpace, Bool.or_eq_true, beq_iff_eq] at space
    rcases space with ((rfl | rfl) | rfl) | rfl <;> revert h <;> decide
  all_goals rintro rfl; revert h; decide

theorem readable_array {depth place : Nat} {layout : Layout} {items : List Json}
    (h : ∀ item ∈ items, Readable (readValue depth) (render layout (place + 1)) item) :
    Readable (readValue (depth + 1)) (render layout place) (.array items) := by
  cases items with
  | nil =>
    exact ⟨⟨'[', _, rfl, by decide, by decide, by decide⟩, fun rest _ => rfl⟩
  | cons item items =>
    refine ⟨⟨'[', _, rfl, by decide, by decide, by decide⟩, fun rest _ => ?_⟩
    rw [render, renderItems_eq]
    simp only [List.append_assoc, List.cons_append, List.nil_append]
    rw [readValue, readAll_separated (.inl rfl) (layout.newline_blank _) (layout.newline_blank _) h]
    rfl

theorem readable_object {depth place : Nat} {layout : Layout} {members : List (String × Json)}
    (h : ∀ m ∈ members, Readable (readValue depth) (render layout (place + 1)) m.2) :
    Readable (readValue (depth + 1)) (render layout place) (.object members) := by
  cases members with
  | nil =>
    exact ⟨⟨'\x7b', _, rfl, by decide, by decide, by decide⟩, fun rest _ => rfl⟩
  | cons member members =>
    refine ⟨⟨'\x7b', _, rfl, by decide, by decide, by decide⟩, fun rest _ => ?_⟩
    rw [render, renderMembers_eq]
    have read := readAll_separated (.inr rfl) (layout.newline_blank (place + 1))
      (layout.newline_blank place) (fun m hm => readable_member (h m hm)) rest
    simp only [renderMember, List.append_assoc] at read
    simp only [List.append_assoc, List.cons_append, List.nil_append]
    rw [readValue, read]
    rfl

/-- A value is read from what is written for it. -/
theorem readable_value {depth : Nat} {value : Json} (h : Fits depth value) (layout : Layout)
    (place : Nat) : Readable (readValue depth) (render layout place) value := by
  induction h generalizing place with
  | null =>
    exact ⟨⟨'n', _, rfl, by decide, by decide, by decide⟩, fun rest _ => by
      simp [render, readValue]⟩
  | @bool _ value =>
    cases value with
    | false =>
      exact ⟨⟨'f', _, rfl, by decide, by decide, by decide⟩, fun rest _ => by
        simp [render, readValue]⟩
    | true =>
      exact ⟨⟨'t', _, rfl, by decide, by decide, by decide⟩, fun rest _ => by
        simp [render, readValue]⟩
  | @number depth spelling h =>
    obtain ⟨c, text, hc, start⟩ := isNumber_cons h
    refine ⟨⟨c, text, hc, opens_number start⟩, fun rest hr => ?_⟩
    rw [render, hc, List.cons_append, readValue_number start, ← List.cons_append, ← hc,
      readNumber_append h hr, String.ofList_toList]
    rfl
  | string =>
    refine ⟨⟨'"', _, rfl, by decide, by decide, by decide⟩, fun rest _ => ?_⟩
    rw [render, quote, List.cons_append, List.cons_append, List.append_assoc, readValue,
      List.singleton_append, readString_quote]
    rfl
  | array _ ih => exact readable_array fun item hi => ih item hi (place + 1)
  | object _ ih => exact readable_object fun member hm => ih member hm (place + 1)

/-! ## Depth -/

theorem length_separated_of_mem {α : Type} {items : List α} {item : α} (h : item ∈ items)
    (write : α → List Char) (gap : List Char) :
    (write item).length < (separated write gap items).length := by
  obtain ⟨front, rest, rfl⟩ := List.append_of_mem h
  simp only [separated, List.flatMap_append, List.flatMap_cons, List.length_append,
    List.length_cons]
  omega

theorem length_item_lt {items : List Json} {item : Json} (h : item ∈ items) (layout : Layout)
    (place : Nat) :
    (render layout (place + 1) item).length < (render layout place (.array items)).length := by
  cases items with
  | nil => cases h
  | cons first items =>
    rw [render, renderItems_eq]
    simp only [List.length_append, List.length_cons]
    rcases List.mem_cons.1 h with rfl | h
    · omega
    · have := length_separated_of_mem h (render layout (place + 1))
        (layout.newline (place + 1))
      omega

theorem length_member_lt {members : List (String × Json)} {member : String × Json}
    (h : member ∈ members) (layout : Layout) (place : Nat) :
    (render layout (place + 1) member.2).length <
      (render layout place (.object members)).length := by
  cases members with
  | nil => cases h
  | cons first members =>
    rw [render, renderMembers_eq]
    simp only [List.length_append, List.length_cons]
    rcases List.mem_cons.1 h with rfl | h
    · omega
    · have := length_separated_of_mem h (renderMember layout (place + 1))
        (layout.newline (place + 1))
      rw [renderMember, List.length_append] at this
      omega

/-- A value is nested no deeper than its text is long. -/
theorem Fits.of_length {depth : Nat} {value : Json} (h : Fits depth value) (layout : Layout)
    (place : Nat) : Fits (render layout place value).length value := by
  induction h generalizing place with
  | null => exact .null
  | bool => exact .bool
  | number h => exact .number h
  | string => exact .string
  | array items ih =>
    obtain ⟨n, length⟩ := Nat.exists_eq_succ_of_ne_zero
      (Nat.ne_of_gt (readable_value (.array items) layout place).length_pos)
    rw [length]
    refine .array fun item hi => (ih item hi (place + 1)).mono ?_
    have := length_item_lt hi layout place
    omega
  | object members ih =>
    obtain ⟨n, length⟩ := Nat.exists_eq_succ_of_ne_zero
      (Nat.ne_of_gt (readable_value (.object members) layout place).length_pos)
    rw [length]
    refine .object fun member hm => (ih member hm (place + 1)).mono ?_
    have := length_member_lt hm layout place
    omega

end Json

namespace Report

variable (r : Report) {depth : Nat} {value : Json}

theorem toList_object (value : Json) :
    (r.object value).toList = Json.render r.layout 0 value ++ ['\n'] := by
  rw [object, line, Json.print, String.toList_append, String.toList_ofList]
  rfl

/-- A value is nested no deeper than what a report writes for it is long. -/
theorem fits_object (h : Json.Fits depth value) : Json.Fits (r.object value).length value := by
  rw [← String.length_toList, toList_object, List.length_append]
  exact (h.of_length r.layout 0).mono (Nat.le_add_right _ _)

/-- What a report writes for a value is read as that value. -/
theorem parse?_object (h : Json.Fits depth value) :
    Json.parse? (r.object value).length (r.object value).toList = some value := by
  have read := Json.readable_value (r.fits_object h) r.layout 0
  rw [toList_object, Json.parse?, read.skipSpace, read.reads _ (Json.delimited_cons (by decide))]
  rfl

end Report

end ScriptTree
