import Mathlib.Data.List.TakeWhile
import ScriptTree.ParseTree.Basic
import ScriptTree.Proofs.TextOctets

/-!
# Places in the octets of a source

A source is kept as characters, and its places count octets. Here positions and slices are said in
terms of the octets alone: a row is counted by the octets 0A before a place, a column by the octets
since the last of them (`position_eq_octets`), and the slice of a span whose ends lie between
characters has the octets of the span (`slice_octets`). The positions in a parse tree come from the
parser. That they have been counted in the source is a hypothesis, `Source.Counts` for a node and
`ParseTree.CountsRows` for the rows of a tree.
-/
namespace ScriptTree

namespace Utf8

theorem length_encodeChar (c : Char) : (encodeChar c).length = c.utf8Size := by
  have value : c.val.toNat = c.toNat := rfl
  unfold encodeChar Char.utf8Size
  simp only [UInt32.le_iff_toNat_le, UInt32.toNat_ofNatLT, value, apply_ite List.length,
    List.length_cons, List.length_nil, Nat.le_iff_lt_add_one]

theorem byteLength_cons (c : Char) (text : List Char) :
    byteLength (c :: text) = c.utf8Size + byteLength text := rfl

theorem byteLength_append (a b : List Char) :
    byteLength (a ++ b) = byteLength a + byteLength b := by
  induction a with
  | nil => exact (Nat.zero_add _).symm
  | cons c a ih => rw [List.cons_append, byteLength_cons, byteLength_cons, ih, Nat.add_assoc]

theorem length_encode (text : List Char) : (encode text).length = byteLength text := by
  induction text with
  | nil => rfl
  | cons c text ih =>
    rw [encode, List.flatMap_cons, List.length_append, length_encodeChar, ← encode, ih,
      byteLength_cons]

theorem byteLength_eq_zero {text : List Char} (h : byteLength text = 0) : text = [] := by
  cases text with
  | nil => rfl
  | cons c text =>
    have := c.utf8Size_pos
    rw [byteLength_cons] at h
    omega

theorem byteLength_pos {text : List Char} : 0 < byteLength text ↔ text ≠ [] := by
  refine ⟨?_, fun h => Nat.pos_of_ne_zero fun empty => h (byteLength_eq_zero empty)⟩
  rintro h rfl
  cases h

/-- A line feed is one octet, which is found in no other character. -/
theorem count_encodeChar (c : Char) {n : Nat} (hn : 0 < n) :
    ((encodeChar c).take n).count 0x0A = if c = '\n' then 1 else 0 := by
  by_cases feed : c = '\n'
  · subst feed
    obtain ⟨n, rfl⟩ := Nat.exists_eq_add_of_lt hn
    have octet : encodeChar '\n' = [0x0A] := rfl
    rw [octet, List.take_succ_cons, List.take_nil, if_pos rfl, List.count_singleton_self]
  · rw [if_neg feed, List.count_eq_zero]
    intro h
    exact feed (Char.toNat_inj.1 (toNat_of_mem_encodeChar (by decide) (List.mem_of_mem_take h)).symm)

/-- A walk back through the octets of a character stops at a line feed only. -/
theorem length_dropWhile_encodeChar (c : Char) {n : Nat} (hn : 0 < n) :
    (((encodeChar c).take n).reverse.dropWhile (· != 0x0A)).length =
      byteLength ([c].dropWhile (· != '\n')) := by
  by_cases feed : c = '\n'
  · subst feed
    obtain ⟨n, rfl⟩ := Nat.exists_eq_add_of_lt hn
    have octet : encodeChar '\n' = [0x0A] := rfl
    rw [octet, List.take_succ_cons, List.take_nil]
    rfl
  · have count := count_encodeChar c hn
    rw [if_neg feed, List.count_eq_zero] at count
    have passed : ((encodeChar c).take n).reverse.dropWhile (· != 0x0A) = [] := by
      rw [List.dropWhile_eq_nil_iff]
      intro b hb
      rw [List.mem_reverse] at hb
      exact bne_iff_ne.2 fun e => count (e ▸ hb)
    rw [passed, List.dropWhile_cons, if_pos (bne_iff_ne.2 feed)]
    rfl

end Utf8

namespace Text

theorem count_before (text : List Char) (place : Nat) :
    (before text place).count '\n' = ((Utf8.encode text).take place).count 0x0A := by
  induction text generalizing place with
  | nil => rw [Utf8.encode, List.flatMap_nil, List.take_nil]; rfl
  | cons c text ih =>
    cases place with
    | zero => rfl
    | succ place =>
      rw [before, Utf8.encode, List.flatMap_cons, List.take_append, List.count_append,
        Utf8.count_encodeChar c (Nat.succ_pos place), Utf8.length_encodeChar, ← Utf8.encode,
        List.count_cons, ih, Nat.add_comm]
      simp only [beq_iff_eq]

/-- The octets up to the last line feed are those of the characters up to it. -/
theorem byteLength_dropWhile_before (text : List Char) (place : Nat) :
    Utf8.byteLength ((before text place).reverse.dropWhile (· != '\n')) =
      (((Utf8.encode text).take place).reverse.dropWhile (· != 0x0A)).length := by
  induction text generalizing place with
  | nil => rw [Utf8.encode, List.flatMap_nil, List.take_nil]; rfl
  | cons c text ih =>
    cases place with
    | zero => rfl
    | succ place =>
      have ih := ih (place + 1 - c.utf8Size)
      rw [before, Utf8.encode, List.flatMap_cons, List.take_append, Utf8.length_encodeChar,
        ← Utf8.encode, List.reverse_cons, List.reverse_append, List.dropWhile_append,
        List.dropWhile_append]
      generalize (before text (place + 1 - c.utf8Size)).reverse.dropWhile (· != '\n') = later
        at ih ⊢
      split
      · next none =>
        rw [List.isEmpty_iff.1 none] at ih
        rw [if_pos (List.isEmpty_iff.2 (List.eq_nil_of_length_eq_zero ih.symm))]
        exact (Utf8.length_dropWhile_encodeChar c (Nat.succ_pos place)).symm
      · next some =>
        have positive := Utf8.byteLength_pos.2 fun empty => some (List.isEmpty_iff.2 empty)
        rw [ih] at positive
        -- There is an octet after the character, so the character is whole.
        have whole : c.utf8Size ≤ place + 1 := by
          refine Nat.le_of_not_lt fun cut => ?_
          rw [Nat.sub_eq_zero_of_le (Nat.le_of_lt cut)] at positive
          exact Nat.lt_irrefl _ positive
        rw [if_neg fun empty => Nat.ne_of_gt positive
            (congrArg List.length (List.isEmpty_iff.1 empty)),
          Utf8.byteLength_append, ih, List.length_append, List.length_reverse, List.length_take,
          Utf8.length_encodeChar, Nat.min_eq_right whole]
        rfl

theorem dropBytes_append (front rest : List Char) :
    dropBytes (front ++ rest) (Utf8.byteLength front) = some rest := by
  induction front with
  | nil => cases rest <;> rfl
  | cons c front ih =>
    obtain ⟨n, hn⟩ := Nat.exists_eq_succ_of_ne_zero (Nat.ne_of_gt c.utf8Size_pos)
    have next : c.utf8Size + Utf8.byteLength front = n + Utf8.byteLength front + 1 := by omega
    rw [Utf8.byteLength_cons, next, List.cons_append, dropBytes, if_pos (by omega), ← next,
      Nat.add_sub_cancel_left]
    exact ih

/-- A place lies between two characters if and only if there is a text from it on. -/
theorem dropBytes_isSome {text : List Char} {place : Nat} :
    (dropBytes text place).isSome = true ↔
      ∃ front rest, text = front ++ rest ∧ Utf8.byteLength front = place := by
  constructor
  · intro h
    induction text generalizing place with
    | nil =>
      cases place with
      | zero => exact ⟨[], [], rfl, rfl⟩
      | succ place => cases h
    | cons c text ih =>
      cases place with
      | zero => exact ⟨[], c :: text, rfl, rfl⟩
      | succ place =>
        rw [dropBytes] at h
        split at h
        · next fits =>
          obtain ⟨front, rest, rfl, length⟩ := ih h
          refine ⟨c :: front, rest, rfl, ?_⟩
          rw [Utf8.byteLength_cons, length]
          omega
        · cases h
  · rintro ⟨front, rest, rfl, rfl⟩
    rw [dropBytes_append]
    rfl

theorem takeBytes_append (front rest : List Char) :
    takeBytes (front ++ rest) (Utf8.byteLength front) = some front := by
  induction front with
  | nil => cases rest <;> rfl
  | cons c front ih =>
    obtain ⟨n, hn⟩ := Nat.exists_eq_succ_of_ne_zero (Nat.ne_of_gt c.utf8Size_pos)
    have next : c.utf8Size + Utf8.byteLength front = n + Utf8.byteLength front + 1 := by omega
    rw [Utf8.byteLength_cons, next, List.cons_append, takeBytes, if_pos (by omega), ← next,
      Nat.add_sub_cancel_left, ih]
    rfl

end Text

namespace Source

/-- The octets of a span. -/
def octets (source : Source) (span : Span) : List UInt8 :=
  ((Utf8.encode source.text).drop span.start).take (span.stop - span.start)

/-- The number of line feeds before a place. -/
def lineFeeds (source : Source) (place : Nat) : Nat :=
  ((Utf8.encode source.text).take place).count 0x0A

/-- Where the line of a place begins: at the start of the text, or after the last line feed before
the place. -/
def lineStart (source : Source) (place : Nat) : Nat :=
  (((Utf8.encode source.text).take place).reverse.dropWhile (· != 0x0A)).length

/-- Whether a place lies between two characters, or at an end of the text. -/
def IsBoundary (source : Source) (place : Nat) : Prop :=
  ∃ front rest, source.text = front ++ rest ∧ Utf8.byteLength front = place

/-- A span that cuts no character. -/
structure Whole (source : Source) (span : Span) : Prop where
  ordered : span.start ≤ span.stop
  start : source.IsBoundary span.start
  stop : source.IsBoundary span.stop

variable {source : Source} {span : Span}

instance (source : Source) (place : Nat) : Decidable (source.IsBoundary place) :=
  decidable_of_iff _ Text.dropBytes_isSome

instance (source : Source) (span : Span) : Decidable (source.Whole span) :=
  decidable_of_iff
    (span.start ≤ span.stop ∧ source.IsBoundary span.start ∧ source.IsBoundary span.stop)
    ⟨fun h => ⟨h.1, h.2.1, h.2.2⟩, fun h => ⟨h.ordered, h.start, h.stop⟩⟩

/-- A position, said of the octets of the text. -/
theorem position_eq_octets (source : Source) (place : Nat) :
    source.position place = ⟨source.lineFeeds place, place - source.lineStart place⟩ := by
  rw [position, Text.count_before, Text.byteLength_dropWhile_before, lineFeeds, lineStart]

theorem line_eq_octets (source : Source) (place : Nat) :
    source.line place = 1 + source.lineFeeds place := by
  rw [line, position_eq_octets]

theorem lineFeeds_mono (source : Source) {a b : Nat} (h : a ≤ b) :
    source.lineFeeds a ≤ source.lineFeeds b :=
  (List.take_prefix_take_left h).sublist.count_le _

/-- What is cut out of a text by two places between characters. -/
theorem Whole.split (h : source.Whole span) :
    ∃ front middle rest, source.text = front ++ (middle ++ rest) ∧
      Utf8.byteLength front = span.start ∧ Utf8.byteLength middle = span.stop - span.start := by
  obtain ⟨front, rest, text, start⟩ := h.start
  obtain ⟨front', rest', text', stop⟩ := h.stop
  have ordered := h.ordered
  rcases List.append_eq_append_iff.1 (text.symm.trans text') with
    ⟨middle, rfl, rfl⟩ | ⟨middle, rfl, rfl⟩
  · rw [Utf8.byteLength_append] at stop
    exact ⟨front, middle, rest', text, start, by omega⟩
  · -- The span is empty, so both places are one.
    rw [Utf8.byteLength_append] at start
    have empty : Utf8.byteLength middle = 0 := by omega
    obtain rfl := Utf8.byteLength_eq_zero empty
    have same : Utf8.byteLength ([] : List Char) = 0 := rfl
    exact ⟨front', [], rest, text', by omega, by omega⟩

theorem slice_octets (h : source.Whole span) :
    Utf8.encode (source.slice span) = source.octets span := by
  obtain ⟨front, middle, rest, text, start, length⟩ := h.split
  have slice : source.slice span = middle := by
    rw [Source.slice, slice?, if_pos h.ordered, ← length, ← start, text, Text.dropBytes_append,
      Option.bind_some, Text.takeBytes_append, Option.getD_some]
  rw [slice, octets, text, ← length, ← start, Utf8.encode_append, ← Utf8.length_encode front,
    List.drop_left, Utf8.encode_append, ← Utf8.length_encode middle, List.take_left]

/-! ## Positions of nodes -/

/-- The position of a node has been counted in the source. -/
def Counts (source : Source) (label : ParseTree.Label) : Prop :=
  source.positionOf label = source.position label.span.start

instance (source : Source) (label : ParseTree.Label) : Decidable (source.Counts label) :=
  inferInstanceAs (Decidable (_ = _))

theorem Counts.line {label : ParseTree.Label} (h : source.Counts label) :
    source.lineOf label = 1 + source.lineFeeds label.span.start := by
  rw [lineOf, h, ← Source.line, line_eq_octets]

theorem Counts.column {label : ParseTree.Label} (h : source.Counts label) :
    source.columnOf label = 1 + (label.span.start - source.lineStart label.span.start) := by
  rw [columnOf, h, position_eq_octets]

end Source

/-- The rows of a parse tree count the line feeds before its nodes. -/
def ParseTree.CountsRows (source : Source) (root : ParseTree) : Prop :=
  ∀ t ∈ root.preorder, (source.positionOf t.label).row = source.lineFeeds t.label.span.start

instance (source : Source) (root : ParseTree) : Decidable (root.CountsRows source) :=
  inferInstanceAs (Decidable (∀ _ ∈ _, _))

theorem ParseTree.CountsRows.line {source : Source} {root t : ParseTree}
    (rows : root.CountsRows source) (h : t ∈ root.preorder) :
    source.lineOf t.label = 1 + source.lineFeeds t.label.span.start := by
  rw [Source.lineOf, rows t h]

end ScriptTree
