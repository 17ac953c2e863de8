import ScriptTree.Literal.Quoted

/-!
# The values of string literals

A string literal is a quote, items one after another, and the same quote. `Item` lists what the
language has between the quotes, with the UTF-16 units that each item stands for, and the literal is
read as the text of these units (`string_literal_denotes`). Items do not run into each other: each is
read up to its end whatever comes next (`units_text_append`), but an octal escape must not stand
before a digit that would go on with it.
-/
namespace ScriptTree

/-! ## What units stand for -/

namespace Utf16

/-- The text that units stand for. A leading and a trailing surrogate next to each other are one
character, and a unit outside the surrogates is one; a surrogate without its counterpart stands for
the replacement character. -/
inductive Denotes : List Nat → List Char → Prop where
  | nil : Denotes [] []
  | pair {u v us text} : isLeading u = true → isTrailing v = true → Denotes us text →
      Denotes (u :: v :: us) (join u v :: text)
  | character {u us text} : isLeading u = false → isTrailing u = false → Denotes us text →
      Denotes (u :: us) (Char.ofNat u :: text)
  | leading {u us text} : isLeading u = true → us.head?.any isTrailing = false → Denotes us text →
      Denotes (u :: us) (Utf8.replacement :: text)
  | trailing {u us text} : isTrailing u = true → Denotes us text →
      Denotes (u :: us) (Utf8.replacement :: text)

theorem isLeading_of_isTrailing {u : Nat} (h : isTrailing u = true) : isLeading u = false := by
  simp only [isTrailing, isLeading, Bool.and_eq_true, decide_eq_true_eq, Bool.and_eq_false_iff,
    decide_eq_false_iff_not] at *
  omega

theorem decodeLossy_pair {u v : Nat} (leading : isLeading u = true) (trailing : isTrailing v = true)
    (us : List Nat) : decodeLossy (u :: v :: us) = join u v :: decodeLossy us := by
  rw [decodeLossy, leading, trailing, Bool.true_and, if_pos rfl]

theorem decodeLossy_single {u : Nat} {us : List Nat}
    (unpaired : (isLeading u && us.head?.any isTrailing) = false) :
    decodeLossy (u :: us) = single u :: decodeLossy us := by
  cases us with
  | nil => rfl
  | cons v rest =>
    rw [List.head?_cons, Option.any_some] at unpaired
    rw [decodeLossy, unpaired, if_neg Bool.false_ne_true]

/-- Units are read as the text that they stand for, and stand for no other. -/
theorem denotes_iff {us : List Nat} {text : List Char} : Denotes us text ↔ text = decodeLossy us := by
  constructor
  · intro h
    induction h with
    | nil => rfl
    | pair leading trailing _ ih => rw [decodeLossy_pair leading trailing, ih]
    | character leading trailing _ ih =>
      rw [decodeLossy_single (by rw [leading, Bool.false_and]), single, leading, trailing, ih]
      rfl
    | leading leading alone _ ih =>
      rw [decodeLossy_single (by rw [alone, Bool.and_false]), single, leading, ih]
      rfl
    | trailing trailing _ ih =>
      rw [decodeLossy_single (by rw [isLeading_of_isTrailing trailing, Bool.false_and]), single,
        trailing, Bool.or_true, if_pos rfl, ih]
  · rintro rfl
    have one {u : Nat} {us : List Nat} (unpaired : (isLeading u && us.head?.any isTrailing) = false)
        (ih : Denotes us (decodeLossy us)) : Denotes (u :: us) (single u :: decodeLossy us) := by
      unfold single
      cases leading : isLeading u with
      | true =>
        rw [leading, Bool.true_and] at unpaired
        exact .leading leading unpaired ih
      | false =>
        cases trailing : isTrailing u with
        | true => exact .trailing trailing ih
        | false => exact .character leading trailing ih
    fun_induction decodeLossy us with
    | case1 => exact .nil
    | case2 u => exact one (Bool.and_false _) .nil
    | case3 u v rest pair ih =>
      rw [Bool.and_eq_true] at pair
      exact .pair pair.1 pair.2 ih
    | case4 u v rest unpaired ih => exact one (Bool.eq_false_iff.2 unpaired) ih

end Utf16

namespace Quoted

/-! ## Items -/

/-- A hexadecimal digit, in lower or in upper case. -/
structure HexDigit where
  value : Fin 16
  upper : Bool
  deriving DecidableEq, Repr

/-- The character of a hexadecimal digit. -/
def HexDigit.char (d : HexDigit) : Char :=
  if d.value < 10 then Char.ofNat ('0'.toNat + d.value)
  else Char.ofNat ((if d.upper then 'A' else 'a').toNat + (d.value - 10))

/-- The number that hexadecimal digits write. -/
def hexNumber (digits : List HexDigit) : Nat :=
  digits.foldl (fun n d => n * 16 + d.value.val) 0

/-- The character of an octal digit. -/
def octalChar (d : Fin 8) : Char :=
  Char.ofNat ('0'.toNat + d)

/-- The number that octal digits write. -/
def octalNumber (digits : List (Fin 8)) : Nat :=
  digits.foldl (fun n d => n * 8 + d.val) 0

/-- Whether digits make an octal escape: one to three of them, for one octet. -/
def IsOctalEscape (digits : List (Fin 8)) : Prop :=
  digits ≠ [] ∧ digits.length ≤ 3 ∧ octalNumber digits ≤ 0o377

/-- A control character that has a letter as its escape. -/
inductive Control where
  | backspace | tab | lineFeed | verticalTab | formFeed | carriageReturn
  deriving DecidableEq, Repr

/-- The letter of a control character. -/
def Control.letter : Control → Char
  | backspace => 'b'
  | tab => 't'
  | lineFeed => 'n'
  | verticalTab => 'v'
  | formFeed => 'f'
  | carriageReturn => 'r'

/-- The control character itself. -/
def Control.unit : Control → Nat
  | backspace => 8
  | tab => 9
  | lineFeed => 10
  | verticalTab => 11
  | formFeed => 12
  | carriageReturn => 13

/-- The end of a line in a source. -/
inductive LineEnd where
  | feed | carriageReturn | returnFeed | lineSeparator | paragraphSeparator
  deriving DecidableEq, Repr

/-- The characters at the end of a line. -/
def LineEnd.text : LineEnd → List Char
  | feed => ['\n']
  | carriageReturn => ['\r']
  | returnFeed => ['\r', '\n']
  | lineSeparator => ['\u2028']
  | paragraphSeparator => ['\u2029']

/-- What may stand between the quotes of a literal: a character, or an escape after a backslash. -/
inductive Item where
  | raw (c : Char)
  | control (c : Control)
  | octet (a b : HexDigit)
  | unit (a b c d : HexDigit)
  | codePoint (digits : List HexDigit)
  | octal (digits : List (Fin 8))
  | itself (c : Char)
  | continuation (lineEnd : LineEnd)
  deriving DecidableEq, Repr

namespace Item

/-- The text of an item. -/
def text : Item → List Char
  | raw c => [c]
  | control c => ['\\', c.letter]
  | octet a b => ['\\', 'x', a.char, b.char]
  | unit a b c d => ['\\', 'u', a.char, b.char, c.char, d.char]
  | codePoint digits => '\\' :: 'u' :: '\x7b' :: (digits.map HexDigit.char ++ ['\x7d'])
  | octal digits => '\\' :: digits.map octalChar
  | itself c => ['\\', c]
  | continuation lineEnd => '\\' :: lineEnd.text

/-- The units that an item stands for; an end of line after a backslash stands for none. -/
def units : Item → List Nat
  | raw c => Utf16.encodeChar c
  | control c => [c.unit]
  | octet a b => [hexNumber [a, b]]
  | unit a b c d => [hexNumber [a, b, c, d]]
  | codePoint digits => Utf16.encodeCodePoint (hexNumber digits)
  | octal digits => [octalNumber digits]
  | itself c => Utf16.encodeChar c
  | continuation _ => []

/-- The characters that mean something else after a backslash. -/
def meaningful : List Char :=
  "btnvfrxu01234567\n\r\u2028\u2029".toList

/-- Whether an item may stand between two quotes. -/
def Fits (quote : Char) : Item → Prop
  | raw c => c ≠ '\\' ∧ c ≠ '\r' ∧ c ≠ '\n' ∧ c ≠ quote
  | codePoint digits => digits ≠ [] ∧ hexNumber digits ≤ 0x10FFFF
  | octal digits => IsOctalEscape digits
  | itself c => c ∉ meaningful
  | _ => True

/-- Whether an item ends before a text: the text does not go on with an octal escape. -/
def EndsBefore (rest : List Char) : Item → Prop
  | octal digits => ∀ d, rest.head? = some (octalChar d) → ¬IsOctalEscape (digits ++ [d])
  | _ => True

end Item

/-- Whether items, one after another, may stand between two quotes. -/
def Fit (quote : Char) : List Item → Prop
  | [] => True
  | item :: items =>
    item.Fits quote ∧ item.EndsBefore (items.flatMap Item.text) ∧ Fit quote items

instance : DecidablePred IsOctalEscape :=
  fun digits => inferInstanceAs (Decidable (_ ∧ digits.length ≤ 3 ∧ _))

instance (quote : Char) : DecidablePred (Item.Fits quote)
  | .raw _ => inferInstanceAs (Decidable (_ ∧ _ ∧ _ ∧ _))
  | .codePoint _ => inferInstanceAs (Decidable (_ ∧ _))
  | .octal digits => inferInstanceAs (Decidable (IsOctalEscape digits))
  | .itself _ => inferInstanceAs (Decidable (_ ∉ _))
  | .control _ | .octet .. | .unit .. | .continuation _ => inferInstanceAs (Decidable True)

instance (rest : List Char) : DecidablePred (Item.EndsBefore rest)
  | .octal _ => inferInstanceAs (Decidable (∀ _ : Fin 8, _ → ¬_))
  | .raw _ | .control _ | .octet .. | .unit .. | .codePoint _ | .itself _ | .continuation _ =>
    inferInstanceAs (Decidable True)

instance decidableFit (quote : Char) : DecidablePred (Fit quote)
  | [] => inferInstanceAs (Decidable True)
  | item :: items =>
    have := decidableFit quote items
    inferInstanceAs (Decidable (item.Fits quote ∧ item.EndsBefore _ ∧ Fit quote items))

/-! ## Digits -/

theorem digitValue?_hexDigit_char (d : HexDigit) :
    Decimal.digitValue? 16 d.char = some d.value.val ∧ d.char ≠ '\x7b' ∧ d.char ≠ '\x7d' := by
  have all : ∀ (value : Fin 16) (upper : Bool),
      Decimal.digitValue? 16 (HexDigit.char ⟨value, upper⟩) = some value.val ∧
        HexDigit.char ⟨value, upper⟩ ≠ '\x7b' ∧ HexDigit.char ⟨value, upper⟩ ≠ '\x7d' := by
    decide
  exact all d.value d.upper

theorem digitValue?_octalChar : ∀ d : Fin 8, Decimal.digitValue? 8 (octalChar d) = some d.val := by
  decide

theorem exists_octalChar {c : Char} {n : Nat} (h : Decimal.digitValue? 8 c = some n) :
    ∃ d : Fin 8, c = octalChar d := by
  unfold Decimal.digitValue? at h
  simp only [Option.ite_none_right_eq_some, Option.some.injEq] at h
  obtain ⟨small, -⟩ := h
  split at small
  · next decimal =>
    have low : '0'.toNat ≤ c.toNat := decimal.1
    refine ⟨⟨c.toNat - '0'.toNat, small⟩, ?_⟩
    rw [octalChar, Nat.add_sub_cancel' low, Char.ofNat_toNat]
  · split at small
    · omega
    · split at small <;> omega

/-- Hexadecimal digits go on with a number. -/
theorem readHex?_digits (digits : List HexDigit) (n : Nat) (rest : List Char) :
    readHex? digits.length n (digits.map HexDigit.char ++ rest) =
      some (digits.foldl (fun n d => n * 16 + d.value.val) n, rest) := by
  induction digits generalizing n with
  | nil => rfl
  | cons d digits ih =>
    rw [List.map_cons, List.cons_append, List.length_cons, readHex?, (digitValue?_hexDigit_char d).1]
    exact ih _

theorem le_foldl_hex (digits : List HexDigit) (n : Nat) :
    n ≤ digits.foldl (fun n d => n * 16 + d.value.val) n := by
  induction digits generalizing n with
  | nil => exact Nat.le_refl n
  | cons d digits ih =>
    have here : n ≤ n * 16 + d.value.val := by omega
    exact Nat.le_trans here (ih _)

/-- Digits in braces are read up to the closing brace if their number is that of a character. -/
theorem readBraced?_digits {digits : List HexDigit} {n : Nat} {started : Bool}
    (some' : started = true ∨ digits ≠ [])
    (bound : digits.foldl (fun n d => n * 16 + d.value.val) n ≤ 0x10FFFF) (rest : List Char) :
    readBraced? started n (digits.map HexDigit.char ++ '\x7d' :: rest) =
      some (digits.foldl (fun n d => n * 16 + d.value.val) n, rest) := by
  induction digits generalizing n started with
  | nil =>
    have started : started = true := some'.resolve_right fun h => h rfl
    rw [List.map_nil, List.nil_append, readBraced?, if_pos ⟨rfl, started⟩]
    rfl
  | cons d digits ih =>
    obtain ⟨value, -, noBrace⟩ := digitValue?_hexDigit_char d
    have small : n * 16 + d.value.val < bracedLimit :=
      Nat.lt_of_le_of_lt (Nat.le_trans (le_foldl_hex digits _) bound) (by decide)
    rw [List.map_cons, List.cons_append, readBraced?, if_neg fun h => noBrace h.1, value]
    dsimp only
    rw [if_pos small]
    exact ih (.inl rfl) bound

/-- Octal digits go on with a number, as many as may and no more than there are. -/
theorem readOctal_digits {digits : List (Fin 8)} {most : Nat} (n : Nat) {rest : List Char}
    (short : digits.length ≤ most)
    (stops : digits.length < most → ∀ c, rest.head? = some c → Decimal.digitValue? 8 c = none) :
    readOctal most n (digits.map octalChar ++ rest) =
      (digits.foldl (fun n d => n * 8 + d.val) n, rest) := by
  induction digits generalizing n most with
  | nil =>
    rw [List.map_nil, List.nil_append, List.foldl_nil]
    cases most with
    | zero => rfl
    | succ most =>
      cases rest with
      | nil => rfl
      | cons c rest => rw [readOctal, stops (Nat.succ_pos most) c rfl]
  | cons d digits ih =>
    obtain ⟨most, rfl⟩ := Nat.exists_eq_add_one_of_ne_zero (Nat.ne_zero_of_lt short)
    rw [List.map_cons, List.cons_append, readOctal, digitValue?_octalChar]
    exact ih _ (Nat.le_of_succ_le_succ short) fun h => stops (Nat.succ_lt_succ h)

/-! ## Escapes -/

theorem readEscape_control (c : Control) (rest : List Char) :
    readEscape c.letter rest = ([c.unit], rest) := by
  cases c <;> rfl

theorem readEscape_octet (a b : HexDigit) (rest : List Char) :
    readEscape 'x' (a.char :: b.char :: rest) = ([hexNumber [a, b]], rest) := by
  have digits : readHex? 2 0 (a.char :: b.char :: rest) = some (hexNumber [a, b], rest) :=
    readHex?_digits [a, b] 0 rest
  have control : controlEscape? 'x' = none := rfl
  have octal : Decimal.digitValue? 8 'x' = none := by decide
  simp only [readEscape, control, octal, if_true, digits]

theorem readCodePoint?_unit (a b c d : HexDigit) (rest : List Char) :
    readCodePoint? (a.char :: b.char :: c.char :: d.char :: rest) =
      some (hexNumber [a, b, c, d], rest) := by
  have noBrace := (digitValue?_hexDigit_char a).2.1
  unfold readCodePoint?
  split
  · next h => exact absurd (List.cons.inj h).1 noBrace
  · exact readHex?_digits [a, b, c, d] 0 rest

theorem readEscape_codePoint {n : Nat} {tail rest : List Char}
    (read : readCodePoint? tail = some (n, rest)) (bound : n ≤ 0x10FFFF) :
    readEscape 'u' tail = (Utf16.encodeCodePoint n, rest) := by
  have control : controlEscape? 'u' = none := rfl
  have octal : Decimal.digitValue? 8 'u' = none := by decide
  have other : ('u' : Char) ≠ 'x' := by decide
  simp only [readEscape, control, octal, if_neg other, if_true, read, unitsOfCodePoint,
    if_pos bound]

theorem hexNumber_unit_lt (a b c d : HexDigit) : hexNumber [a, b, c, d] < 0x10000 := by
  have := a.value.isLt
  have := b.value.isLt
  have := c.value.isLt
  have := d.value.isLt
  simp only [hexNumber, List.foldl_cons, List.foldl_nil]
  omega

/-- The first digit tells how many may follow it. -/
theorem isOctalEscape_cons {d : Fin 8} {digits : List (Fin 8)} :
    IsOctalEscape (d :: digits) ↔ digits.length ≤ if d.val ≤ 3 then 2 else 1 := by
  unfold IsOctalEscape octalNumber
  match digits with
  | [] => simp; omega
  | [e] =>
    simp only [List.foldl_cons, List.foldl_nil, List.length_cons, List.length_nil]
    split <;> simp <;> omega
  | [e, f] =>
    simp only [List.foldl_cons, List.foldl_nil, List.length_cons, List.length_nil]
    split <;> simp <;> omega
  | e :: f :: g :: others =>
    refine iff_of_false (fun h => ?_) fun h => ?_
    · have := h.2.1
      simp only [List.length_cons] at this
      omega
    · simp only [List.length_cons] at h
      split at h <;> omega

/-- An octal escape is read up to its end if the text after it does not go on with it. -/
theorem readEscape_octal {d : Fin 8} {digits : List (Fin 8)} {rest : List Char}
    (octal : IsOctalEscape (d :: digits))
    (ends : ∀ e, rest.head? = some (octalChar e) → ¬IsOctalEscape (d :: digits ++ [e])) :
    readEscape (octalChar d) (digits.map octalChar ++ rest) = ([octalNumber (d :: digits)], rest) := by
  have control : controlEscape? (octalChar d) = none := by
    have all : ∀ d, controlEscape? (octalChar d) = none := by decide
    exact all d
  have stops : digits.length < (if d.val ≤ 3 then 2 else 1) →
      ∀ c, rest.head? = some c → Decimal.digitValue? 8 c = none := by
    intro shorter c next
    refine Option.eq_none_iff_forall_ne_some.2 fun n digit => ?_
    obtain ⟨e, rfl⟩ := exists_octalChar digit
    refine ends e next (isOctalEscape_cons.2 ?_)
    exact List.length_append ▸ shorter
  have read := readOctal_digits d.val (isOctalEscape_cons.1 octal) stops
  have number : digits.foldl (fun n d => n * 8 + d.val) d.val = octalNumber (d :: digits) := by
    rw [octalNumber, List.foldl_cons, Nat.zero_mul, Nat.zero_add]
  simp only [readEscape, control, digitValue?_octalChar, read, number]

theorem readEscape_itself {c : Char} (h : c ∉ Item.meaningful) (rest : List Char) :
    readEscape c rest = (Utf16.encodeChar c, rest) := by
  have other {d : Char} (hd : d ∈ Item.meaningful) : c ≠ d := fun e => h (e ▸ hd)
  have control : controlEscape? c = none := by
    unfold controlEscape?
    split <;> first | rfl | exact absurd rfl (other (by decide))
  have octal : Decimal.digitValue? 8 c = none := by
    refine Option.eq_none_iff_forall_ne_some.2 fun n digit => ?_
    obtain ⟨d, rfl⟩ := exists_octalChar digit
    have all : ∀ d, octalChar d ∈ Item.meaningful := by decide
    exact h (all d)
  simp only [readEscape, control, octal, if_neg (other (d := 'x') (by decide)),
    if_neg (other (d := 'u') (by decide)), if_neg (other (d := '\r') (by decide)),
    other (d := '\n') (by decide), other (d := '\u2028') (by decide),
    other (d := '\u2029') (by decide), or_self, if_false]

/-- An end of line is read up to its end if no line feed follows it. -/
theorem readEscape_lineEnd {lineEnd : LineEnd} {c : Char} {tail rest : List Char}
    (text : lineEnd.text = c :: tail) (noFeed : rest.head? ≠ some '\n') :
    readEscape c (tail ++ rest) = ([], rest) := by
  cases lineEnd <;> obtain ⟨rfl, rfl⟩ := List.cons.inj text
  case carriageReturn =>
    -- Only a carriage return is looked past, for a line feed that would belong to it.
    have control : controlEscape? '\r' = none := by decide
    have octal : Decimal.digitValue? 8 '\r' = none := by decide
    have noHex : '\r' ≠ 'x' := by decide
    have noUnit : '\r' ≠ 'u' := by decide
    simp only [readEscape, control, octal, if_neg noHex, if_neg noUnit, if_true, List.nil_append]
    split
    · exact absurd rfl noFeed
    · rfl
  all_goals rfl

/-! ## Items one after another -/

theorem units_escape {c : Char} {tail rest : List Char} {us : List Nat}
    (h : readEscape c tail = (us, rest)) : units ('\\' :: c :: tail) = us ++ units rest := by
  rw [units, if_pos rfl, h]

/-- An item is read up to its end, whatever comes next. -/
theorem units_text_append {quote : Char} {item : Item} (fits : item.Fits quote) {rest : List Char}
    (ends : item.EndsBefore rest) (noFeed : rest.head? ≠ some '\n') :
    units (item.text ++ rest) = item.units ++ units rest := by
  cases item with
  | raw c =>
    rw [Item.text, List.singleton_append, units.eq_def]
    exact if_neg fits.1
  | control c => exact units_escape (readEscape_control c rest)
  | octet a b => exact units_escape (readEscape_octet a b rest)
  | unit a b c d =>
    have small := hexNumber_unit_lt a b c d
    have read := readEscape_codePoint (readCodePoint?_unit a b c d rest) (by omega)
    rw [Utf16.encodeCodePoint, if_pos small] at read
    exact units_escape read
  | codePoint digits =>
    have some' : false = true ∨ digits ≠ [] := .inr fits.1
    have read := readBraced?_digits some' fits.2 rest
    rw [Item.text, List.cons_append, List.cons_append, List.cons_append, List.append_assoc]
    exact units_escape (readEscape_codePoint read fits.2)
  | octal digits =>
    cases digits with
    | nil => exact absurd rfl fits.1
    | cons d digits => exact units_escape (readEscape_octal fits ends)
  | itself c => exact units_escape (readEscape_itself fits rest)
  | continuation lineEnd =>
    cases text : lineEnd.text with
    | nil => cases lineEnd <;> cases text
    | cons c tail =>
      rw [Item.text, text]
      exact units_escape (readEscape_lineEnd text noFeed)

/-- No item starts with a line feed. -/
theorem head?_text_ne_feed {quote : Char} {items : List Item} (fit : Fit quote items) :
    (items.flatMap Item.text).head? ≠ some '\n' := by
  cases items with
  | nil => exact nofun
  | cons item items =>
    rw [List.flatMap_cons]
    cases item with
    | raw c => exact fun h => fit.1.2.2.1 (Option.some.inj h)
    | _ => exact fun h => absurd (Option.some.inj h) (by decide)

theorem units_items {quote : Char} {items : List Item} (fit : Fit quote items) :
    units (items.flatMap Item.text) = items.flatMap Item.units := by
  induction items with
  | nil => rw [List.flatMap_nil, units, List.flatMap_nil]
  | cons item items ih =>
    rw [List.flatMap_cons, List.flatMap_cons,
      units_text_append fit.1 fit.2.1 (head?_text_ne_feed fit.2.2), ih fit.2.2]

theorem unquote_quoted {quote : Char} (h : isQuote quote = true) (inner : List Char) :
    unquote (quote :: (inner ++ [quote])) = inner := by
  simp only [unquote, List.getLast?_concat, h, Bool.and_self, if_true, List.dropLast_concat]

/-- A string literal has the value that the language gives it. Whatever items stand between its
quotes, it is read as the text of their units, one after another: surrogate halves that meet are one
character, also those of two escapes, and one without its counterpart is the replacement
character. -/
theorem string_literal_denotes {quote : Char} (h : isQuote quote = true) {items : List Item}
    (fit : Fit quote items) :
    Utf16.Denotes (items.flatMap Item.units)
      (read (quote :: (items.flatMap Item.text ++ [quote]))) := by
  rw [Utf16.denotes_iff, read, unquote_quoted h, units_items fit]

/-- Items next to which others would be read differently: octal escapes before digits, two halves of
a character from two escapes with nothing but the end of a line after them, and half a character. -/
def closeItems : List Item :=
  let hex (value : Fin 16) : HexDigit := ⟨value, value = 13⟩
  [.raw 'é', .octal [4, 1], .raw '1', .octal [0], .raw '9', .octet (hex 4) (hex 10),
    .unit (hex 13) (hex 8) (hex 3) (hex 13),
    .codePoint [hex 0, hex 0, hex 13, hex 14, hex 0, hex 0], .continuation .carriageReturn,
    .unit (hex 13) (hex 8) (hex 0) (hex 0), .control .tab, .itself '"']

theorem close_items_denote :
    let literal := "\"é\\411\\09\\x4a\\uD83D\\u\x7b00De00\x7d\\\r\\uD800\\t\\\"\"".toList
    isQuote '"' = true ∧ Fit '"' closeItems ∧
      Utf16.Denotes [0xE9, 0x21, 0x31, 0, 0x39, 0x4A, 0xD83D, 0xDE00, 0xD800, 9, 0x22]
        (read literal) ∧
      read literal = "é!1\x009J😀\uFFFD\t\"".toList := by
  intro literal
  have quote : isQuote '"' = true := by decide
  have fit : Fit '"' closeItems := by decide
  have text : '"' :: (closeItems.flatMap Item.text ++ ['"']) = literal := by decide
  have denotes := string_literal_denotes quote fit
  rw [text] at denotes
  exact ⟨quote, fit, denotes, (Utf16.denotes_iff.1 denotes).trans (by decide)⟩

end Quoted

end ScriptTree
