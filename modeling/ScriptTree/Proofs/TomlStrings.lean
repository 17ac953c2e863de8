import ScriptTree.Proofs.TextOctets
import ScriptTree.Toml.Printer
import ScriptTree.Toml.Reader

/-!
# TOML strings read back

A text is read from its quotes as it was, whatever is in it (`readString_quote`). With one quote a
character is written as itself or as an escape for it. With three quotes line breaks stay, and so do
quotes; of these no three stand in a row, and those that end the text are told from the closing ones
by their number (`readLines_closing`).
-/
namespace ScriptTree.Toml

variable {c q : Char} {text after : List Char} {fuel : Nat}

/-! ## Single characters -/

/-- Whether a character is written as itself. -/
def isItself (c : Char) : Bool :=
  escapeChar c == [c] && isPlain c && c != '"' && c != '\\'

/-- Whether a character is written as a backslash and what is read as it. -/
def isEscaped (c : Char) : Bool :=
  (escapeChar c).head? == some '\\' && readEscape (escapeChar c).tail == some (c, []) &&
    (escapeChar c).tail.head?.all fun first => !isGap first && first != '\n' && first != '\r'

theorem isItself_or_isEscaped (c : Char) : isItself c ∨ isEscaped c := by
  by_cases small : c.toNat < 0x80
  · exact Utf8.forall_below (P := fun c => isItself c ∨ isEscaped c) (by decide +kernel) c small
  · left
    have other (d : Char) (hd : d.toNat < 0x80) : c ≠ d := by
      rintro rfl
      exact small hd
    have plain : isControl c = false := by
      simp only [isControl, Bool.or_eq_false_iff, decide_eq_false_iff_not, beq_eq_false_iff_ne]
      omega
    have self : escapeChar c = [c] := by
      simp [escapeChar, other, plain]
    have fits : isPlain c = true := by
      simp only [isPlain, Bool.or_eq_true, Bool.and_eq_true, decide_eq_true_eq, bne_iff_ne]
      omega
    rw [isItself, self, fits]
    simp [other]

/-- An escape ends where it did, whatever comes after it. -/
theorem readEscape_append {code more : List Char} (h : readEscape code = some (c, more))
    (rest : List Char) : readEscape (code ++ rest) = some (c, more ++ rest) := by
  have digits (n : Nat) (code : List Char)
      (h : (if code.length < n then none else (codePoint? (code.take n)).map (·, code.drop n)) =
        some (c, more)) :
      (if (code ++ rest).length < n then none
        else (codePoint? ((code ++ rest).take n)).map (·, (code ++ rest).drop n)) =
      some (c, more ++ rest) := by
    split at h
    · cases h
    · next long =>
      have enough : n ≤ code.length := Nat.le_of_not_lt long
      obtain ⟨read, found, e⟩ := Option.map_eq_some_iff.1 h
      cases e
      rw [if_neg (by rw [List.length_append]; omega), List.take_append_of_le_length enough,
        List.drop_append_of_le_length enough, found]
      rfl
  cases code with
  | nil => cases h
  | cons first code =>
    by_cases short : first = 'u'
    · subst short
      exact digits 4 code h
    by_cases long : first = 'U'
    · subst long
      exact digits 8 code h
    rw [readEscape] at h
    · obtain ⟨read, found, e⟩ := Option.map_eq_some_iff.1 h
      cases e
      rw [List.cons_append, readEscape, found]
      · rfl
      · exact short
      · exact long
    · exact short
    · exact long

/-- A character is written as itself, if it is plain, or as a backslash and what is read as it. -/
theorem escapeChar_cases (c : Char) :
    (escapeChar c = [c] ∧ isPlain c ∧ c ≠ '"' ∧ c ≠ '\\') ∨
      ∃ first code, escapeChar c = '\\' :: first :: code ∧
        (isGap first = false ∧ first ≠ '\n' ∧ first ≠ '\r') ∧
        ∀ rest, readEscape (first :: code ++ rest) = some (c, rest) := by
  rcases isItself_or_isEscaped c with self | escaped
  · left
    simp only [isItself, Bool.and_eq_true, beq_iff_eq, bne_iff_ne] at self
    obtain ⟨⟨⟨self, plain⟩, notQuote⟩, notBackslash⟩ := self
    exact ⟨self, plain, notQuote, notBackslash⟩
  · right
    simp only [isEscaped, Bool.and_eq_true, beq_iff_eq] at escaped
    obtain ⟨⟨backslash, read⟩, starts⟩ := escaped
    obtain ⟨tail, written⟩ := List.head?_eq_some_iff.1 backslash
    rw [written, List.tail_cons] at read starts
    cases tail with
    | nil => cases read
    | cons first code =>
      simp only [List.head?_cons, Option.all_some, Bool.and_eq_true, Bool.not_eq_true',
        bne_iff_ne] at starts
      exact ⟨first, code, written, ⟨starts.1.1, starts.1.2, starts.2⟩, readEscape_append read⟩

theorem lineBreak?_cons (h : c ≠ '\n') (h' : c ≠ '\r') (rest : List Char) :
    lineBreak? (c :: rest) = none := by
  unfold lineBreak?
  split <;> simp_all

theorem ne_break_of_isPlain (h : isPlain c) : c ≠ '\n' ∧ c ≠ '\r' := by
  constructor <;> rintro rfl <;> exact absurd h (by decide)

/-! ## One quote -/

theorem readBasic_escapeChar (c : Char) (rest : List Char) :
    readBasic (fuel + 1) (escapeChar c ++ rest) =
      (readBasic fuel rest).map fun (text, rest) => (c :: text, rest) := by
  rcases escapeChar_cases c with ⟨self, plain, notQuote, notBackslash⟩ | ⟨first, code, written, -, read⟩
  · rw [self, List.singleton_append, readBasic, if_neg notQuote, if_neg notBackslash, if_pos plain]
  · rw [written, List.cons_append, readBasic, if_neg (by decide), if_pos rfl, read]
    show (readBasic fuel rest >>= fun (text, rest) => pure (c :: text, rest)) = _
    cases readBasic fuel rest <;> rfl

theorem readBasic_flatMap (h : text.length < fuel) (after : List Char) :
    readBasic fuel (text.flatMap escapeChar ++ '"' :: after) = some (text, after) := by
  induction text generalizing fuel with
  | nil =>
    cases fuel with
    | zero => cases h
    | succ fuel => rfl
  | cons c text ih =>
    cases fuel with
    | zero => cases h
    | succ fuel =>
      rw [List.flatMap_cons, List.append_assoc, readBasic_escapeChar,
        ih (Nat.lt_of_succ_lt_succ h)]
      rfl

theorem readLiteral_append (plain : ∀ c ∈ text, isPlain c) (bare : '\'' ∉ text)
    (after : List Char) : readLiteral (text ++ '\'' :: after) = some (text, after) := by
  induction text with
  | nil => rfl
  | cons c text ih =>
    rw [List.forall_mem_cons] at plain
    rw [List.mem_cons, not_or] at bare
    rw [List.cons_append, readLiteral, if_neg (Ne.symm bare.1), if_pos plain.1,
      ih plain.2 bare.2]
    rfl

/-! ## Three quotes -/

/-- How many quotes stand at the start of a text. -/
def run (q : Char) (text : List Char) : Nat :=
  (text.takeWhile (· == q)).length

theorem run_cons_self (q : Char) (text : List Char) :
    run q (q :: text) = run q text + 1 := by
  simp [run]

theorem run_cons_of_ne (h : c ≠ q) (text : List Char) : run q (c :: text) = 0 := by
  simp [run, h]

theorem run_cons_le (h : c ≠ q) (text : List Char) (n : Nat) : run q (c :: text) ≤ n := by
  rw [run_cons_of_ne h]
  exact Nat.zero_le n

theorem run_replicate (q : Char) (n : Nat) (ends : after.head? ≠ some q) :
    run q (List.replicate n q ++ after) = n := by
  induction n with
  | zero =>
    cases after with
    | nil => rfl
    | cons c after =>
      exact run_cons_of_ne (fun same => ends (congrArg some same)) after
  | succ n ih => rw [List.replicate_succ, List.cons_append, run_cons_self, ih]

theorem readClosing?_of_run (h : run q text < 3) : readClosing? q text = none :=
  if_pos h

/-- Quotes at the end of a text are told from the three that close it. -/
theorem readLines_closing {n : Nat} (few : n ≤ 2) (ends : after.head? ≠ some q) :
    readLines q (fuel + 1) (List.replicate n q ++ [q, q, q] ++ after) =
      some (List.replicate n q, after) := by
  have all : List.replicate n q ++ [q, q, q] = List.replicate (n + 3) q :=
    List.replicate_append_replicate (n := n) (m := 3)
  have count := run_replicate q (n + 3) ends
  have closing : readClosing? q (List.replicate (n + 3) q ++ after) =
      some (List.replicate n q, after) := by
    have more : min (run q (List.replicate (n + 3) q ++ after) - 3) 2 = n := by
      rw [count]
      omega
    show (if run q _ < 3 then none
      else some (List.replicate (min (run q _ - 3) 2) q,
        (List.replicate (n + 3) q ++ after).drop (min (run q _ - 3) 2 + 3))) = _
    rw [more, if_neg (by omega), List.drop_left' (List.length_replicate)]
  conv => lhs; unfold readLines
  rw [all, closing]

theorem readLines_break (h : q ≠ '\n') (rest : List Char) :
    readLines q (fuel + 1) ('\n' :: rest) =
      (readLines q fuel rest).map fun (text, rest) => ('\n' :: text, rest) := by
  have open' : readClosing? q ('\n' :: rest) = none :=
    readClosing?_of_run (Nat.lt_succ_of_le (run_cons_le (Ne.symm h) _ 2))
  conv => lhs; unfold readLines
  rw [open']
  rfl

theorem readLines_plain (plain : isPlain c) (bare : ¬(c = '\\' ∧ q = '"')) {rest : List Char}
    (few : run q (c :: rest) < 3) : readLines q (fuel + 1) (c :: rest) =
      (readLines q fuel rest).map fun (text, rest) => (c :: text, rest) := by
  obtain ⟨notFeed, notReturn⟩ := ne_break_of_isPlain plain
  conv => lhs; unfold readLines
  rw [readClosing?_of_run few, lineBreak?_cons notFeed notReturn]
  simp only [if_neg bare, if_pos plain]

theorem readLines_escapeChar (c : Char) (rest : List Char) :
    readLines '"' (fuel + 1) (escapeChar c ++ rest) =
      (readLines '"' fuel rest).map fun (text, rest) => (c :: text, rest) := by
  rcases escapeChar_cases c with
    ⟨self, plain, notQuote, notBackslash⟩ | ⟨first, code, written, ⟨gap, feed, back⟩, read⟩
  · rw [self, List.singleton_append]
    exact readLines_plain plain (fun h => notBackslash h.1)
      (Nat.lt_succ_of_le (run_cons_le notQuote _ 2))
  · have few : run '"' ('\\' :: (first :: code ++ rest)) < 3 := by
      rw [run_cons_of_ne (by decide)]
      decide
    have stays : lineBreak? ((first :: code ++ rest).dropWhile isGap) = none := by
      rw [List.cons_append, List.dropWhile_cons_of_neg (by simp [gap])]
      exact lineBreak?_cons feed back _
    rw [written, List.cons_append]
    conv => lhs; unfold readLines
    rw [readClosing?_of_run few, lineBreak?_cons (by decide) (by decide)]
    simp only [and_self, if_true, stays, read]
    show (readLines '"' fuel rest >>= fun (text, rest) => pure (c :: text, rest)) = _
    cases readLines '"' fuel rest <;> rfl

/-! ### Quotes in a row -/

/-- A text in double quotes is made of quotes alone, few enough, or starts with few of them. -/
theorem run_escapeLines {quotes : Nat} (few : quotes ≤ 2) (text after : List Char) :
    (∃ n ≤ 2 - quotes, text = List.replicate n '"' ∧ escapeLines quotes text = text) ∨
      run '"' (escapeLines quotes text ++ after) ≤ 2 - quotes := by
  induction text generalizing quotes with
  | nil => exact .inl ⟨0, Nat.zero_le _, rfl, rfl⟩
  | cons c text ih =>
    by_cases isQuote : c = '"'
    · subst isQuote
      by_cases room : quotes < 2
      · rw [escapeLines, if_pos rfl, if_pos room]
        have next : quotes + 1 ≤ 2 := room
        rcases ih next with ⟨n, small, all, same⟩ | short
        · refine .inl ⟨n + 1, by omega, ?_, by rw [same]⟩
          rw [all, List.replicate_succ]
        · right
          rw [List.cons_append, run_cons_self]
          omega
      · right
        rw [escapeLines, if_pos rfl, if_neg room, List.append_assoc]
        exact run_cons_le (by decide) _ _
    · right
      have first : ∃ d rest, escapeLines quotes (c :: text) = d :: rest ∧ d ≠ '"' := by
        rw [escapeLines, if_neg isQuote]
        by_cases feed : c = '\n'
        · rw [if_pos feed]
          exact ⟨c, _, rfl, isQuote⟩
        · rw [if_neg feed]
          rcases escapeChar_cases c with ⟨self, -⟩ | ⟨d, code, written, -⟩
          · rw [self]
            exact ⟨c, _, rfl, isQuote⟩
          · rw [written]
            exact ⟨'\\', _, rfl, by decide⟩
      obtain ⟨d, rest, written, other⟩ := first
      rw [written, List.cons_append]
      exact run_cons_le other _ _

/-- A text without three quotes in a row is made of quotes alone, or starts with few of them. -/
theorem run_of_not_isTripled (h : isTripled q text = false) (after : List Char) :
    (∃ n ≤ 2, text = List.replicate n q) ∨ run q (text ++ after) ≤ 2 := by
  match text with
  | [] => exact .inl ⟨0, by decide, rfl⟩
  | [x] =>
    by_cases hx : x = q
    · exact .inl ⟨1, by decide, by rw [hx]; rfl⟩
    · exact .inr (run_cons_le hx _ _)
  | x :: y :: rest =>
    by_cases hx : x = q
    · subst hx
      by_cases hy : y = x
      · subst hy
        cases rest with
        | nil => exact .inl ⟨2, Nat.le_refl 2, rfl⟩
        | cons z rest =>
          have hz : z ≠ y := by
            rintro rfl
            simp [isTripled] at h
          right
          simp only [List.cons_append, run_cons_self, run_cons_of_ne hz]
          exact Nat.le_refl 2
      · right
        simp only [List.cons_append, run_cons_self, run_cons_of_ne hy]
        decide
    · exact .inr (run_cons_le hx _ _)

theorem isTripled_tail (h : isTripled q (c :: text) = false) : isTripled q text = false := by
  match text with
  | [] => rfl
  | [x] => rfl
  | x :: y :: rest =>
    rw [isTripled, Bool.or_eq_false_iff] at h
    exact h.2

/-! ### Texts of several lines -/

theorem readLines_escapeLines {quotes : Nat} (few : quotes ≤ 2) (h : text.length < fuel)
    (ends : after.head? ≠ some '"') :
    readLines '"' fuel (escapeLines quotes text ++ ['"', '"', '"'] ++ after) =
      some (text, after) := by
  induction text generalizing quotes fuel with
  | nil =>
    cases fuel with
    | zero => cases h
    | succ fuel => exact readLines_closing (n := 0) (by decide) ends
  | cons c text ih =>
    cases fuel with
    | zero => cases h
    | succ fuel =>
      have below := Nat.lt_of_succ_lt_succ h
      rw [List.append_assoc]
      rcases run_escapeLines few (c :: text) (['"', '"', '"'] ++ after) with
        ⟨n, small, all, same⟩ | short
      · rw [same, all, ← List.append_assoc]
        exact readLines_closing (Nat.le_trans small (Nat.sub_le _ _)) ends
      · by_cases isQuote : c = '"'
        · subst isQuote
          by_cases room : quotes < 2
          · rw [escapeLines, if_pos rfl, if_pos room] at short ⊢
            have some : run '"' ('"' :: (escapeLines (quotes + 1) text ++ (['"', '"', '"'] ++ after)))
                < 3 := by
              rw [List.cons_append] at short
              omega
            rw [List.cons_append, readLines_plain (by decide) (by decide) some,
              ← List.append_assoc, ih room below]
            rfl
          · rw [escapeLines, if_pos rfl, if_neg room, List.append_assoc, readLines_escapeChar,
              ← List.append_assoc, ih (by decide) below]
            rfl
        · rw [escapeLines, if_neg isQuote, List.append_assoc]
          by_cases feed : c = '\n'
          · subst feed
            rw [if_pos rfl, List.singleton_append, readLines_break (by decide),
              ← List.append_assoc, ih (by decide) below]
            rfl
          · rw [if_neg feed, readLines_escapeChar, ← List.append_assoc, ih (by decide) below]
            rfl

theorem readLines_literal (plain : ∀ c ∈ text, isPlain c ∨ c = '\n')
    (single : isTripled '\'' text = false) (h : text.length < fuel)
    (ends : after.head? ≠ some '\'') :
    readLines '\'' fuel (text ++ ['\'', '\'', '\''] ++ after) = some (text, after) := by
  induction text generalizing fuel with
  | nil =>
    cases fuel with
    | zero => cases h
    | succ fuel => exact readLines_closing (n := 0) (by decide) ends
  | cons c text ih =>
    cases fuel with
    | zero => cases h
    | succ fuel =>
      rw [List.forall_mem_cons] at plain
      have rest := ih plain.2 (isTripled_tail single) (Nat.lt_of_succ_lt_succ h)
      rw [List.append_assoc] at rest ⊢
      rcases run_of_not_isTripled single (['\'', '\'', '\''] ++ after) with ⟨n, small, all⟩ | short
      · rw [all, ← List.append_assoc]
        exact readLines_closing small ends
      · rcases plain.1 with plain | rfl
        · rw [List.cons_append] at short ⊢
          rw [readLines_plain plain (by simp) (Nat.lt_succ_of_le short), rest]
          rfl
        · rw [List.cons_append, readLines_break (by decide), rest]
          rfl

/-! ## Texts in quotes -/

/-- What the quotes ask of a text that stands in them as it is. -/
def Quotes.Allow : Quotes → List Char → Prop
  | .basic, _ => True
  | .literal, text => (∀ c ∈ text, isPlain c) ∧ '\'' ∉ text
  | .basicLines, _ => True
  | .literalLines, text => (∀ c ∈ text, isPlain c ∨ c = '\n') ∧ isTripled '\'' text = false

theorem Quotes.allow_ofText (text : List Char) : (Quotes.ofText text).Allow text := by
  have plain (clean : (!text.any fun c => isControl c && c != '\t' && c != '\n') = true) :
      ∀ c ∈ text, isPlain c ∨ c = '\n' := by
    intro c hc
    rw [List.not_any_eq_all_not, List.all_eq_true] at clean
    have stands := clean c hc
    by_cases feed : c = '\n'
    · exact .inr feed
    · left
      by_cases tab : c = '\t'
      · exact tab ▸ rfl
      · simp_all [isControl, isPlain]
  unfold Quotes.ofText
  dsimp only
  split
  · trivial
  split
  · next fits =>
    simp only [Bool.and_eq_true, Bool.not_eq_true', List.contains_eq_mem,
      decide_eq_false_iff_not] at fits
    obtain ⟨⟨clean, bare⟩, whole⟩ := fits
    have plain := plain (by simpa using clean)
    refine ⟨fun c hc => (plain c hc).resolve_right ?_, bare⟩
    rintro rfl
    exact whole hc
  split
  · trivial
  split
  · next fits =>
    simp only [Bool.and_eq_true, Bool.not_eq_true'] at fits
    exact ⟨plain (by simpa using fits.1), fits.2⟩
  · split <;> trivial

theorem opening_append (rest : List Char) (h : '\n' ∉ text → lineBreak? rest = none) :
    (lineBreak? (opening text ++ rest)).getD (opening text ++ rest) = rest := by
  unfold opening
  by_cases broken : text.contains '\n'
  · rw [if_pos broken]
    rfl
  · rw [if_neg broken, List.nil_append, h (by simpa using broken)]
    rfl

theorem length_escapeChar_pos (c : Char) : 0 < (escapeChar c).length := by
  rcases escapeChar_cases c with ⟨self, -⟩ | ⟨first, code, written, -⟩
  · simp [self]
  · simp [written]

theorem length_le_flatMap (text : List Char) :
    text.length ≤ (text.flatMap escapeChar).length := by
  induction text with
  | nil => exact Nat.le_refl 0
  | cons c text ih =>
    have some := length_escapeChar_pos c
    rw [List.flatMap_cons, List.length_append, List.length_cons]
    omega

theorem length_le_escapeLines (quotes : Nat) (text : List Char) :
    text.length ≤ (escapeLines quotes text).length := by
  induction text generalizing quotes with
  | nil => exact Nat.le_refl 0
  | cons c text ih =>
    have some := length_escapeChar_pos c
    have rest := ih 0
    have next := ih (quotes + 1)
    rw [escapeLines]
    split
    · split
      · simp only [List.length_cons]
        omega
      · simp only [List.length_cons, List.length_append]
        omega
    · split <;> simp only [List.length_cons, List.length_append, List.length_nil] <;> omega

/-- Only a text with a line break has one right after its quotes. -/
theorem lineBreak?_escapeLines {quotes : Nat} (whole : '\n' ∉ text) (rest : List Char) :
    lineBreak? (escapeLines quotes text ++ '"' :: rest) = none := by
  cases text with
  | nil => rfl
  | cons c text =>
    have notFeed : c ≠ '\n' := fun feed => whole (feed ▸ List.mem_cons_self)
    have first : ∃ d more, escapeLines quotes (c :: text) = d :: more ∧ d ≠ '\n' ∧ d ≠ '\r' := by
      rw [escapeLines, if_neg notFeed]
      split
      · next isQuote =>
        split
        · exact ⟨c, _, rfl, by rw [isQuote]; decide, by rw [isQuote]; decide⟩
        · rw [isQuote]
          exact ⟨'\\', _, rfl, by decide, by decide⟩
      · rcases escapeChar_cases c with ⟨self, plain, -⟩ | ⟨d, code, written, -⟩
        · rw [self]
          exact ⟨c, _, rfl, ne_break_of_isPlain plain⟩
        · rw [written]
          exact ⟨'\\', _, rfl, by decide, by decide⟩
    obtain ⟨d, more, written, notFeed, notReturn⟩ := first
    rw [written, List.cons_append]
    exact lineBreak?_cons notFeed notReturn _

theorem lineBreak?_literal (plain : ∀ c ∈ text, isPlain c ∨ c = '\n') (whole : '\n' ∉ text)
    (rest : List Char) : lineBreak? (text ++ '\'' :: rest) = none := by
  cases text with
  | nil => rfl
  | cons c text =>
    rw [List.mem_cons, not_or] at whole
    have plain := (plain c List.mem_cons_self).resolve_right (Ne.symm whole.1)
    exact lineBreak?_cons (ne_break_of_isPlain plain).1 (ne_break_of_isPlain plain).2 _

theorem readString_basic {rest : List Char} (h : ∀ more, rest ≠ '"' :: '"' :: more) :
    readString ('"' :: rest) = readBasic (rest.length + 1) rest := by
  unfold readString
  split
  · next more e => exact absurd (List.cons.inj e).2 (h more)
  · next e => cases e
  · next e => cases e; rfl
  · next e => cases e
  · next none _ => exact (none rest rfl).elim

theorem readString_literal {rest : List Char} (h : ∀ more, rest ≠ '\'' :: '\'' :: more) :
    readString ('\'' :: rest) = readLiteral rest := by
  unfold readString
  split
  · next e => cases e
  · next more e => exact absurd (List.cons.inj e).2 (h more)
  · next e => cases e
  · next e => cases e; rfl
  · next none => exact (none rest rfl).elim

/-- What follows an opening quote does not begin with two more, if none comes after the closing one. -/
theorem basic_ne_quotes (text : List Char) {after : List Char} (ends : after.head? ≠ some '"')
    (more : List Char) : text.flatMap escapeChar ++ '"' :: after ≠ '"' :: '"' :: more := by
  intro e
  cases text with
  | nil =>
    obtain rfl := (List.cons.inj e).2
    exact ends rfl
  | cons c text =>
    rw [List.flatMap_cons] at e
    rcases escapeChar_cases c with ⟨self, -, other, -⟩ | ⟨first, code, written, -⟩
    · rw [self] at e
      exact other (List.cons.inj e).1
    · rw [written] at e
      exact absurd (List.cons.inj e).1 (by decide)

theorem literal_ne_quotes (bare : '\'' ∉ text) (ends : after.head? ≠ some '\'')
    (more : List Char) : text ++ '\'' :: after ≠ '\'' :: '\'' :: more := by
  intro e
  cases text with
  | nil =>
    obtain rfl := (List.cons.inj e).2
    exact ends rfl
  | cons c text => exact bare ((List.cons.inj e).1 ▸ List.mem_cons_self)

/-- What follows three quotes is read as lines, without the line break after them. -/
theorem readString_lines {quote : Char} (h : quote = '"' ∨ quote = '\'') {body : List Char}
    (stays : '\n' ∉ text → lineBreak? body = none) :
    readString (quote :: quote :: quote :: (opening text ++ body)) =
      readLines quote (body.length + 1) body := by
  have opened := opening_append body stays
  rcases h with rfl | rfl <;> rw [readString, opened]

/-- A text is read from its quotes as it was, if no quote comes after it. -/
theorem readString_quote (text : List Char) {after : List Char} (double : after.head? ≠ some '"')
    (single : after.head? ≠ some '\'') : readString (quote text ++ after) = some (text, after) := by
  have allowed := Quotes.allow_ofText text
  unfold quote
  cases chosen : Quotes.ofText text with
  | basic =>
    have enough : text.length < (text.flatMap escapeChar ++ '"' :: after).length + 1 := by
      have := length_le_flatMap text
      rw [List.length_append]
      omega
    simp only [List.cons_append, List.append_assoc, List.nil_append]
    rw [readString_basic (basic_ne_quotes text double), readBasic_flatMap enough]
  | literal =>
    rw [chosen] at allowed
    obtain ⟨plain, bare⟩ := allowed
    simp only [List.cons_append, List.append_assoc, List.nil_append]
    rw [readString_literal (literal_ne_quotes bare single), readLiteral_append plain bare]
  | basicLines =>
    have enough : text.length < (escapeLines 0 text ++ ['"', '"', '"'] ++ after).length + 1 := by
      have := length_le_escapeLines 0 text
      simp only [List.length_append]
      omega
    have stays (whole : '\n' ∉ text) :
        lineBreak? (escapeLines 0 text ++ ['"', '"', '"'] ++ after) = none := by
      rw [List.append_assoc]
      exact lineBreak?_escapeLines whole _
    have read := readString_lines (.inl rfl) stays
    rw [readLines_escapeLines (Nat.zero_le 2) enough double] at read
    simpa only [List.append_assoc, List.cons_append, List.nil_append] using read
  | literalLines =>
    rw [chosen] at allowed
    obtain ⟨plain, few⟩ := allowed
    have enough : text.length < (text ++ ['\'', '\'', '\''] ++ after).length + 1 := by
      simp only [List.length_append]
      omega
    have stays (whole : '\n' ∉ text) :
        lineBreak? (text ++ ['\'', '\'', '\''] ++ after) = none := by
      rw [List.append_assoc]
      exact lineBreak?_literal plain whole _
    have read := readString_lines (.inr rfl) stays
    rw [readLines_literal plain few enough single] at read
    simpa only [List.append_assoc, List.cons_append, List.nil_append] using read

end ScriptTree.Toml
