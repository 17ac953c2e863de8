import ScriptTree.Proofs.TomlStrings

/-!
# TOML documents read back

The document of a configuration is read as the tree that it was written from
(`parse?_renderConfig?`), line after line: a header opens a table, a pair adds a value to it, and a
list of texts may take several lines. What ends a value, a comma, a bracket or a line break, is no
quote, so texts end where they were meant to.
-/
namespace ScriptTree.Toml

variable {c : Char} {text after rest : List Char} {name : List Char} {value : Toml} {t : Toml}
  {current : KeyPath} {fuel : Nat}

/-! ## What says something -/

/-- Whether a character neither is blank nor starts a comment. -/
def isSolid (c : Char) : Bool :=
  !isGap c && c != '#' && c != '\n' && c != '\r'

theorem skipGap_solid (h : isSolid c) (rest : List Char) : skipGap (c :: rest) = c :: rest := by
  rw [isSolid, Bool.and_eq_true, Bool.and_eq_true, Bool.and_eq_true] at h
  exact List.dropWhile_cons_of_neg (by simpa using h.1.1.1)

theorem skipComment?_solid (h : isSolid c) (rest : List Char) :
    skipComment? (c :: rest) = some (c :: rest) := by
  unfold skipComment?
  split
  · next e =>
    cases e
    exact absurd h (by decide)
  · rfl

theorem lineBreak?_solid (h : isSolid c) (rest : List Char) : lineBreak? (c :: rest) = none := by
  refine lineBreak?_cons ?_ ?_ rest <;> rintro rfl <;> exact absurd h (by decide)

theorem skipLines_solid (h : isSolid c) (fuel : Nat) (rest : List Char) :
    skipLines fuel (c :: rest) = some (c :: rest) := by
  cases fuel with
  | zero => rfl
  | succ fuel =>
    rw [skipLines, skipGap_solid h, skipComment?_solid h, Option.bind_eq_bind, Option.bind_some,
      lineBreak?_solid h]

theorem skipLines_gap (h : skipGap text = c :: rest) (solid : isSolid c) (fuel : Nat) :
    skipLines (fuel + 1) text = some (c :: rest) := by
  have other := skipLines_solid solid (fuel + 1) rest
  rw [skipLines, skipGap_solid solid, ← h] at other
  rw [skipLines, other, h]

theorem skipLines_break (fuel : Nat) (rest : List Char) :
    skipLines (fuel + 1) ('\n' :: rest) = skipLines fuel rest :=
  rfl

/-- At the end of a line nothing is skipped but its break. -/
theorem endLine?_break (rest : List Char) : endLine? ('\n' :: rest) = some rest :=
  rfl

/-! ## Values -/

/-- What may end a value: a bracket, a comma or a line break. -/
def EndsValue (after : List Char) : Prop :=
  ∃ c rest, after = c :: rest ∧ (c = ']' ∨ c = ',' ∨ c = '\n')

/-- A value is read from a text up to where it ends, at any level but the deepest. -/
structure Spells (written : List Char) (value : Toml) : Prop where
  solid : ∃ c rest, written = c :: rest ∧ isSolid c ∧ c ≠ ']'
  read : ∀ depth after, EndsValue after →
    readValue (depth + 2) (written ++ after) = some (value, after)

theorem EndsValue.head? (h : EndsValue after) :
    after.head? ≠ some '"' ∧ after.head? ≠ some '\'' := by
  obtain ⟨c, rest, rfl, rfl | rfl | rfl⟩ := h <;> exact ⟨by simp, by simp⟩

theorem quote_cons (text : List Char) :
    ∃ c rest, quote text = c :: rest ∧ (c = '"' ∨ c = '\'') := by
  unfold quote
  split
  · exact ⟨_, _, rfl, .inl rfl⟩
  · exact ⟨_, _, rfl, .inr rfl⟩
  · exact ⟨_, _, rfl, .inl rfl⟩
  · exact ⟨_, _, rfl, .inr rfl⟩

theorem readValue_quote (text : List Char) (ends : EndsValue after) (depth : Nat) :
    readValue (depth + 1) (quote text ++ after) = some (.string text, after) := by
  have read := readString_quote text ends.head?.1 ends.head?.2
  obtain ⟨c, rest, written, rfl | rfl⟩ := quote_cons text
  · rw [written, List.cons_append] at read ⊢
    rw [readValue, read, Option.map_some]
    exact Nat.succ_ne_zero depth
  · rw [written, List.cons_append] at read ⊢
    rw [readValue, read, Option.map_some]
    exact Nat.succ_ne_zero depth

theorem spells_quote (text : List Char) : Spells (quote text) (.string text) where
  solid := by
    obtain ⟨c, rest, written, rfl | rfl⟩ := quote_cons text
    · exact ⟨_, rest, written, by decide, by decide⟩
    · exact ⟨_, rest, written, by decide, by decide⟩
  read depth _ ends := readValue_quote text ends (depth + 1)

/-! ### Lists of texts -/

/-- Before the first item of a list and after a comma lines are skipped. -/
theorem readItems_bracket (item : Reader Toml) (fuel : Nat) {lines : List Char}
    (start : skipLines lines.length lines = some (']' :: after)) :
    readItems item (fuel + 1) lines = some ([], after) := by
  rw [readItems, start]
  rfl

theorem readItems_cons {item : Reader Toml} {lines : List Char} (open' : c ≠ ']')
    (start : skipLines lines.length lines = some (c :: text))
    (read : item (c :: text) = some (value, ',' :: rest)) :
    readItems item (fuel + 1) lines =
      (readItems item fuel rest).map fun (values, rest) => (value :: values, rest) := by
  rw [readItems, start, Option.bind_eq_bind, Option.bind_some]
  split
  · next e => exact absurd (List.cons.inj e).1 open'
  · have comma := skipLines_solid (c := ',') (by decide) (',' :: rest).length rest
    simp only [read, Option.bind_eq_bind, Option.bind_some, comma]
    cases readItems item fuel rest <;> rfl

theorem readItems_last {item : Reader Toml} (h : isSolid c) (open' : c ≠ ']')
    (read : item (c :: text) = some (value, ']' :: rest)) :
    readItems item (fuel + 1) (c :: text) = some ([value], rest) := by
  rw [readItems, skipLines_solid h, Option.bind_eq_bind, Option.bind_some]
  split
  · next e => exact absurd (List.cons.inj e).1 open'
  · have bracket := skipLines_solid (c := ']') (by decide) (']' :: rest).length rest
    simp only [read, Option.bind_eq_bind, Option.bind_some, bracket]
    rfl

/-- A line of a list: a text and a comma after four spaces. -/
def itemLine (text : List Char) : List Char :=
  "    ".toList ++ quote text ++ [',', '\n']

theorem readItems_lines (depth : Nat) (texts : List (List Char)) (after : List Char)
    (h : texts.length < fuel) :
    readItems (readValue (depth + 1)) fuel ('\n' :: (texts.flatMap itemLine ++ ']' :: after)) =
      some (texts.map .string, after) := by
  induction texts generalizing fuel with
  | nil =>
    cases fuel with
    | zero => cases h
    | succ fuel => exact readItems_bracket _ fuel rfl
  | cons text texts ih =>
    cases fuel with
    | zero => cases h
    | succ fuel =>
      let rest := '\n' :: (texts.flatMap itemLine ++ ']' :: after)
      obtain ⟨c, more, written, solid, open'⟩ := (spells_quote text).solid
      have lines : '\n' :: ((text :: texts).flatMap itemLine ++ ']' :: after) =
          '\n' :: ("    ".toList ++ (c :: (more ++ ',' :: rest))) := by
        rw [List.flatMap_cons, itemLine, written]
        simp [rest]
      have start (n : Nat) : skipLines (n + 2) ('\n' :: ("    ".toList ++ (c :: (more ++ ',' :: rest))))
          = some (c :: (more ++ ',' :: rest)) := by
        rw [skipLines_break]
        have gap : skipGap ("    ".toList ++ (c :: (more ++ ',' :: rest))) =
            c :: (more ++ ',' :: rest) := skipGap_solid solid _
        exact skipLines_gap gap solid n
      have read : readValue (depth + 1) (c :: (more ++ ',' :: rest)) =
          some (.string text, ',' :: rest) := by
        rw [← List.cons_append, ← written]
        exact readValue_quote text ⟨_, _, rfl, .inr (.inl rfl)⟩ depth
      rw [lines, readItems_cons open' (start _) read, ih (Nat.lt_of_succ_lt_succ h)]
      rfl

theorem length_le_itemLines (texts : List (List Char)) :
    texts.length ≤ (texts.flatMap itemLine).length := by
  induction texts with
  | nil => exact Nat.le_refl 0
  | cons text texts ih =>
    rw [List.flatMap_cons, List.length_append, List.length_cons, itemLine, List.length_append]
    simp only [List.length_cons, List.length_nil]
    omega

/-- The value of a list of texts. -/
def ofTexts (texts : List (List Char)) : Toml :=
  .list (texts.map .string)

theorem spells_renderTexts (texts : List (List Char)) :
    Spells (renderTexts texts) (ofTexts texts) := by
  have bracket (rest : List Char) (depth : Nat) {items : List Toml} {after : List Char}
      (read : readItems (readValue (depth + 1)) (rest.length + 1) rest = some (items, after)) :
      readValue (depth + 2) ('[' :: rest) = some (.list items, after) := by
    rw [readValue, read]
    rfl
  match texts with
  | [] =>
    refine ⟨⟨_, _, rfl, by decide, by decide⟩, fun depth after ends => ?_⟩
    refine bracket (']' :: after) depth (readItems_bracket _ _ ?_)
    exact skipLines_solid (by decide) _ _
  | [text] =>
    refine ⟨⟨_, _, rfl, by decide, by decide⟩, fun depth after ends => ?_⟩
    obtain ⟨c, more, written, solid, open'⟩ := (spells_quote text).solid
    have read : readValue (depth + 1) (quote text ++ ']' :: after) =
        some (.string text, ']' :: after) :=
      readValue_quote text ⟨_, _, rfl, .inl rfl⟩ depth
    have line : renderTexts [text] ++ after = '[' :: (quote text ++ ']' :: after) := by
      simp [renderTexts]
    rw [line]
    refine bracket _ depth ?_
    rw [written, List.cons_append] at read ⊢
    exact readItems_last solid open' read
  | first :: second :: others =>
    refine ⟨⟨_, _, rfl, by decide, by decide⟩, fun depth after ends => ?_⟩
    let texts := first :: second :: others
    have lines : renderTexts texts ++ after =
        '[' :: '\n' :: (texts.flatMap itemLine ++ ']' :: after) := by
      have own : renderTexts texts = '[' :: '\n' :: texts.flatMap itemLine ++ [']'] := rfl
      rw [own]
      simp
    have longer : (texts.flatMap itemLine).length ≤
        ('\n' :: (texts.flatMap itemLine ++ ']' :: after)).length := by
      rw [List.length_cons, List.length_append]
      omega
    rw [lines]
    refine bracket _ depth (readItems_lines depth texts after ?_)
    exact Nat.lt_succ_of_le (Nat.le_trans (length_le_itemLines texts) longer)

/-! ## Lines -/

/-- Whether a text may stand as a key without quotes. -/
def isBareKey (name : List Char) : Bool :=
  !name.isEmpty && name.all isKeyChar

theorem isSolid_of_isKeyChar (h : isKeyChar c) : isSolid c := by
  have other (d : Char) (hd : isKeyChar d = false) : c ≠ d := by
    rintro rfl
    rw [hd] at h
    cases h
  simp [isSolid, isGap, other ' ' (by decide), other '\t' (by decide), other '#' (by decide),
    other '\n' (by decide), other '\r' (by decide)]

theorem cons_of_isBareKey (h : isBareKey name) :
    (∀ c ∈ name, isKeyChar c) ∧
      ∃ c more, name = c :: more ∧ isKeyChar c ∧ ∀ d, isKeyChar d = false → c ≠ d := by
  rw [isBareKey, Bool.and_eq_true, List.all_eq_true] at h
  refine ⟨h.2, ?_⟩
  cases name with
  | nil => cases h.1
  | cons c more =>
    have key := h.2 c List.mem_cons_self
    refine ⟨c, more, rfl, key, ?_⟩
    rintro d other rfl
    rw [other] at key
    cases key

theorem readName_bare (h : isBareKey name) (ends : ∀ c ∈ rest.head?, isKeyChar c = false) :
    readName (name ++ rest) = some (name, rest) := by
  obtain ⟨chars, c, more, start, -, other⟩ := cons_of_isBareKey h
  have key : (name ++ rest).takeWhile isKeyChar = name := by
    rw [List.takeWhile_append_of_pos chars]
    cases rest with
    | nil => simp
    | cons c rest => simp [ends c rfl]
  subst start
  unfold readName
  split
  · next e => exact absurd (List.cons.inj e).1 (other _ (by decide))
  · next e => exact absurd (List.cons.inj e).1 (other _ (by decide))
  · rw [key]
    simp

theorem readKey_bare (h : isBareKey name) (ends : ∀ c ∈ rest.head?, isKeyChar c = false)
    (single : (skipGap rest).head? ≠ some '.') (fuel : Nat) :
    readKey (fuel + 1) (name ++ rest) = some ([name], skipGap rest) := by
  have start : skipGap (name ++ rest) = name ++ rest := by
    obtain ⟨-, c, more, rfl, key, -⟩ := cons_of_isBareKey h
    exact skipGap_solid (isSolid_of_isKeyChar key) _
  rw [readKey, start, readName_bare h ends]
  simp only [Option.bind_eq_bind, Option.bind_some]
  split
  · next e =>
    rw [e] at single
    exact absurd rfl single
  · rfl

theorem readHeader_bare (h : isBareKey name) (rest : List Char) :
    readHeader (name ++ ']' :: rest) = some ([name], false, rest) := by
  have bracket : skipGap (']' :: rest) = ']' :: rest := skipGap_solid (by decide) rest
  have ends : ∀ c ∈ (']' :: rest).head?, isKeyChar c = false := by
    simp
    decide
  have key := readKey_bare h ends (by rw [bracket]; simp) (name ++ ']' :: rest).length
  rw [bracket] at key
  obtain ⟨-, c, more, rfl, -, other⟩ := cons_of_isBareKey h
  unfold readHeader
  split
  · next e => exact absurd (List.cons.inj e).1 (other _ (by decide))
  · rw [key]
    rfl

/-- A header opens the table of its name. -/
theorem readBody_header (h : isBareKey name) :
    readBody (fuel + 1) current t ('[' :: (name ++ ']' :: '\n' :: rest)) =
      (openTable [name] false t).bind fun t => readBody fuel [name] t rest := by
  rw [readBody, skipLines_solid (by decide)]
  simp only [Option.bind_eq_bind, Option.bind_some, readHeader_bare h, endLine?_break]

/-- A pair adds its value to the table of the last header. -/
theorem readBody_pair {name : String} {written : List Char} (h : isBareKey name.toList)
    (spells : Spells written value) :
    readBody (fuel + 1) current t (pair name written ++ rest) =
      (t.within false (·.add [name.toList] value) current).bind fun t =>
        readBody fuel current t rest := by
  have read : readValue depthLimit (written ++ '\n' :: rest) = some (value, '\n' :: rest) :=
    spells.read 78 _ ⟨_, _, rfl, .inr (.inr rfl)⟩
  obtain ⟨v, tail, starts, solid, -⟩ := spells.solid
  let assigned := " = ".toList ++ (written ++ '\n' :: rest)
  have line : pair name written ++ rest = name.toList ++ assigned := by
    simp [pair, assigned]
  have gap : skipGap assigned = '=' :: ' ' :: (written ++ '\n' :: rest) := rfl
  have ends : ∀ c ∈ assigned.head?, isKeyChar c = false := by
    simp [assigned]
    decide
  have key := readKey_bare h ends (by rw [gap]; simp) (name.toList ++ assigned).length
  have skipped : skipGap (' ' :: (written ++ '\n' :: rest)) = written ++ '\n' :: rest := by
    rw [starts]
    exact skipGap_solid solid _
  have both : readAssigned (name.toList ++ assigned) =
      some ([name.toList], written ++ '\n' :: rest) := by
    rw [readAssigned, key, gap]
    simp only [Option.bind_eq_bind, Option.bind_some, skipped]
    rfl
  obtain ⟨-, c, more, starts, isKey, other⟩ := cons_of_isBareKey h
  have first : isSolid c := isSolid_of_isKeyChar isKey
  rw [line, readBody]
  rw [starts, List.cons_append] at both ⊢
  rw [skipLines_solid first]
  simp only [Option.bind_eq_bind, Option.bind_some]
  split
  · next e => cases e
  · next e => exact absurd (List.cons.inj e).1 (other _ (by decide))
  · rw [both]
    simp only [Option.bind_some, read, endLine?_break]

/-- A blank line says nothing. -/
theorem readBody_break (rest : List Char) :
    readBody fuel current t ('\n' :: rest) = readBody fuel current t rest := by
  cases fuel with
  | zero => rfl
  | succ fuel =>
    have blank : skipLines ('\n' :: rest).length ('\n' :: rest) = skipLines rest.length rest :=
      skipLines_break _ _
    rw [readBody, readBody, blank]

/-! ## Documents -/

/-- The tree of a configuration whose context directory is a text. -/
def ofConfig (c : Config) (context : Option (List Char)) : Toml :=
  let search := [("privileged".toList, ofTexts c.search.privileged),
    ("fallback".toList, ofTexts c.search.fallback)]
  let here := context.toList.map fun text => ("context_dir".toList, .string text)
  .table false false [("resolver".toList, .table false false (search ++ here)),
    ("ast".toList, .table false false [("catch_handlers".toList, .string c.style.name.toList)])]

/-- The settings of the search are read up to the context directory. -/
theorem readBody_search (privileged fallback : List (List Char)) (rest : List Char) :
    readBody (fuel + 3) [] empty ("[resolver]\n".toList ++
        (pair "privileged" (renderTexts privileged) ++
          (pair "fallback" (renderTexts fallback) ++ rest))) =
      readBody fuel ["resolver".toList] (.table false false [("resolver".toList,
        .table false false [("privileged".toList, ofTexts privileged),
          ("fallback".toList, ofTexts fallback)])]) rest := by
  have bare : isBareKey "resolver".toList := by decide
  refine (readBody_header bare).trans ?_
  refine (readBody_pair (by decide) (spells_renderTexts privileged)).trans ?_
  exact readBody_pair (by decide) (spells_renderTexts fallback)

/-- The settings of syntax trees are read after those of the search. -/
theorem readBody_ast (members : List (List Char × Toml)) (style : List Char) :
    readBody (fuel + 3) ["resolver".toList]
        (.table false false [("resolver".toList, .table false false members)])
        ("\n[ast]\n".toList ++ pair "catch_handlers" (quote style)) =
      some (.table false false [("resolver".toList, .table false false members),
        ("ast".toList, .table false false [("catch_handlers".toList, .string style)])]) := by
  refine (readBody_break _).trans ?_
  have bare : isBareKey "ast".toList := by decide
  refine (readBody_header bare).trans ?_
  have line : pair "catch_handlers" (quote style) = pair "catch_handlers" (quote style) ++ [] :=
    (List.append_nil _).symm
  rw [line]
  exact readBody_pair (by decide) (spells_quote style)

/-- The document of a configuration is read as its tree. -/
theorem parse?_renderConfig? {c : Config} {written : List Char}
    (h : renderConfig? c = some written) :
    ∃ context : Option (List Char), c.search.context = context.map Path.ofText ∧
      parse? written = some (ofConfig c context) := by
  obtain ⟨line, found, rfl⟩ := Option.map_eq_some_iff.1 h
  let members := [("privileged".toList, ofTexts c.search.privileged),
    ("fallback".toList, ofTexts c.search.fallback)]
  let document (line : List Char) : List Char := "[resolver]\n".toList ++
    (pair "privileged" (renderTexts c.search.privileged) ++
      (pair "fallback" (renderTexts c.search.fallback) ++
        (line ++ ("\n[ast]\n".toList ++ pair "catch_handlers" (quote c.style.name.toList)))))
  have written : "[resolver]\n".toList ++ pair "privileged" (renderTexts c.search.privileged) ++
      pair "fallback" (renderTexts c.search.fallback) ++ line ++ "\n[ast]\n".toList ++
      pair "catch_handlers" (quote c.style.name.toList) = document line := by
    simp only [document, List.append_assoc]
  obtain ⟨fuel, enough⟩ : ∃ fuel, (document line).length + 1 = fuel + 7 := by
    refine ⟨(document line).length - 6, ?_⟩
    have : 11 ≤ (document line).length := by
      rw [List.length_append]
      exact Nat.le_add_right 11 _
    omega
  have parsed : parse? (document line) = readBody (fuel + 7) [] empty (document line) := by
    rw [← enough]
    rfl
  rw [written, parsed]
  cases path : c.search.context with
  | none =>
    rw [path] at found
    cases found
    refine ⟨none, rfl, ?_⟩
    exact (readBody_search _ _ _).trans (readBody_ast members c.style.name.toList)
  | some directory =>
    rw [path] at found
    obtain ⟨text, decoded, rfl⟩ := Option.map_eq_some_iff.1 found
    refine ⟨some text, congrArg some ?_, ?_⟩
    · exact congrArg Path.mk (Utf8.decode?_eq_some.1 decoded)
    · refine (readBody_search _ _ _).trans ?_
      refine (readBody_pair (by decide) (spells_quote text)).trans ?_
      exact readBody_ast (members ++ [("context_dir".toList, .string text)]) c.style.name.toList

end ScriptTree.Toml
