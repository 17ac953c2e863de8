import ScriptTree.Proofs.BareNames
import ScriptTree.Proofs.Lookups

/-!
# Relative names

What a name means below the base of a directory. A name that may stand in a URL is joined to the URL
of the base, and any other is taken as a path. As a path it names what the directory and the name
write together. In the URL two dots take back the segment before them, whatever it says, so the name
means the same if what is taken back is a name each time (`Path.Retraces`), as below a directory
whose names are all firm (`Path.Retraces.of_firm`). It need not be: a base may have two dots in its
own path (`climbing_past_dots`).
-/
namespace ScriptTree

namespace Path

/-! ## Following names -/

/-- The parts that say something. -/
def said (parts : List (List UInt8)) : List (List UInt8) :=
  parts.filter fun part => !isVacant part

theorem follow_dots (place names : List (List UInt8)) :
    follow place ([dot, dot] :: names) = follow place.dropLast names := by
  rw [follow, List.foldl_cons, if_pos rfl]
  rfl

theorem said_append (parts others : List (List UInt8)) :
    said (parts ++ others) = said parts ++ said others :=
  List.filter_append parts others

/-- A part that two dots take back in a path and in a URL alike: a name that does not read as a
drive. -/
structure Firm (part : List UInt8) : Prop where
  notVacant : isVacant part = false
  noStep : part ≠ [dot, dot]
  noDrive : Url.endsInDrive (slash :: part) = false

/-- Along parts from a place, two dots take back nothing but what is firm. -/
def Retraces : List (List UInt8) → List (List UInt8) → Prop
  | _, [] => True
  | place, part :: rest =>
    if part = [dot, dot] then
      (∀ last ∈ place.getLast?, Firm last) ∧ Retraces place.dropLast rest
    else if part = [dot] then Retraces place rest
    else Retraces (place ++ [part]) rest

instance (part : List UInt8) : Decidable (Firm part) :=
  decidable_of_iff
    (isVacant part = false ∧ part ≠ [dot, dot] ∧ Url.endsInDrive (slash :: part) = false)
    ⟨fun ⟨notVacant, noStep, noDrive⟩ => ⟨notVacant, noStep, noDrive⟩,
      fun firm => ⟨firm.notVacant, firm.noStep, firm.noDrive⟩⟩

instance decidableRetraces : (place parts : List (List UInt8)) → Decidable (Retraces place parts)
  | _, [] => .isTrue trivial
  | place, part :: rest =>
    have := decidableRetraces place.dropLast rest
    have := decidableRetraces place rest
    have := decidableRetraces (place ++ [part]) rest
    inferInstanceAs (Decidable (if part = [dot, dot] then
        (∀ last ∈ place.getLast?, Firm last) ∧ Retraces place.dropLast rest
      else if part = [dot] then Retraces place rest
      else Retraces (place ++ [part]) rest))

/-- Where all names are firm, nothing else can be taken back. -/
theorem Retraces.of_firm {place parts : List (List UInt8)} (firm : ∀ part ∈ place, Firm part)
    (h : ∀ part ∈ parts, part = [dot, dot] ∨ part = [dot] ∨ Firm part) : Retraces place parts := by
  induction parts generalizing place with
  | nil => trivial
  | cons part rest ih =>
    have later := fun part hp => h part (List.mem_cons_of_mem _ hp)
    rw [Retraces]
    split
    · exact ⟨fun last hl => firm last (List.mem_of_getLast? hl),
        ih (fun part hp => firm part (place.dropLast_sublist.subset hp)) later⟩
    · next noStep =>
      split
      · exact ih firm later
      · next noDot =>
        have own := ((h part List.mem_cons_self).resolve_left noStep).resolve_left noDot
        refine ih (fun other ho => ?_) later
        rcases List.mem_append.1 ho with ho | ho
        · exact firm other ho
        · exact List.mem_singleton.1 ho ▸ own

/-! ## Texts as paths -/

theorem isAbsolute_ofText (text : List Char) :
    (ofText text).isAbsolute = (text.head? == some '/') := by
  cases text with
  | nil => rfl
  | cons c text =>
    obtain ⟨b, octets, hc⟩ := List.exists_cons_of_ne_nil (Percent.encodeChar_ne_nil c)
    have first : (ofText (c :: text)).octets.head? = some b := by
      rw [ofText, Utf8.encode, List.flatMap_cons, hc]
      rfl
    rw [isAbsolute, first, List.head?_cons, Bool.eq_iff_iff, beq_iff_eq, beq_iff_eq,
      Option.some.injEq, Option.some.injEq]
    constructor
    · rintro rfl
      have same : slash.toNat = c.toNat :=
        Utf8.toNat_of_mem_encodeChar (by decide) (hc ▸ List.mem_cons_self)
      have char : slash.toNat = '/'.toNat := by decide
      exact Char.toNat_inj.1 (same.symm.trans char)
    · rintro rfl
      have slash : Utf8.encodeChar '/' = [slash] := by decide
      exact (List.cons.inj (hc.symm.trans slash)).1

/-- The text of an absolute path starts with a slash, also with a suffix. -/
theorem isAbsolute_withScriptSuffix {p : Path} (h : p.isAbsolute) :
    (ofText (withScriptSuffix p.toText)).isAbsolute := by
  obtain ⟨rest, hrest⟩ := octets_of_isAbsolute h
  have ascii : slash.toNat < 0x80 := by decide
  have char : Char.ofNat slash.toNat = '/' := by decide
  have empty : Utf8.decodeLossy [] = [] := by rw [Utf8.decodeLossy, Utf8.scan, List.map_nil]
  have text : p.toText = '/' :: Utf8.decodeLossy rest := by
    have read := Utf8.decodeLossy_append ascii [] rest
    rw [char, empty] at read
    rw [toText, hrest]
    exact read
  rw [isAbsolute_ofText, withScriptSuffix, text]
  split <;> rfl

end Path

namespace Url

open ScriptTree.Path (follow said Retraces)

/-! ## Going down from a directory -/

variable {names segments : List (List Char)}

/-- A slash after dots at the end adds nothing that is said. -/
theorem said_descend_closed (p : Prop) [Decidable p] (scheme : List Char)
    (next rest : List (List Char)) :
    said ((descend scheme (if rest = [] ∧ p then next ++ [[]] else next) rest).map Percent.decode) =
      said ((descend scheme next rest).map Percent.decode) := by
  split
  · next closed =>
    have empty : said [Percent.decode []] = [] := by decide
    rw [closed.1, descend, descend, List.map_append, List.map_singleton, Path.said_append, empty,
      List.append_nil]
  · rfl

/-- A letter with the mark of a drive reads as a drive also when it is decoded. -/
theorem endsInDrive_decode {c mark : Char} (letter : c.isAlpha) (hm : mark = ':' ∨ mark = '|') :
    endsInDrive (Path.slash :: Percent.decode [c, mark]) = true := by
  have ascii : c.toNat < 0x80 := isAlphanum_ascii (by simp [Char.isAlphanum, letter])
  have percent : ¬Percent.HasCode [c, mark] := by
    refine Percent.not_hasCode_of_notMem ?_
    rw [List.mem_cons, List.mem_singleton, not_or]
    refine ⟨?_, ?_⟩
    · rintro rfl
      exact absurd letter (by decide)
    · rintro rfl
      exact absurd hm (by decide)
  have code : Utf8.encode [c, mark] = UInt8.ofNat c.toNat :: Utf8.encode [mark] := by
    rw [Utf8.encode, List.flatMap_cons, Utf8.encodeChar_ascii ascii]
    rfl
  have back := Utf8.toNat_ofNat_ascii ascii
  rw [Percent.decode_eq_encode percent, code]
  rcases hm with rfl | rfl
  · have colon : Utf8.encode [':'] = [0x3A] := by decide
    simp [endsInDrive, colon, back, letter, ascii, Char.ofNat_toNat]
  · have bar : Utf8.encode ['|'] = [0x7C] := by decide
    simp [endsInDrive, bar, back, letter, ascii, Char.ofNat_toNat]

theorem isDrive_eq_false_of_firm {segment : List Char} (h : Path.Firm (Percent.decode segment)) :
    isDrive segment = false := by
  refine Bool.eq_false_iff.2 fun drive => ?_
  unfold isDrive at drive
  split at drive
  · next c mark =>
    rw [Bool.and_eq_true, Bool.or_eq_true, beq_iff_eq, beq_iff_eq] at drive
    exact absurd (endsInDrive_decode drive.1 drive.2) (Bool.eq_false_iff.1 h.noDrive)
  · cases drive

/-- Two dots take back a firm name. -/
theorem ascend_eq_dropLast
    (h : ∀ last ∈ (segments.map Percent.decode).getLast?, Path.Firm last) :
    ascend segments = segments.dropLast := by
  rw [List.getLast?_map] at h
  unfold ascend
  cases last : segments.getLast? with
  | none => simp [List.getLast?_eq_none_iff.1 last]
  | some segment =>
    have firm := h (Percent.decode segment) (by rw [last]; rfl)
    simp only [isDrive_eq_false_of_firm firm, Bool.false_eq_true, if_false]

theorem follow_dropLast
    (h : ∀ last ∈ (segments.map Percent.decode).getLast?, Path.Firm last) :
    follow [] (said (segments.dropLast.map Percent.decode)) =
      (follow [] (said (segments.map Percent.decode))).dropLast := by
  rcases List.eq_nil_or_concat segments with rfl | ⟨init, last, rfl⟩
  · rfl
  · have firm : Path.Firm (Percent.decode last) := h _ (by simp)
    have name : said [Percent.decode last] = [Percent.decode last] := by simp [said, firm.notVacant]
    have step (place : List (List UInt8)) :
        follow place [Percent.decode last] = place ++ [Percent.decode last] := if_neg firm.noStep
    rw [List.concat_eq_append, List.dropLast_concat, List.map_append, List.map_singleton,
      Path.said_append, name, Path.follow_append, step, List.dropLast_concat]

/-- A plain name stays as it is, wherever it is written. -/
theorem writeName_bare {name : List Char} (bare : ∀ c ∈ name, isBareChar c) :
    writeName fileScheme segments name = name := by
  have colon : ':' ∉ name := bare_notMem (by decide) bare
  have bar : '|' ∉ name := bare_notMem (by decide) bare
  rw [writeName, if_neg (by simp [isDrive_of_notMem colon bar]), encode_bare bare]

/-- From segments of a URL, plain names lead where they lead as parts of a path. -/
theorem follow_descend (bare : ∀ name ∈ names, ∀ c ∈ name, isBareChar c)
    (h : Retraces (segments.map Percent.decode) (names.map Utf8.encode)) :
    follow [] (said ((descend fileScheme segments names).map Percent.decode)) =
      follow (follow [] (said (segments.map Percent.decode))) (said (names.map Utf8.encode)) := by
  induction names generalizing segments with
  | nil => rfl
  | cons name rest ih =>
    have later := fun n hn => bare n (List.mem_cons_of_mem _ hn)
    have own := bare name List.mem_cons_self
    have percent : ¬Percent.HasCode name :=
      Percent.not_hasCode_of_notMem (bare_notMem (by decide) own)
    have dots : plainDots name = name := plainDots_eq_self percent
    have split (parts : List (List UInt8)) (part : List UInt8) :
        said (part :: parts) = said [part] ++ said parts := Path.said_append [part] parts
    rw [List.map_cons, Retraces] at h
    rw [descend]
    simp only [dots, said_descend_closed]
    by_cases up : name = ['.', '.']
    · subst up
      have code : Utf8.encode ['.', '.'] = [Path.dot, Path.dot] := by decide
      have step : said [[Path.dot, Path.dot]] = [[Path.dot, Path.dot]] := by decide
      rw [code, if_pos rfl, ← List.map_dropLast] at h
      rw [if_pos rfl, ascend_eq_dropLast h.1, ih later h.2, follow_dropLast h.1, List.map_cons,
        code, split, step, List.singleton_append, Path.follow_dots]
    · have codeUp : Utf8.encode name ≠ [Path.dot, Path.dot] := fun e =>
        up (dots ▸ plainDots_of_decode_dots ((Percent.decode_eq_encode percent).trans e))
      rw [if_neg codeUp] at h
      rw [if_neg up]
      by_cases here : name = ['.']
      · subst here
        have code : Utf8.encode ['.'] = [Path.dot] := by decide
        have nothing : said [[Path.dot]] = [] := by decide
        rw [code, if_pos rfl] at h
        rw [if_pos rfl, ih later h, List.map_cons, code, split, nothing, List.nil_append]
      · have codeHere : Utf8.encode name ≠ [Path.dot] := fun e =>
          here (dots ▸ plainDots_of_decode_dot ((Percent.decode_eq_encode percent).trans e))
        have read : Percent.decode name = Utf8.encode name := Percent.decode_eq_encode percent
        have grown : (segments ++ [name]).map Percent.decode =
            segments.map Percent.decode ++ [Utf8.encode name] := by
          rw [List.map_append, List.map_singleton, read]
        rw [if_neg codeHere, ← grown] at h
        rw [if_neg here, writeName_bare own, ih later h, grown, Path.said_append, Path.follow_append,
          List.map_cons, split (rest.map Utf8.encode) (Utf8.encode name), Path.follow_append]

/-- What is below a directory was there, is empty, or is one of the names. -/
theorem mem_descend_bare (bare : ∀ name ∈ names, ∀ c ∈ name, isBareChar c) {segment : List Char}
    (h : segment ∈ descend fileScheme segments names) :
    segment ∈ segments ∨ segment = [] ∨ segment ∈ names := by
  induction names generalizing segments with
  | nil => exact .inl h
  | cons name rest ih =>
    have next {found : List (List Char)} (sub : found ⊆ segments ++ [name]) (p : Prop)
        [Decidable p] (h : segment ∈ if p then found ++ [[]] else found) :
        segment ∈ segments ∨ segment = [] ∨ segment ∈ name :: rest := by
      have mem : segment ∈ found ∨ segment = [] := by
        split at h
        · simpa using h
        · exact .inl h
      rcases mem with mem | empty
      · rcases List.mem_append.1 (sub mem) with mem | mem
        · exact .inl mem
        · exact .inr (.inr (List.mem_singleton.1 mem ▸ List.mem_cons_self))
      · exact .inr (.inl empty)
    rw [descend] at h
    rcases ih (fun n hn => bare n (List.mem_cons_of_mem _ hn)) h with h | h | h
    · refine next ?_ _ h
      rw [writeName_bare (bare name List.mem_cons_self)]
      split
      · exact List.Subset.trans (ascend_subset segments) (List.subset_append_left _ _)
      · split
        · exact List.subset_append_left _ _
        · exact List.Subset.refl _
    · exact .inr (.inl h)
    · exact .inr (.inr (List.mem_cons_of_mem _ h))

/-- No slash is hidden below a directory that hides none. -/
theorem slash_notMem_descend_bare (bare : ∀ name ∈ names, ∀ c ∈ name, isBareChar c)
    (h : ∀ segment ∈ segments, Path.slash ∉ Percent.decode segment) :
    ∀ segment ∈ descend fileScheme segments names, Path.slash ∉ Percent.decode segment := by
  intro segment mem
  rcases mem_descend_bare bare mem with mem | rfl | mem
  · exact h segment mem
  · exact List.not_mem_nil
  · have percent : '%' ∉ segment := bare_notMem (by decide) (bare segment mem)
    rw [Percent.decode_eq_encode (Percent.not_hasCode_of_notMem percent)]
    exact BareName.slash_notMem_encode (bare segment mem)

/-- Empty segments at the start say nothing. -/
theorem said_dropWhile (found : List (List Char)) :
    said ((found.dropWhile (· == [])).map Percent.decode) = said (found.map Percent.decode) := by
  induction found with
  | nil => rfl
  | cons segment found ih =>
    cases segment with
    | nil =>
      have empty : said [Percent.decode []] = [] := by decide
      rw [List.dropWhile_cons_of_pos rfl, ih, List.map_cons]
      exact (congrArg (· ++ _) empty).symm
    | cons c segment => rw [List.dropWhile_cons_of_neg (by simp)]

/-- The path of a file URL is never empty and says what its names say. -/
theorem pathOf_file (found : List (List Char)) :
    ∃ kept, pathOf fileScheme found = .names kept ∧ kept ≠ [] ∧
      (∀ segment ∈ kept, segment ∈ found ∨ segment = []) ∧
      said (kept.map Percent.decode) = said (found.map Percent.decode) := by
  have path : pathOf fileScheme found = .names
      (if found.dropWhile (· == []) = [] then [[]] else found.dropWhile (· == [])) := rfl
  rw [path, ← said_dropWhile found]
  split
  · next none =>
    refine ⟨[[]], rfl, List.cons_ne_nil _ _,
      fun segment hs => .inr (List.mem_singleton.1 hs), ?_⟩
    rw [none]
    decide
  · next some =>
    exact ⟨_, rfl, some, fun segment hs => .inl ((List.dropWhile_sublist _).subset hs), rfl⟩

/-! ## Joining a plain name -/

/-- The location of a plain name below the URL of a directory. -/
theorem join_plain (directory : Path) {text : List Char} (plain : IsPlainText text) {c : Char}
    {rest : List Char} (start : text = c :: rest) (bare : isBareChar c)
    (h : Retraces directory.names (Path.ofText text).parts) :
    ∃ url path, (ofSegments (fileNames directory ++ [[]])).join text = .ok url ∧
      Module.localPath url = .ok path ∧
      path.lexical = follow directory.lexical (Path.ofText text).names := by
  have pieces (name : List Char) (hn : name ∈ Text.pieces '/' text) : ∀ c ∈ name, isBareChar c :=
    plain.bare_of_mem_pieces hn
  have read := map_decode_fileNames directory
  obtain ⟨kept, path, nonempty, among, same⟩ :=
    pathOf_file (descend fileScheme (fileNames directory) (Text.pieces '/' text))
  have noSlash : ∀ part ∈ kept.map Percent.decode, Path.slash ∉ part := by
    intro part hp
    obtain ⟨segment, hs, rfl⟩ := List.mem_map.1 hp
    rcases among segment hs with mem | rfl
    · refine slash_notMem_descend_bare pieces (fun segment hs => ?_) segment mem
      exact Path.slash_notMem_of_mem_names (read ▸ List.mem_map_of_mem (f := Percent.decode) hs)
    · exact List.not_mem_nil
  refine ⟨ofSegments kept, .ofParts (kept.map Percent.decode), ?_, ?_, ?_⟩
  · rw [join_directory _ (plain.isRelativePath start bare), plain.innerPieces_eq, plain.clean_eq,
      plain.ofText_eq, path]
    rfl
  · simp only [Module.localPath, toFilePath?_ofSegments nonempty]
    rfl
  · have parts := Path.parts_ofText text
    rw [Path.lexical_eq, Path.names_ofParts noSlash]
    show follow [] (said (kept.map Percent.decode)) = _
    rw [same, follow_descend pieces (by rwa [read, ← parts]), read, ← parts]
    show follow (follow [] (directory.names.filter _)) _ = _
    rw [Path.filter_names]
    rfl

end Url

namespace Resolver

open ScriptTree.Path (follow)

variable {d : Disk} {base : SearchBase} {name : List Char}

/-- A name taken as a path is what the directory and the name write together, or the script there. -/
theorem pathLocation?_of_directory {directory : Path} (hd : base.directory? = some directory)
    (relative : name.head? ≠ some '/') :
    let joined := directory.join (.ofText name)
    let script := Path.ofText (withScriptSuffix joined.toText)
    pathLocation? d base name =
      Url.ofFilePath? (if d.isDirectory joined && d.isFile script then script else joined) := by
  have step : (Path.ofText name).isAbsolute = false := by
    rw [Path.isAbsolute_ofText]
    exact beq_eq_false_iff_ne.2 relative
  unfold pathLocation?
  simp only [step, Bool.false_eq_true, if_false, hd, Option.map_some]
  rfl

theorem pathLocation?_eq {directory : Path} (hd : base.directory? = some directory)
    (absolute : directory.isAbsolute) (relative : name.head? ≠ some '/') :
    let joined := directory.join (.ofText name)
    let script := Path.ofText (withScriptSuffix joined.toText)
    let chosen := if d.isDirectory joined && d.isFile script then script else joined
    ∃ url, pathLocation? d base name = some url ∧ Module.localPath url = .ok chosen.rewritten := by
  intro joined script chosen
  have step : (Path.ofText name).isAbsolute = false := by
    rw [Path.isAbsolute_ofText]
    exact beq_eq_false_iff_ne.2 relative
  have chosenAbsolute : chosen.isAbsolute := by
    have joinedAbsolute := Path.isAbsolute_join step absolute
    show Path.isAbsolute (if _ then _ else _) = true
    split
    · exact Path.isAbsolute_withScriptSuffix joinedAbsolute
    · exact joinedAbsolute
  obtain ⟨url, found, -, located⟩ := Module.fileUrl_of_isAbsolute chosenAbsolute
  exact ⟨url, (pathLocation?_of_directory hd relative).trans found, located⟩

/-- The characters that are plain, together with the space and all beyond ASCII. -/
def isNameChar (c : Char) : Bool :=
  c.isAlphanum || "-_.~ /".toList.contains c || decide (0x80 ≤ c.toNat)

/-- What holds of the characters of a reference can be seen one by one. -/
theorem forall_of_isReference {holds : Char → Prop}
    (all : ∀ v < 0x80, isReference [Char.ofNat v] → holds (Char.ofNat v))
    (reference : isReference name = true) : ∀ c ∈ name, holds c := by
  rw [isReference, Bool.and_eq_true, List.all_eq_true] at reference
  intro c hc
  have allowed := reference.2 c hc
  have ascii : c.toNat < 0x80 := by
    rcases Bool.or_eq_true_iff.1 allowed with alphanumeric | mark
    · exact isAlphanum_ascii alphanumeric
    · have all : ∀ c ∈ "-._~:/?#[]@!$&'()*+,;=%".toList, c.toNat < 0x80 := by simp
      exact all c (List.contains_iff_mem.1 mark)
  refine Utf8.forall_below (P := fun c => isReference [c] → holds c) all c ascii ?_
  rw [isReference, Bool.and_eq_true, List.all_eq_true]
  exact ⟨rfl, fun other ho => List.mem_singleton.1 ho ▸ allowed⟩

theorem isPlainText_of_isReference (chars : ∀ c ∈ name, isNameChar c)
    (reference : isReference name = true) : IsPlainText name := by
  have all : ∀ c ∈ name, isNameChar c → isBareChar c ∨ c = '/' :=
    forall_of_isReference (by decide +kernel) reference
  exact fun c hc => all c hc (chars c hc)

end Resolver

namespace SearchBase

variable {d : Disk} {kind : BaseKind} {p : Path} {base : SearchBase}

/-- The base of a directory has the URL of an absolute path. -/
theorem of_ofDirectory (made : ofDirectory d kind p = .ok base) :
    (d.absolute p).isAbsolute ∧
      base = ⟨.ofSegments (Url.fileNames (d.absolute p) ++ [[]]), kind⟩ := by
  have absolute : (d.absolute p).isAbsolute := by
    refine Decidable.byContradiction fun other => ?_
    simp [ofDirectory, Url.ofDirectoryPath?, Url.ofFilePath?, other] at made
  rw [ofDirectory, Url.ofDirectoryPath?_eq absolute] at made
  exact ⟨absolute, (Except.ok.inj made).symm⟩

/-- The directory of such a base is written with the names of the path. -/
theorem directory?_eq (made : ofDirectory d kind p = .ok base) :
    base.directory? = some (.ofParts ((d.absolute p).names ++ [[]])) := by
  obtain ⟨-, rfl⟩ := of_ofDirectory made
  have read : (Url.fileNames (d.absolute p) ++ [[]]).map Percent.decode =
      (d.absolute p).names ++ [[]] := by
    rw [List.map_append, Url.map_decode_fileNames]
    rfl
  have nonempty : Url.fileNames (d.absolute p) ++ [[]] ≠ [] := by simp
  have path := Url.toFilePath?_ofSegments nonempty
  rw [read] at path
  exact path

theorem directory?_of_ofDirectory (made : ofDirectory d kind p = .ok base) :
    ∃ directory, base.directory? = some directory ∧ directory.isAbsolute ∧
      directory.names = (d.absolute p).names := by
  have noSlash : ∀ part ∈ (d.absolute p).names ++ [[]], Path.slash ∉ part := by
    intro part hp
    rcases List.mem_append.1 hp with hp | hp
    · exact Path.slash_notMem_of_mem_names hp
    · exact List.mem_singleton.1 hp ▸ List.not_mem_nil
  refine ⟨_, directory?_eq made, Path.isAbsolute_ofParts (by simp), ?_⟩
  rw [Path.names_ofParts noSlash, List.filter_append, Path.filter_names]
  exact List.append_nil _

end SearchBase

/-- Relative names mean what the path says. Below the base of a directory, every name of plain
characters, spaces, slashes and characters beyond ASCII that does not start with a slash has a
location on this machine. It is the path that the directory and the name write together, or the
script there where a name taken as a path has both a directory and a script, if two dots take back a
name and nothing else wherever the name may stand in a URL. -/
theorem relative_name_means_path {d : Disk} {kind : BaseKind} {p : Path} {base : SearchBase}
    (made : SearchBase.ofDirectory d kind p = .ok base) {name : List Char}
    (relative : name.head? ≠ some '/') (chars : ∀ c ∈ name, Resolver.isNameChar c)
    (retraces : Resolver.isReference name = true →
      Path.Retraces (d.absolute p).names (Path.ofText name).parts) :
    ∃ directory url path, base.directory? = some directory ∧
      directory.names = (d.absolute p).names ∧
      Resolver.location? d base name = some url ∧ Module.localPath url = .ok path ∧
      let joined := directory.join (.ofText name)
      let script := Path.ofText (withScriptSuffix joined.toText)
      path.lexical = (if !Resolver.isReference name && d.isDirectory joined && d.isFile script
        then script else joined).lexical := by
  obtain ⟨directory, located, absolute, names⟩ := SearchBase.directory?_of_ofDirectory made
  cases reference : Resolver.isReference name with
  | true =>
    obtain ⟨-, rfl⟩ := SearchBase.of_ofDirectory made
    have plain := Resolver.isPlainText_of_isReference chars reference
    obtain ⟨c, rest, start⟩ : ∃ c rest, name = c :: rest := by
      cases name with
      | nil => cases reference
      | cons c rest => exact ⟨c, rest, rfl⟩
    have first : name.head? = some c := by rw [start, List.head?_cons]
    have bare : isBareChar c :=
      (plain c (List.mem_of_head? first)).resolve_right fun e => relative (e ▸ first)
    obtain ⟨url, path, joined, read, place⟩ :=
      Url.join_plain (d.absolute p) plain start bare (retraces reference)
    have step : (Path.ofText name).isAbsolute = false := by
      rw [Path.isAbsolute_ofText]
      exact beq_eq_false_iff_ne.2 relative
    refine ⟨directory, url, path, located, names, ?_, read, ?_⟩
    · rw [Resolver.location?, if_pos reference, joined]
      rfl
    · show path.lexical = Path.follow [] (directory.join (.ofText name)).names
      rw [place, Path.names_join step absolute, names, Path.follow_append]
      rfl
  | false =>
    obtain ⟨url, found, read⟩ := Resolver.pathLocation?_eq (d := d) located absolute relative
    refine ⟨directory, url, _, located, names, ?_, read, ?_⟩
    · rw [Resolver.location?, reference, if_neg Bool.false_ne_true]
      exact found
    · rw [Path.lexical_eq, Path.names_rewritten]
      rfl

/-- From a directory that is written with two dots of its own, a name climbs past the last one. -/
theorem sibling_of_relative_base :
    let d : Disk := { Module.appDisk with workingDirectory := Module.appDirectory }
    let base : SearchBase :=
      ⟨.ofSegments ["app".toList, "..".toList, "lib".toList, []], .privileged⟩
    let name := "./a/../../x".toList
    (SearchBase.ofDirectory d .privileged (.ofText "../lib".toList) = .ok base ∧
      name.head? ≠ some '/' ∧ (∀ c ∈ name, Resolver.isNameChar c) ∧
      Path.Retraces [Utf8.encode "app".toList, Utf8.encode "..".toList, Utf8.encode "lib".toList]
        (Path.ofText name).parts) ∧
    ∃ url path, Resolver.location? d base name = some url ∧ Module.localPath url = .ok path ∧
      path.lexical = [Utf8.encode "x".toList] := by
  intro d base name
  have made : SearchBase.ofDirectory d .privileged (.ofText "../lib".toList) = .ok base := rfl
  have names : (d.absolute (.ofText "../lib".toList)).names =
      [Utf8.encode "app".toList, Utf8.encode "..".toList, Utf8.encode "lib".toList] := by
    decide +kernel
  have retraces : Path.Retraces (d.absolute (.ofText "../lib".toList)).names
      (Path.ofText name).parts := by decide +kernel
  have chars : ∀ c ∈ name, Resolver.isNameChar c := List.all_eq_true.1 (by decide +kernel)
  have place : base.directory? = some (.ofText "/app/../lib/".toList) := by decide +kernel
  obtain ⟨directory, url, path, located, -, found, read, same⟩ :=
    relative_name_means_path made (by decide) chars fun _ => retraces
  cases place.symm.trans located
  refine ⟨⟨made, by decide, chars, names ▸ retraces⟩, url, path, found, read, same.trans ?_⟩
  decide +kernel

/-- Below the base of a directory, a name has a location that is neither what the directory and the
name write together nor a script there, though as a path the name would be taken there. -/
def Resolver.Misplaced (d : Disk) (p : Path) (name : List Char) : Prop :=
  ∃ base directory url path other,
    SearchBase.ofDirectory d .privileged p = .ok base ∧ base.directory? = some directory ∧
    Resolver.location? d base name = some url ∧ Module.localPath url = .ok path ∧
    Resolver.pathLocation? d base name = some other ∧
    let joined := directory.join (.ofText name)
    path.lexical ≠ joined.lexical ∧
      path.lexical ≠ (Path.ofText (withScriptSuffix joined.toText)).lexical ∧
      Module.localPath other = .ok joined.rewritten

/-- Joined to a URL, a name takes back the two dots at the end of a base, and it stays where it is
below what reads as a drive. -/
theorem climbing_past_dots :
    Resolver.Misplaced .empty (.ofText "/a/b/..".toList) "../x".toList ∧
      Resolver.Misplaced .empty (.ofText "/C:".toList) "../x".toList := by
  constructor
  · exact ⟨⟨.ofSegments ["a".toList, "b".toList, "..".toList, []], .privileged⟩,
      .ofText "/a/b/../".toList, .ofSegments ["a".toList, "b".toList, "x".toList],
      .ofText "/a/b/x".toList,
      .ofSegments ["a".toList, "b".toList, "..".toList, "..".toList, "x".toList],
      rfl, by decide +kernel, by decide +kernel, rfl, by decide +kernel, by decide +kernel,
      by decide +kernel, rfl⟩
  · exact ⟨⟨.ofSegments ["C:".toList, []], .privileged⟩, .ofText "/C:/".toList,
      .ofSegments ["C:".toList, "x".toList], .ofText "/C:/x".toList,
      .ofSegments ["C:".toList, "..".toList, "x".toList],
      rfl, by decide +kernel, by decide +kernel, rfl, by decide +kernel, by decide +kernel,
      by decide +kernel, rfl⟩

end ScriptTree
