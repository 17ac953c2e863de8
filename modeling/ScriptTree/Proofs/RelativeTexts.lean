import ScriptTree.Proofs.FileUrls

/-!
# Texts relative to a directory

What a text without a scheme, a slash or a drive at its start names below the URL of a directory
(`join_directory`) and beside that of a file (`join_beside`). Names that do not lead above the
directory from which they start go on from it (`descend_append`), and the names that are left are
read as names, never as dots (`decode_ne_of_mem_descend`).
-/
namespace ScriptTree.Url

/-- Whether a text is a path relative to a directory of files. -/
structure IsRelativePath (text : List Char) : Prop where
  noScheme : scheme? (clean text) = none
  hasLocation : (Parts.ofText (clean text)).location ≠ []
  noSlash : (Parts.ofText (clean text)).location.head?.any isSlash = false
  noDrive : startsWithDrive (Parts.ofText (clean text)).location = false

/-- The names of a relative path. -/
def innerPieces (text : List Char) : List (List Char) :=
  Text.pieces '/' (straighten fileScheme (Parts.ofText (clean text)).location)

/-- The directory of a file has all its segments but the last one, unless that is a drive. -/
theorem fileDirectory_ofSegments (directory : List (List Char)) {last : List Char}
    (noDrive : ¬(isDrive last ∧ last.getLast? = some ':')) :
    fileDirectory (ofSegments (directory ++ [last])) = directory := by
  simp only [fileDirectory, ofSegments, List.getLast?_append, List.getLast?_singleton,
    Option.some_or, if_neg noDrive, List.dropLast_concat]

theorem location_of_head?_eq_hash {text : List Char} (h : text.head? = some '#') :
    (Parts.ofText text).location = [] := by
  obtain ⟨rest, rfl⟩ := List.head?_eq_some_iff.1 h
  rfl

/-- A relative path is followed from the directory of a file. -/
theorem join_beside (directory : List (List Char)) {last text : List Char}
    (noDriveLast : ¬(isDrive last ∧ last.getLast? = some ':')) (h : IsRelativePath text) :
    join (ofSegments (directory ++ [last])) text = .ok (ofParts fileScheme localAuthority
      (pathOf fileScheme (descend fileScheme directory (innerPieces text)))
      (Parts.ofText (clean text))) := by
  obtain ⟨noScheme, hasLocation, noSlash, noDrive⟩ := h
  have noHash : (clean text).head? ≠ some '#' := fun e =>
    hasLocation (location_of_head?_eq_hash e)
  have noSlashes : ((Parts.ofText (clean text)).location.takeWhile isSlash).length = 0 := by
    cases hl : (Parts.ofText (clean text)).location with
    | nil => rfl
    | cons c rest =>
      have hc : isSlash c = false := by simpa [hl] using noSlash
      simp [hc]
  have isPlain : (ofSegments (directory ++ [last])).isPlain = false := rfl
  have isFile : (ofSegments (directory ++ [last])).isFile = true := rfl
  unfold join read
  simp only [noScheme, if_neg noHash, isPlain, isFile, if_true, Bool.false_eq_true, if_false]
  unfold readFile
  simp only [noSlashes, if_neg hasLocation, noDrive, Bool.false_eq_true, if_false,
    fileDirectory_ofSegments directory noDriveLast]
  rfl

/-- A relative path is followed from the directory. -/
theorem join_directory (directory : List (List Char)) {text : List Char} (h : IsRelativePath text) :
    join (ofSegments (directory ++ [[]])) text = .ok (ofParts fileScheme localAuthority
      (pathOf fileScheme (descend fileScheme directory (innerPieces text)))
      (Parts.ofText (clean text))) :=
  join_beside directory (by decide) h

/-- A file keeps its names if the first one is not empty. -/
theorem pathOf_fileNames {p : Path} (hp : p.names ≠ []) (rest : List (List Char)) :
    pathOf fileScheme (fileNames p ++ rest) = .names (fileNames p ++ rest) := by
  have nonempty : fileNames p ≠ [] := by simpa [fileNames] using hp
  obtain ⟨first, others, hfirst⟩ := List.exists_cons_of_ne_nil nonempty
  have full : first ≠ [] := ne_nil_of_mem_fileNames (p := p) (by simp [hfirst])
  simp [pathOf, hfirst, full]

/-! ## Going down -/

/-- Whether names never lead above the directory `depth` levels above the one from which they
start. -/
def staysBelow : Nat → List (List Char) → Bool
  | _, [] => true
  | depth, name :: rest =>
    if plainDots name = ['.', '.'] then
      match depth with
      | 0 => false
      | depth + 1 => staysBelow depth rest
    else if plainDots name = ['.'] then staysBelow depth rest
    else staysBelow (depth + 1) rest

theorem ascend_append (above : List (List Char)) {below : List (List Char)} (h : below ≠ []) :
    ascend (above ++ below) = above ++ ascend below := by
  have last := List.getLast?_eq_some_getLast h
  unfold ascend
  simp only [List.getLast?_append, last, Option.some_or]
  split
  · rfl
  · exact List.dropLast_append_of_ne_nil h

theorem ascend_subset (names : List (List Char)) : ascend names ⊆ names := by
  unfold ascend
  split
  · split
    · exact List.Subset.refl _
    · exact (List.dropLast_sublist _).subset
  · exact List.nil_subset _

theorem length_ascend (names : List (List Char)) : names.length ≤ (ascend names).length + 1 := by
  unfold ascend
  split
  · split
    · omega
    · rw [List.length_dropLast]
      omega
  · next h => simp [List.getLast?_eq_none_iff.1 h]

/-- Names that stay below a directory go on from it as they would from the root of another
scheme. -/
theorem descend_append {above : List (List Char)} (ha : above ≠ []) {names : List (List Char)} :
    ∀ {depth : Nat} {below : List (List Char)}, depth ≤ below.length → staysBelow depth names →
      descend fileScheme (above ++ below) names = above ++ descend [] below names := by
  induction names with
  | nil => intros; rfl
  | cons name rest ih =>
    intro depth below hdepth stays
    unfold descend
    unfold staysBelow at stays
    by_cases up : plainDots name = ['.', '.']
    · rw [if_pos up] at stays
      cases depth with
      | zero => cases stays
      | succ depth =>
        have nonempty : below ≠ [] := List.ne_nil_of_length_pos (by omega)
        have deep := length_ascend below
        simp only [up, ascend_append above nonempty, if_true, true_or, and_true]
        by_cases last : rest = []
        · subst last
          simp [descend]
        · simp only [last, if_false]
          exact ih (by omega) stays
    · rw [if_neg up] at stays
      by_cases here : plainDots name = ['.']
      · rw [if_pos here] at stays
        simp only [here, if_true, or_true, and_true]
        by_cases last : rest = []
        · subst last
          simp [descend]
        · simpa [last] using ih hdepth stays
      · rw [if_neg here] at stays
        have written : writeName fileScheme (above ++ below) name = writeName [] below name := by
          have other : ([] : List Char) ≠ fileScheme := by decide
          simp [writeName, ha, other]
        simp only [up, here, if_false, or_self, and_false, written, List.append_assoc]
        exact ih (by simp; omega) stays

/-- Names other than dots are all there below a directory, each as it is written. -/
theorem descend_written {scheme : List Char} (written : List Char → List Char)
    {names : List (List Char)}
    (h : ∀ name ∈ names, plainDots name ≠ ['.', '.'] ∧ plainDots name ≠ ['.'] ∧
      ∀ directory, writeName scheme directory name = written name) (directory : List (List Char)) :
    descend scheme directory names = directory ++ names.map written := by
  induction names generalizing directory with
  | nil => simp [descend]
  | cons name rest ih =>
    obtain ⟨up, here, own⟩ := h name List.mem_cons_self
    have ih := ih (fun name hn => h name (List.mem_cons_of_mem _ hn)) (directory ++ [written name])
    unfold descend
    simp only [up, here, if_false, or_self, and_false, own, ih, List.append_assoc]
    rfl

/-- Names that are neither dots nor drives are encoded. -/
theorem descend_plain (scheme : List Char) {names : List (List Char)}
    (h : ∀ name ∈ names, plainDots name ≠ ['.', '.'] ∧ plainDots name ≠ ['.'] ∧
      isDrive name = false) (directory : List (List Char)) :
    descend scheme directory names = directory ++ names.map (Percent.encode Percent.inPath) := by
  refine descend_written _ (fun name hn => ?_) directory
  obtain ⟨up, here, drive⟩ := h name hn
  exact ⟨up, here, fun directory => by simp [writeName, drive]⟩

/-- What is below a directory was there, is empty, or is a name that is not a dot. -/
theorem mem_descend {names : List (List Char)} :
    ∀ {directory : List (List Char)} {name : List Char}, name ∈ descend [] directory names →
      name ∈ directory ∨ name = [] ∨ ∃ piece ∈ names, plainDots piece ≠ ['.', '.'] ∧
        plainDots piece ≠ ['.'] ∧ name = Percent.encode Percent.inPath piece := by
  induction names with
  | nil => exact fun h => .inl h
  | cons first rest ih =>
    intro directory name h
    have ascended {name : List Char} (h : name ∈ ascend directory) : name ∈ directory :=
      ascend_subset directory h
    have written : writeName [] directory first = Percent.encode Percent.inPath first := by
      have other : ([] : List Char) ≠ fileScheme := by decide
      simp [writeName, other]
    unfold descend at h
    rcases ih h with h | h | ⟨piece, hp, rest⟩
    · by_cases up : plainDots first = ['.', '.']
      · simp only [up, if_true, true_or, and_true] at h
        split at h
        · rcases List.mem_append.1 h with h | h
          · exact .inl (ascended h)
          · exact .inr (.inl (List.mem_singleton.1 h))
        · exact .inl (ascended h)
      · by_cases here : plainDots first = ['.']
        · simp only [here, if_true, or_true, and_true] at h
          have : name ∈ directory ∨ name = [] := by
            split at h
            · simpa using h
            · exact .inl (by simpa using h)
          exact this.imp_right .inl
        · simp only [up, here, if_false, or_self, and_false, written] at h
          rcases List.mem_append.1 h with h | h
          · exact .inl h
          · exact .inr (.inr ⟨first, List.mem_cons_self, up, here, List.mem_singleton.1 h⟩)
    · exact .inr (.inl h)
    · exact .inr (.inr ⟨piece, List.mem_cons_of_mem _ hp, rest⟩)

/-! ## Names and dots -/

theorem plainDots_of_decode_eq_dot_cons {text : List Char} {rest : List UInt8}
    (h : Percent.decode text = Path.dot :: rest) :
    ∃ others, Percent.decode others = rest ∧ plainDots text = '.' :: plainDots others := by
  obtain ⟨others, hrest, rfl | rfl | rfl⟩ := Percent.decode_eq_dot_cons h
  · exact ⟨others, hrest, by simp [plainDots]⟩
  · exact ⟨others, hrest, by simp [plainDots]⟩
  · exact ⟨others, hrest, by simp [plainDots]⟩

/-- A name that is read as one dot is one. -/
theorem plainDots_of_decode_dot {text : List Char} (h : Percent.decode text = [Path.dot]) :
    plainDots text = ['.'] := by
  obtain ⟨others, hrest, htext⟩ := plainDots_of_decode_eq_dot_cons h
  rw [htext, Percent.decode_eq_nil hrest, plainDots]

/-- A name that is read as two dots is two dots. -/
theorem plainDots_of_decode_dots {text : List Char}
    (h : Percent.decode text = [Path.dot, Path.dot]) : plainDots text = ['.', '.'] := by
  obtain ⟨others, hrest, htext⟩ := plainDots_of_decode_eq_dot_cons h
  rw [htext, plainDots_of_decode_dot hrest]

/-- What is left of names is not read as dots. -/
theorem decode_ne_of_mem_descend {names : List (List Char)} {name : List Char}
    (h : name ∈ descend [] [] names) :
    Percent.decode name ≠ [Path.dot, Path.dot] ∧ Percent.decode name ≠ [Path.dot] := by
  rcases mem_descend h with h | rfl | ⟨piece, -, up, here, rfl⟩
  · cases h
  · decide
  · rw [Percent.decode_encode]
    exact ⟨mt plainDots_of_decode_dots up, mt plainDots_of_decode_dot here⟩

end ScriptTree.Url
