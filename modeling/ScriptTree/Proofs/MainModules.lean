import ScriptTree.Proofs.AbsoluteNames
import ScriptTree.Proofs.Ancestors

/-!
# Main modules

The descriptor of a package names its main module by a text that is joined to the URL of the
descriptor. A relative path of a file (`RelativeFile`) means its segments there, in the directory of
the descriptor and with the suffix of a script at the end (`main_is_beside_descriptor`), if nothing in
it means more in a URL than itself (`RelativeFile.IsLiteralIn`). A number sign, a question mark, a
backslash, a percent code, a scheme or a drive leads somewhere else, and a space at the start is lost
(`marked_main_is_elsewhere`).
-/
namespace ScriptTree

/-! ## What lies directly above a path -/

namespace Path

variable {p directory : Path}

theorem isAbsolute_of_parent? (h : p.isAbsolute) (hd : p.parent? = some directory) :
    directory.isAbsolute :=
  PathSearch.isAbsolute_of_mem_ancestors h (List.mem_of_getElem? hd)

/-- The parent of a path has all its names but one. -/
theorem names_of_parent? (h : p.isAbsolute) (hd : p.parent? = some directory) :
    ∃ own, p.names = directory.names ++ [own] := by
  have above : p.names.inits.reverse[1]? = some directory.names := by
    rw [← map_names_ancestors h, List.getElem?_map, ← parent?, hd]
    rfl
  have inits : p.names.inits.reverse = p.names.reverse.tails.map List.reverse := by
    rw [List.map_reverse_tails, List.reverse_reverse]
  rw [inits, List.getElem?_map] at above
  cases reversed : p.names.reverse with
  | nil =>
    rw [reversed] at above
    cases above
  | cons own rest =>
    have second : (own :: rest).tails[1]? = some rest := by cases rest <;> rfl
    rw [reversed, second, Option.map_some, Option.some.injEq] at above
    refine ⟨own, ?_⟩
    rw [← above, ← List.reverse_cons, ← reversed, List.reverse_reverse]

/-- Whether a path has the name of a drive: a letter and a colon. -/
def isNamedAsDrive (p : Path) : Bool :=
  match p.fileName? with
  | some [letter, 0x3A] => (Char.ofNat letter.toNat).isAlpha
  | _ => false

/-- Where the URL of a path ends in a drive, the path does. -/
theorem isNamedAsDrive_of_isDrive {own : List UInt8} (h : p.isAbsolute)
    {before : List (List UInt8)} (names : p.names = before ++ [own])
    (drive : Url.isDrive (Percent.encodeOctets Percent.inFileName own))
    (colon : (Percent.encodeOctets Percent.inFileName own).getLast? = some ':') :
    p.isNamedAsDrive := by
  have back := Percent.decode_encodeOctets_inFileName own
  revert drive colon back
  generalize Percent.encodeOctets Percent.inFileName own = text
  intro drive colon back
  unfold Url.isDrive at drive
  split at drive
  · next c mark =>
    have letter : c.isAlpha := (Bool.and_eq_true_iff.1 drive).1
    obtain rfl : mark = ':' := Option.some.inj colon
    have ascii : c.toNat < 0x80 := isAlphanum_ascii (by simp [Char.isAlphanum, letter])
    have percent : c ≠ '%' := by
      rintro rfl
      exact absurd letter (by decide)
    have final : Percent.decode [':'] = [0x3A] := by decide
    have octets : own = [UInt8.ofNat c.toNat, 0x3A] := by
      rw [← back, Percent.decode_cons percent, final, Utf8.encodeChar_ascii ascii]
      rfl
    have noUp : own ≠ [dot, dot] := by
      rw [octets]
      exact fun e => absurd (List.cons.inj (List.cons.inj e).2).1 (by decide)
    have name : p.fileName? = some own := by
      rw [fileName?, components_of_isAbsolute h, names, List.map_append, List.map_singleton,
        ← List.cons_append, List.getLast?_concat, stepOf, if_neg noUp]
    rw [isNamedAsDrive, name, octets]
    simp only [Utf8.toNat_ofNat_ascii ascii, Char.ofNat_toNat, letter]
  · cases drive

end Path

/-! ## Going down from a directory -/

namespace Url

/-- What drives there are at the root are written as they are. -/
theorem writeName_eq_encode {directory : List (List Char)} {name : List Char}
    (rooted : directory = [] → isDrive name → name.getLast? = some ':') :
    writeName fileScheme directory name = Percent.encode Percent.inPath name := by
  unfold writeName
  split
  · next drive =>
    obtain ⟨-, root, drive⟩ := drive
    have colon := rooted root drive
    unfold isDrive at drive
    split at drive
    · next c mark =>
      obtain rfl : mark = ':' := Option.some.inj colon
      have letter : c.isAlphanum := by
        simp [Char.isAlphanum, (Bool.and_eq_true_iff.1 drive).1]
      have bare : isBareChar c := by simp [isBareChar, letter]
      refine (Percent.encode_eq_self fun d hd => ?_).symm
      rcases List.mem_cons.1 hd with rfl | hd
      · exact ⟨isBareChar_ascii bare, (isBareChar_plain bare).1⟩
      · rw [List.mem_singleton.1 hd]
        decide
    · cases drive
  · rfl

/-- Names other than dots are all there below a directory, each encoded. -/
theorem descend_encoded {names : List (List Char)}
    (h : ∀ name ∈ names, plainDots name ≠ ['.', '.'] ∧ plainDots name ≠ ['.'])
    (directory : List (List Char))
    (rooted : directory = [] → ∀ first ∈ names.head?, isDrive first → first.getLast? = some ':') :
    descend fileScheme directory names = directory ++ names.map (Percent.encode Percent.inPath) := by
  induction names generalizing directory with
  | nil => simp [descend]
  | cons name rest ih =>
    obtain ⟨up, here⟩ := h name List.mem_cons_self
    have own : writeName fileScheme directory name = Percent.encode Percent.inPath name :=
      writeName_eq_encode fun root => rooted root name rfl
    have below := ih (fun name hn => h name (List.mem_cons_of_mem _ hn))
      (directory ++ [Percent.encode Percent.inPath name]) fun e => by simp at e
    unfold descend
    simp only [up, here, if_false, or_self, and_false, own, below, List.append_assoc]
    rfl

end Url

/-! ## Relative paths of files -/

/-- A segment that names a file or a directory, without control characters. -/
structure IsFileSegment (segment : List Char) : Prop where
  noControl : ∀ c ∈ segment, 0x20 ≤ c.toNat
  noSlash : '/' ∉ segment
  full : segment ≠ []
  noDot : segment ≠ ['.']
  noStep : segment ≠ ['.', '.']

instance : DecidablePred IsFileSegment := fun segment =>
  decidable_of_iff (segment.all (fun c => decide (0x20 ≤ c.toNat)) ∧ '/' ∉ segment ∧ segment ≠ [] ∧
      segment ≠ ['.'] ∧ segment ≠ ['.', '.']) <| by
    rw [List.all_eq_true]
    simp only [decide_eq_true_eq]
    exact ⟨fun ⟨noControl, noSlash, full, noDot, noStep⟩ => ⟨noControl, noSlash, full, noDot, noStep⟩,
      fun h => ⟨h.noControl, h.noSlash, h.full, h.noDot, h.noStep⟩⟩

namespace IsFileSegment

variable {segment : List Char} (h : IsFileSegment segment)
include h

theorem withScriptSuffix : IsFileSegment (withScriptSuffix segment) := by
  unfold ScriptTree.withScriptSuffix
  split
  · exact h
  · have suffix : IsFileSegment scriptSuffix := by decide
    have long : 3 < (segment ++ scriptSuffix).length := by
      have := List.length_pos_of_ne_nil h.full
      have three : scriptSuffix.length = 3 := by decide
      rw [List.length_append]
      omega
    have differs {other : List Char} (short : other.length ≤ 3) : segment ++ scriptSuffix ≠ other := by
      rintro rfl
      omega
    refine ⟨fun c hc => ?_, fun slash => ?_, differs (by decide), differs (by decide),
      differs (by decide)⟩
    · exact (List.mem_append.1 hc).elim (h.noControl c) (suffix.noControl c)
    · exact (List.mem_append.1 slash).elim h.noSlash suffix.noSlash

theorem isVacant_encode : Path.isVacant (Utf8.encode segment) = false := by
  have dot : Utf8.encode ['.'] = [Path.dot] := by decide
  rw [Path.isVacant, Bool.or_eq_false_iff, beq_eq_false_iff_ne, beq_eq_false_iff_ne]
  constructor
  · exact fun e => h.full (Utf8.encode_injective e)
  · exact fun e => h.noDot (Utf8.encode_injective (e.trans dot.symm))

/-- As a part of a path the segment is a name. -/
theorem stepOf_encode : Path.stepOf (Utf8.encode segment) = .name (Utf8.encode segment) := by
  have dots : Utf8.encode ['.', '.'] = [Path.dot, Path.dot] := by decide
  exact if_neg fun e => h.noStep (Utf8.encode_injective (e.trans dots.symm))

end IsFileSegment

/-- A relative path of a file: segments with a slash between them, perhaps after a dot. -/
structure RelativeFile where
  dotted : Bool
  folders : List (List Char)
  name : List Char
  proper : ∀ segment ∈ folders ++ [name], IsFileSegment segment

namespace RelativeFile

variable (n : RelativeFile)

/-- The segments of a path. -/
def segments : List (List Char) :=
  n.folders ++ [n.name]

/-- The segments and the dot before them. -/
def pieces : List (List Char) :=
  (if n.dotted then [['.']] else []) ++ n.segments

/-- The text of a path. -/
def text : List Char :=
  Text.join '/' n.pieces

/-- The path with the suffix of a script at the end of its last segment. -/
def asScript : RelativeFile where
  dotted := n.dotted
  folders := n.folders
  name := withScriptSuffix n.name
  proper segment h := by
    rcases List.mem_append.1 h with h | h
    · exact n.proper segment (List.mem_append_left _ h)
    · rw [List.mem_singleton.1 h]
      exact (n.proper n.name (by simp)).withScriptSuffix

theorem exists_pieces_eq : ∃ init, n.pieces = init ++ [n.name] ∧
    n.asScript.pieces = init ++ [withScriptSuffix n.name] :=
  ⟨(if n.dotted then [['.']] else []) ++ n.folders, (List.append_assoc _ _ _).symm,
    (List.append_assoc _ _ _).symm⟩

theorem noSlash_of_mem_pieces {piece : List Char} (h : piece ∈ n.pieces) : '/' ∉ piece := by
  rcases List.mem_append.1 h with h | h
  · split at h
    · rw [List.mem_singleton.1 h]
      decide
    · cases h
  · exact (n.proper piece h).noSlash

theorem pieces_ne_nil : n.pieces ≠ [] := by
  simp [pieces, segments]

theorem pieces_text : Text.pieces '/' n.text = n.pieces :=
  Text.pieces_join n.pieces_ne_nil fun _ => n.noSlash_of_mem_pieces

/-- A text of pieces ends like the last one. -/
theorem withScriptSuffix_join (init : List (List Char)) (last : List Char) :
    withScriptSuffix (Text.join '/' (init ++ [last])) =
      Text.join '/' (init ++ [withScriptSuffix last]) := by
  cases init with
  | nil => rfl
  | cons first init =>
    have joined (last : List Char) : Text.join '/' (first :: init ++ [last]) =
        (first ++ init.flatMap ('/' :: ·)) ++ '/' :: last := by
      rw [List.cons_append, Text.join_eq_flatMap, List.flatMap_append, List.flatMap_singleton,
        List.append_assoc]
    rw [joined, joined, withScriptSuffix, isSuffixOf_append slash_notMem_scriptSuffix,
      withScriptSuffix]
    split
    · rfl
    · rw [List.append_assoc, List.cons_append]

/-- The suffix is put after the whole text. -/
theorem text_asScript : n.asScript.text = withScriptSuffix n.text := by
  obtain ⟨init, pieces, scripted⟩ := n.exists_pieces_eq
  rw [text, text, pieces, scripted, withScriptSuffix_join]

theorem isSuffixOf_asScript : scriptSuffix.isSuffixOf n.asScript.text := by
  rw [text_asScript, withScriptSuffix]
  split
  · next suffixed => exact suffixed
  · exact List.isSuffixOf_iff_suffix.2 (List.suffix_append _ _)

theorem noControl {c : Char} (h : c ∈ n.text) : 0x20 ≤ c.toNat := by
  rcases Text.mem_join h with rfl | ⟨piece, hp, hc⟩
  · decide
  · rcases List.mem_append.1 hp with hp | hp
    · split at hp
      · rw [List.mem_singleton.1 hp, List.mem_singleton] at hc
        rw [hc]
        decide
      · cases hp
    · exact (n.proper piece hp).noControl c hc

/-- A text starts with its first piece, so not with a slash. -/
theorem exists_cons : ∃ c rest, n.text = c :: rest ∧ c ≠ '/' := by
  obtain ⟨first, others, split⟩ := List.exists_cons_of_ne_nil n.pieces_ne_nil
  have mem : first ∈ n.pieces := split ▸ List.mem_cons_self
  have full : first ≠ [] := by
    rcases List.mem_append.1 mem with h | h
    · split at h
      · rw [List.mem_singleton.1 h]
        decide
      · cases h
    · exact (n.proper first h).full
  obtain ⟨c, rest, rfl⟩ := List.exists_cons_of_ne_nil full
  refine ⟨c, _, by rw [text, split, Text.join_eq_flatMap, List.cons_append], ?_⟩
  rintro rfl
  exact n.noSlash_of_mem_pieces mem List.mem_cons_self

/-- Whether nothing in the text of a path means more than itself in a URL relative to a
directory. -/
structure IsLiteralIn (directory : Path) : Prop where
  literal : Url.IsLiteral n.text
  noBackslash : '\\' ∉ n.text
  noPadding : ∀ c ∈ n.text.head?, Url.isPadding c = false
  noScheme : Url.scheme? n.text = none
  noDrive : Url.startsWithDrive n.text = false
  noRootDrive : directory.names = [] →
    ∀ first ∈ n.segments.head?, Url.isDrive first → first.getLast? = some ':'

section

variable {n} {directory : Path} (h : n.IsLiteralIn directory)
include h

theorem noCode_of_mem_pieces {piece : List Char} (hp : piece ∈ n.pieces) :
    ¬Percent.HasCode piece := fun code =>
  h.literal.noCode (code.of_infix (Text.infix_join_of_mem '/' hp))

theorem clean_eq (suffixed : scriptSuffix.isSuffixOf n.text) : Url.clean n.text = n.text := by
  have control {c d : Char} (hc : c ∈ n.text) (hd : d.toNat < 0x20) : c ≠ d := by
    rintro rfl
    have := n.noControl hc
    omega
  refine Url.clean_of_ends h.noPadding (fun c hc => ?_) fun c hc =>
    ⟨control hc (by decide), control hc (by decide), control hc (by decide)⟩
  obtain ⟨front, text⟩ := List.isSuffixOf_iff_suffix.1 suffixed
  have last : scriptSuffix.getLast? = some 's' := by decide
  rw [← text, List.getLast?_append, last, Option.some_or] at hc
  rw [← Option.some.inj hc]
  decide

theorem ofText_eq : Url.Parts.ofText n.text = ⟨n.text, none, none⟩ := by
  simp only [Url.Parts.ofText, Url.cut_of_notMem h.literal.noFragment,
    Url.cut_of_notMem h.literal.noQuery]

theorem isRelativePath (suffixed : scriptSuffix.isSuffixOf n.text) : Url.IsRelativePath n.text := by
  obtain ⟨c, rest, start, slash⟩ := n.exists_cons
  have backslash : c ≠ '\\' := by
    rintro rfl
    exact h.noBackslash (start ▸ List.mem_cons_self)
  constructor
  · rw [clean_eq h suffixed, h.noScheme]
  · rw [clean_eq h suffixed, ofText_eq h, start]
    exact List.cons_ne_nil c rest
  · rw [clean_eq h suffixed, ofText_eq h, start]
    simp [Url.isSlash, slash, backslash]
  · rw [clean_eq h suffixed, ofText_eq h, h.noDrive]

theorem innerPieces_eq (suffixed : scriptSuffix.isSuffixOf n.text) :
    Url.innerPieces n.text = n.pieces := by
  have straight : Url.straighten Url.fileScheme n.text = n.text := by
    rw [Url.straighten, if_pos (by decide)]
    refine (List.map_congr_left fun c hc => if_neg ?_).trans (List.map_id _)
    rintro rfl
    exact h.noBackslash hc
  rw [Url.innerPieces, clean_eq h suffixed, ofText_eq h, straight, pieces_text]

/-- From the directory the pieces lead to the segments, encoded. -/
theorem descend_pieces : Url.descend Url.fileScheme (Url.fileNames directory) n.pieces =
    Url.fileNames directory ++ n.segments.map (Percent.encode Percent.inPath) := by
  have noDots (segment : List Char) (hs : segment ∈ n.segments) :
      Url.plainDots segment ≠ ['.', '.'] ∧ Url.plainDots segment ≠ ['.'] := by
    rw [Url.plainDots_eq_self (noCode_of_mem_pieces h (List.mem_append_right _ hs))]
    exact ⟨(n.proper segment hs).noStep, (n.proper segment hs).noDot⟩
  have down := Url.descend_encoded noDots (Url.fileNames directory) fun root =>
    h.noRootDrive (List.map_eq_nil_iff.1 root)
  rw [← down, pieces]
  cases n.dotted with
  | false => rfl
  | true =>
    have here : Url.plainDots ['.'] = ['.'] := by simp [Url.plainDots]
    have more : n.segments ≠ [] := by simp [segments]
    show Url.descend Url.fileScheme (Url.fileNames directory) (['.'] :: n.segments) = _
    rw [Url.descend]
    simp [here, more]

/-- Joined to the URL of a file in a directory, the path leads on from the directory. -/
theorem join_eq (suffixed : scriptSuffix.isSuffixOf n.text) (own : List Char)
    (noDrive : ¬(Url.isDrive own ∧ own.getLast? = some ':')) :
    (Url.ofSegments (Url.fileNames directory ++ [own])).join n.text = .ok (.ofSegments
      (Url.fileNames directory ++ n.segments.map (Percent.encode Percent.inPath))) := by
  have full (segment : List Char) (hs : segment ∈ Url.fileNames directory ++
      n.segments.map (Percent.encode Percent.inPath)) : segment ≠ [] := by
    rcases List.mem_append.1 hs with hs | hs
    · exact Url.ne_nil_of_mem_fileNames hs
    · obtain ⟨plain, hp, rfl⟩ := List.mem_map.1 hs
      exact fun e => (n.proper plain hp).full (Utf8.encode_injective (Url.encodeOctets_eq_nil e))
  have path : Url.pathOf Url.fileScheme (Url.fileNames directory ++
      n.segments.map (Percent.encode Percent.inPath)) = .names (Url.fileNames directory ++
        n.segments.map (Percent.encode Percent.inPath)) := by
    obtain ⟨first, others, split⟩ := List.exists_cons_of_ne_nil (l := Url.fileNames directory ++
      n.segments.map (Percent.encode Percent.inPath)) (by simp [segments])
    have named := full first (split ▸ List.mem_cons_self)
    simp [Url.pathOf, split, named]
  rw [Url.join_beside _ noDrive (isRelativePath h suffixed), innerPieces_eq h suffixed,
    descend_pieces h, path, clean_eq h suffixed, ofText_eq h]
  rfl

/-- The segments are read from the URL as they are. -/
theorem toFilePath?_eq : Url.toFilePath? (.ofSegments
      (Url.fileNames directory ++ n.segments.map (Percent.encode Percent.inPath))) =
    some (.ofParts (directory.names ++ n.segments.map Utf8.encode)) := by
  have read : (n.segments.map (Percent.encode Percent.inPath)).map Percent.decode =
      n.segments.map Utf8.encode := by
    rw [List.map_map]
    refine List.map_congr_left fun segment hs => ?_
    have noCode := noCode_of_mem_pieces h (List.mem_append_right _ hs)
    exact (Percent.decode_encode segment).trans (Percent.decode_eq_encode noCode)
  rw [Url.toFilePath?_ofSegments (by simp [segments]), List.map_append, Url.map_decode_fileNames,
    read]

end

/-- A path below a directory has the steps of both. -/
theorem components_ofParts {directory : Path} (absolute : directory.isAbsolute) :
    (Path.ofParts (directory.names ++ n.segments.map Utf8.encode)).components =
      directory.components ++ n.segments.map fun segment => .name (Utf8.encode segment) := by
  have names : (Path.ofParts (directory.names ++ n.segments.map Utf8.encode)).names =
      directory.names ++ n.segments.map Utf8.encode := by
    rw [Path.names_ofParts, List.filter_append, Path.filter_names]
    · refine congrArg _ (List.filter_eq_self.2 fun part hp => ?_)
      obtain ⟨segment, hs, rfl⟩ := List.mem_map.1 hp
      rw [(n.proper segment hs).isVacant_encode]
      rfl
    · intro part hp
      rcases List.mem_append.1 hp with hp | hp
      · exact Path.slash_notMem_of_mem_names hp
      · obtain ⟨segment, hs, rfl⟩ := List.mem_map.1 hp
        exact Path.slash_notMem_encode (n.proper segment hs).noSlash
  have steps : (n.segments.map Utf8.encode).map Path.stepOf =
      n.segments.map fun segment => .name (Utf8.encode segment) := by
    rw [List.map_map]
    exact List.map_congr_left fun segment hs => (n.proper segment hs).stepOf_encode
  rw [Path.components_of_isAbsolute (Path.isAbsolute_ofParts (by simp [segments])),
    Path.components_of_isAbsolute absolute, names, List.map_append, steps, List.cons_append]

end RelativeFile

/-! ## Main modules of packages -/

/-- Whether the main module of a package is a file of the directory of the descriptor. -/
def Package.MainIs (package : Package) (n : RelativeFile) : Prop :=
  ∃ directory path, package.path.parent? = some directory ∧ package.mainPath = .ok (some path) ∧
    path.components =
      directory.components ++ n.segments.map fun segment => .name (Utf8.encode segment)

/-- A main module that is given by a relative path of a file is this file in the directory of the
descriptor, with the suffix of a script. The text of the path is literal in a URL, and the
descriptor, which may be in any directory, does not have the name of a drive. -/
theorem main_is_beside_descriptor {package : Package} {directory : Path} (n : RelativeFile)
    (absolute : package.path.isAbsolute) (parent : package.path.parent? = some directory)
    (noDrive : package.path.isNamedAsDrive = false)
    (main : package.main = some (String.ofList n.text))
    (literal : n.asScript.IsLiteralIn directory) : package.MainIs n.asScript := by
  obtain ⟨own, names⟩ := Path.names_of_parent? absolute parent
  have nonempty : package.path.names ≠ [] := by simp [names]
  have base : Url.ofFilePath? package.path = some (.ofSegments
      (Url.fileNames directory ++ [Percent.encodeOctets Percent.inFileName own])) := by
    rw [Url.ofFilePath?_eq absolute, if_neg nonempty, Url.fileNames, names, List.map_append,
      List.map_singleton, Url.fileNames]
  have noMark : ¬(Url.isDrive (Percent.encodeOctets Percent.inFileName own) ∧
      (Percent.encodeOctets Percent.inFileName own).getLast? = some ':') := by
    rintro ⟨drive, colon⟩
    rw [Path.isNamedAsDrive_of_isDrive absolute names drive colon] at noDrive
    cases noDrive
  have joined := RelativeFile.join_eq literal n.isSuffixOf_asScript _ noMark
  refine ⟨directory, _, parent, ?_,
    n.asScript.components_ofParts (Path.isAbsolute_of_parent? absolute parent)⟩
  unfold Package.mainPath
  simp only [main, base, String.toList_ofList, ← n.text_asScript, joined,
    RelativeFile.toFilePath?_eq literal]

/-- The package of a descriptor that names a file. -/
def Package.naming (descriptor : Path) (n : RelativeFile) : Package :=
  ⟨descriptor, some (String.ofList n.text)⟩

/-- Marks that mean nothing more where they stand, in a main module and in the directory of its
descriptor, stay. -/
theorem odd_main_is_beside_descriptor :
    let n : RelativeFile := ⟨true, ["C:".toList, "é|".toList], "100% \x7b1\x7d".toList, by decide⟩
    let directory : Path := ⟨Utf8.encode "/a#b?%41\\ ".toList ++ [0xFF]⟩
    let descriptor := directory.join Package.fileName
    (descriptor.isAbsolute ∧ descriptor.parent? = some directory ∧
      descriptor.isNamedAsDrive = false ∧ n.asScript.IsLiteralIn directory) ∧
    (Package.naming descriptor n).MainIs n.asScript := by
  intro n directory descriptor
  have absolute : descriptor.isAbsolute := by decide +kernel
  have parent : descriptor.parent? = some directory := by decide +kernel
  have noDrive : descriptor.isNamedAsDrive = false := by decide +kernel
  have start : n.asScript.text.head? = some '.' := by decide +kernel
  have literal : n.asScript.IsLiteralIn directory :=
    { literal := ⟨by decide +kernel, by decide +kernel, by decide +kernel⟩
      noBackslash := by decide +kernel
      noPadding := fun c hc => Option.some.inj (start.symm.trans hc) ▸ by decide
      noScheme := by decide +kernel
      noDrive := by decide +kernel
      noRootDrive := by decide +kernel }
  refine ⟨⟨absolute, parent, noDrive, literal⟩, ?_⟩
  exact main_is_beside_descriptor n absolute parent noDrive rfl literal

theorem Package.not_mainIs {package : Package} {n : RelativeFile}
    (h : ∀ directory ∈ package.path.parent?, ∀ path ∈ package.mainPath.toOption.join,
      path.components ≠
        directory.components ++ n.segments.map fun segment => .name (Utf8.encode segment)) :
    ¬package.MainIs n := by
  rintro ⟨directory, path, parent, main, same⟩
  exact h directory parent path (by rw [main]; rfl) same

/-- Files with a mark of a URL in their paths. -/
def markedFiles : List RelativeFile :=
  [⟨false, [], "a#b".toList, by decide⟩, ⟨false, [], "a?b".toList, by decide⟩,
    ⟨false, [], "a%41b".toList, by decide⟩, ⟨false, [], "a\\b".toList, by decide⟩,
    ⟨false, [], " a".toList, by decide⟩, ⟨false, [], "mailto:x".toList, by decide⟩,
    ⟨false, ["C|".toList], "x".toList, by decide⟩]

/-- A main module with a mark is not the file that it names. Neither is one below what reads as a
drive at the root, nor any that is named by a descriptor with the name of a drive. -/
theorem marked_main_is_elsewhere :
    let main (package : Package) : Option String :=
      package.mainPath.toOption.join.map fun path => String.ofList path.toText
    let descriptor := Path.ofText "/pkg/package.json".toList
    let rooted : RelativeFile := ⟨true, ["C|".toList], "x".toList, by decide⟩
    let plain : RelativeFile := ⟨false, [], "x".toList, by decide⟩
    (∀ n ∈ markedFiles, ¬(Package.naming descriptor n).MainIs n.asScript) ∧
      markedFiles.map (fun n => main (.naming descriptor n)) =
        [some "/pkg/a", some "/pkg/a", some "/pkg/aAb.js", some "/pkg/a/b.js", some "/pkg/a.js", none,
          some "/C:/x.js"] ∧
      ¬(Package.naming (.ofText "/package.json".toList) rooted).MainIs rooted.asScript ∧
      ¬(Package.naming (.ofText "/pkg/C:".toList) plain).MainIs plain.asScript := by
  intro main descriptor rooted plain
  refine ⟨?_, by decide +kernel, ?_, ?_⟩
  · have elsewhere : ∀ n ∈ markedFiles, ∀ directory ∈ descriptor.parent?,
        ∀ path ∈ (Package.naming descriptor n).mainPath.toOption.join, path.components ≠
          directory.components ++ n.asScript.segments.map fun segment =>
            .name (Utf8.encode segment) := by decide +kernel
    exact fun n hn => Package.not_mainIs (elsewhere n hn)
  · exact Package.not_mainIs (by decide +kernel)
  · exact Package.not_mainIs (by decide +kernel)

end ScriptTree
