import ScriptTree.Module.Resolver
import ScriptTree.Proofs.RelativeTexts
import ScriptTree.Proofs.TextOctets

/-!
# Bare names

A bare name is one or more segments of plain characters, perhaps after a dot and a slash. Joined to
the URL of a directory it names there the path that it names on the disk (`BareName.join_eq` and
`BareName.alike`), and what it is named after the base is a bare name again.
-/
namespace ScriptTree

/-! ## Characters -/

/-- Whether a character may stand in a segment of a bare name. -/
def isBareChar (c : Char) : Bool :=
  c.isAlphanum || "._~@-".toList.contains c

theorem isAlphanum_ascii {c : Char} (h : c.isAlphanum) : c.toNat < 0x80 := by
  have alphanumeric : c.isAlphanum = (decide ('A'.val ≤ c.val ∧ c.val ≤ 'Z'.val) ||
      (decide ('a'.val ≤ c.val) && decide (c.val ≤ 'z'.val)) ||
      (decide ('0'.val ≤ c.val) && decide (c.val ≤ '9'.val))) := rfl
  simp only [alphanumeric, Bool.or_eq_true, Bool.and_eq_true, decide_eq_true_eq] at h
  rcases h with (⟨-, h⟩ | ⟨-, h⟩) | ⟨-, h⟩
  · exact Nat.lt_of_le_of_lt h (by decide)
  · exact Nat.lt_of_le_of_lt h (by decide)
  · exact Nat.lt_of_le_of_lt h (by decide)

theorem isBareChar_ascii {c : Char} (h : isBareChar c) : c.toNat < 0x80 := by
  rw [isBareChar, Bool.or_eq_true, List.contains_iff_mem] at h
  rcases h with h | h
  · exact isAlphanum_ascii h
  · have all : ∀ c ∈ "._~@-".toList, c.toNat < 0x80 := by simp
    exact all c h

/-- The characters that mean something in a URL or in a path. -/
def marks : List Char := ['\t', '\n', '\r', ':', '#', '?', '\\', '/', '%', '|']

theorem isBareChar_plain {c : Char} (h : isBareChar c) :
    Percent.inPath c = false ∧ Url.isPadding c = false ∧ c ∉ marks := by
  have all : isBareChar c → Percent.inPath c = false ∧ Url.isPadding c = false ∧ c ∉ marks :=
    Utf8.forall_below (by decide) c (isBareChar_ascii h)
  exact all h

/-! ## Texts without marks -/

namespace Percent

theorem encode_eq_self {set : Char → Bool} {text : List Char}
    (h : ∀ c ∈ text, c.toNat < 0x80 ∧ set c = false) : encode set text = text := by
  induction text with
  | nil => rfl
  | cons c text ih =>
    obtain ⟨small, plain⟩ := h c List.mem_cons_self
    rw [encode_cons_plain small plain, ih fun c hc => h c (List.mem_cons_of_mem _ hc)]

end Percent

namespace Url

theorem cut_of_notMem {mark : Char} {text : List Char} (h : mark ∉ text) :
    cut mark text = (text, none) := by
  induction text with
  | nil => rfl
  | cons c text ih =>
    rw [List.mem_cons, not_or] at h
    rw [cut, if_neg (Ne.symm h.1), ih h.2]

theorem plainDots_eq_self {text : List Char} (h : ¬Percent.HasCode text) : plainDots text = text := by
  induction text with
  | nil => rw [plainDots]
  | cons c text ih =>
    have later := ih (Percent.not_hasCode_of_cons h)
    unfold plainDots
    split
    · next other rest same =>
      obtain ⟨rfl, rfl⟩ := List.cons.inj same
      have noDot : ¬(other = 'e' ∨ other = 'E') := fun dot => by
        refine h ⟨_, List.suffix_refl _, '2', other, rest, rfl, ⟨2, by decide⟩, 14, ?_⟩
        rcases dot with rfl | rfl <;> decide
      have step : plainDots ('2' :: other :: rest) = '2' :: plainDots (other :: rest) := by
        rw [plainDots]
        intro _ _ e
        cases e
      rw [if_neg noDot, ← step, later]
    · next same =>
      obtain ⟨rfl, rfl⟩ := List.cons.inj same
      rw [later]
    · next same => cases same

theorem isDrive_of_notMem {text : List Char} (colon : ':' ∉ text) (bar : '|' ∉ text) :
    isDrive text = false := by
  unfold isDrive
  split
  · next c mark =>
    simp only [List.mem_cons, List.not_mem_nil, or_false, not_or] at colon bar
    simp [Ne.symm colon.2, Ne.symm bar.2]
  · rfl

/-- A text without line breaks and tabs is clean if there is no padding at its ends. -/
theorem clean_of_ends {text : List Char} (first : ∀ c ∈ text.head?, isPadding c = false)
    (last : ∀ c ∈ text.getLast?, isPadding c = false)
    (h : ∀ c ∈ text, c ≠ '\t' ∧ c ≠ '\n' ∧ c ≠ '\r') : clean text = text := by
  have keep {l : List Char} (hl : ∀ c ∈ l.head?, isPadding c = false) :
      l.dropWhile isPadding = l := by
    cases l with
    | nil => rfl
    | cons c l => rw [List.dropWhile_cons, hl c rfl, if_neg (by simp)]
  unfold clean
  rw [keep first, keep fun c hc => last c (List.head?_reverse ▸ hc), List.reverse_reverse]
  refine List.filter_eq_self.2 fun c hc => ?_
  obtain ⟨tab, feed, ret⟩ := h c hc
  simp [tab, feed, ret]

/-- A text without padding, line breaks and tabs is clean. -/
theorem clean_eq_self {text : List Char}
    (h : ∀ c ∈ text, isPadding c = false ∧ c ≠ '\t' ∧ c ≠ '\n' ∧ c ≠ '\r') :
    clean text = text :=
  clean_of_ends (fun c hc => (h c (List.mem_of_head? hc)).1)
    (fun c hc => (h c (List.mem_of_getLast? hc)).1) fun c hc => (h c hc).2

end Url

/-! ## Texts of plain characters and slashes -/

theorem bare_notMem {mark : Char} (hm : mark ∈ marks) {text : List Char}
    (h : ∀ c ∈ text, isBareChar c) : mark ∉ text := fun hc =>
  (isBareChar_plain (h mark hc)).2.2 hm

/-- Plain characters stay as they are in a URL. -/
theorem encode_bare {text : List Char} (h : ∀ c ∈ text, isBareChar c) :
    Percent.encode Percent.inPath text = text :=
  Percent.encode_eq_self fun c hc => ⟨isBareChar_ascii (h c hc), (isBareChar_plain (h c hc)).1⟩

/-- Whether a text has only plain characters and slashes. -/
def IsPlainText (text : List Char) : Prop :=
  ∀ c ∈ text, isBareChar c ∨ c = '/'

namespace IsPlainText

variable {text : List Char} (h : IsPlainText text)
include h

theorem mark_notMem {mark : Char} (hm : mark ∈ marks) (slash : mark ≠ '/') : mark ∉ text := by
  intro hc
  rcases h mark hc with bare | e
  · exact (isBareChar_plain bare).2.2 hm
  · exact slash e

theorem bare_of_mem_pieces {piece : List Char} (hp : piece ∈ Text.pieces '/' text) :
    ∀ c ∈ piece, isBareChar c := by
  intro c hc
  have mem : c ∈ text := by
    rw [← Text.join_pieces '/' text]
    exact (Text.infix_join_of_mem '/' hp).subset hc
  refine (h c mem).resolve_right ?_
  rintro rfl
  exact Text.notMem_of_mem_pieces hp hc

theorem clean_eq : Url.clean text = text := by
  refine Url.clean_eq_self fun c hc => ⟨?_, ?_, ?_, ?_⟩
  · rcases h c hc with bare | rfl
    · exact (isBareChar_plain bare).2.1
    · decide
  · exact fun e => h.mark_notMem (by decide) (by decide) (e ▸ hc)
  · exact fun e => h.mark_notMem (by decide) (by decide) (e ▸ hc)
  · exact fun e => h.mark_notMem (by decide) (by decide) (e ▸ hc)

theorem ofText_eq : Url.Parts.ofText text = ⟨text, none, none⟩ := by
  have hash : '#' ∉ text := h.mark_notMem (by decide) (by decide)
  have question : '?' ∉ text := h.mark_notMem (by decide) (by decide)
  simp only [Url.Parts.ofText, Url.cut_of_notMem hash, Url.cut_of_notMem question]

theorem innerPieces_eq : Url.innerPieces text = Text.pieces '/' text := by
  have straight : Url.straighten Url.fileScheme text = text := by
    rw [Url.straighten, if_pos (by decide)]
    refine (List.map_congr_left fun c hc => ?_).trans (List.map_id _)
    exact if_neg fun e => h.mark_notMem (by decide) (by decide) (e ▸ hc)
  rw [Url.innerPieces, h.clean_eq, h.ofText_eq]
  exact congrArg _ straight

/-- Such a text is relative to a directory if it starts with a plain character. -/
theorem isRelativePath {c : Char} {rest : List Char} (start : text = c :: rest)
    (bare : isBareChar c) : Url.IsRelativePath text := by
  have plain := (isBareChar_plain bare).2.2
  have location : (Url.Parts.ofText (Url.clean text)).location = text := by
    rw [h.clean_eq, h.ofText_eq]
  refine ⟨?_, ?_, ?_, ?_⟩
  · rw [h.clean_eq, Url.scheme?, Url.cut_of_notMem (h.mark_notMem (by decide) (by decide)), start]
  · rw [location, start]
    exact List.cons_ne_nil c rest
  · have slash : c ≠ '/' := fun e => plain (by rw [e]; decide)
    have backslash : c ≠ '\\' := fun e => plain (by rw [e]; decide)
    rw [location, start]
    simp [Url.isSlash, slash, backslash]
  · rw [location]
    refine Url.isDrive_of_notMem ?_ ?_
    · exact fun hc => h.mark_notMem (by decide) (by decide) ((List.takeWhile_sublist _).subset hc)
    · exact fun hc => h.mark_notMem (by decide) (by decide) ((List.takeWhile_sublist _).subset hc)

/-- Such a text may stand in a URL. -/
theorem isReference (nonempty : text ≠ []) : Resolver.isReference text := by
  have one {c : Char} (hc : isBareChar c ∨ c = '/') : Resolver.isReference [c] := by
    rcases hc with bare | rfl
    · have all : isBareChar c → Resolver.isReference [c] :=
        Utf8.forall_below (by decide) c (isBareChar_ascii bare)
      exact all bare
    · decide
  rw [Resolver.isReference, Bool.and_eq_true, List.all_eq_true]
  refine ⟨by simp [nonempty], fun c hc => ?_⟩
  simpa [Resolver.isReference] using one (h c hc)

end IsPlainText

/-! ## Paths that texts write -/

namespace Path

/-- A slash is written for a slash only. -/
theorem slash_notMem_encode {text : List Char} (h : '/' ∉ text) : slash ∉ Utf8.encode text := by
  intro hb
  obtain ⟨c, hc, hb⟩ := List.mem_flatMap.1 hb
  have same : slash.toNat = c.toNat := Utf8.toNat_of_mem_encodeChar (by decide) hb
  have char : slash.toNat = '/'.toNat := by decide
  exact h (Char.toNat_inj.1 (same.symm.trans char) ▸ hc)

theorem encode_join (names : List (List Char)) :
    Utf8.encode (Text.join '/' names) = Text.join slash (names.map Utf8.encode) := by
  cases names with
  | nil => rfl
  | cons first others =>
    have code : Utf8.encodeChar '/' = [slash] := by decide
    rw [Text.join_eq_flatMap, List.map_cons, Text.join_eq_flatMap, Utf8.encode,
      List.flatMap_append, List.flatMap_map, List.flatMap_assoc]
    simp only [List.flatMap_cons, code]
    rfl

/-- The parts of a path are those of its text. -/
theorem parts_ofText (text : List Char) :
    (ofText text).parts = (Text.pieces '/' text).map Utf8.encode := by
  have octets : (ofText text).octets = Text.join slash ((Text.pieces '/' text).map Utf8.encode) := by
    rw [← encode_join, Text.join_pieces, ofText]
  rw [parts, octets]
  refine Text.pieces_join (by simp [Text.pieces_ne_nil]) fun part hp => ?_
  obtain ⟨piece, hpiece, rfl⟩ := List.mem_map.1 hp
  exact slash_notMem_encode (Text.notMem_of_mem_pieces hpiece)

end Path

/-! ## Suffixes of paths -/

/-- A suffix without slashes is one of what follows a slash. -/
theorem isSuffixOf_append {suffix : List Char} (h : '/' ∉ suffix) (before text : List Char) :
    suffix.isSuffixOf (before ++ '/' :: text) = suffix.isSuffixOf text := by
  rw [Bool.eq_iff_iff, List.isSuffixOf_iff_suffix, List.isSuffixOf_iff_suffix]
  constructor
  · intro hs
    rcases List.suffix_or_suffix_of_suffix hs (List.suffix_append before _) with hs | hs
    · rcases List.suffix_cons_iff.1 hs with rfl | hs
      · exact absurd List.mem_cons_self h
      · exact hs
    · exact absurd (hs.subset List.mem_cons_self) h
  · exact fun hs => hs.trans ((List.suffix_cons _ _).trans (List.suffix_append _ _))

theorem slash_notMem_scriptSuffix : '/' ∉ scriptSuffix := by
  decide

theorem slash_notMem_dataSuffix : '/' ∉ dataSuffix := by
  decide

/-- A path ends like its last part. -/
theorem Path.isSuffixOf_toText {p : Path} (absolute : p.isAbsolute) {suffix : List Char}
    (h : '/' ∉ suffix) :
    suffix.isSuffixOf p.toText = suffix.isSuffixOf (Utf8.decodeLossy p.last) := by
  obtain ⟨front, octets⟩ := octets_eq_append_last absolute
  have ascii : slash.toNat < 0x80 := by decide
  have char : Char.ofNat slash.toNat = '/' := by decide
  rw [toText, octets, Utf8.decodeLossy_append ascii, char, isSuffixOf_append h]

theorem Path.hasModuleSuffix_toText {p : Path} (absolute : p.isAbsolute) :
    hasModuleSuffix p.toText = hasModuleSuffix (Utf8.decodeLossy p.last) := by
  rw [hasModuleSuffix, isSuffixOf_toText absolute slash_notMem_scriptSuffix,
    isSuffixOf_toText absolute slash_notMem_dataSuffix, hasModuleSuffix]

/-! ## Names -/

/-- A segment of a bare name. -/
def IsBareSegment (segment : List Char) : Prop :=
  (∀ c ∈ segment, isBareChar c) ∧ segment ≠ ['.'] ∧ segment ≠ ['.', '.']

instance : DecidablePred IsBareSegment := fun segment =>
  decidable_of_iff (segment.all isBareChar ∧ segment ≠ ['.'] ∧ segment ≠ ['.', '.'])
    (by rw [IsBareSegment, List.all_eq_true])

/-- Segments of plain characters, the first one not empty, perhaps after a dot. -/
structure BareName where
  dotted : Bool
  first : List Char
  others : List (List Char)
  plain : ∀ segment ∈ first :: others, IsBareSegment segment
  named : first ≠ []

namespace BareName

variable (n : BareName)

/-- The segments of a name. -/
def segments : List (List Char) :=
  n.first :: n.others

/-- The segments and the dot before them. -/
def pieces : List (List Char) :=
  if n.dotted then ['.'] :: n.segments else n.segments

/-- The text of a name. -/
def text : List Char :=
  Text.join '/' n.pieces

/-- The path that a name writes. -/
def path : Path :=
  .ofText n.text

/-- The same segments without the dot. -/
def undotted : BareName :=
  { n with dotted := false }

theorem pieces_ne_nil : n.pieces ≠ [] := by
  unfold pieces segments
  split <;> simp

theorem isBareChar_of_mem_pieces {piece : List Char} (h : piece ∈ n.pieces) :
    ∀ c ∈ piece, isBareChar c := by
  have plain : ∀ segment ∈ n.segments, ∀ c ∈ segment, isBareChar c :=
    fun segment hs => (n.plain segment hs).1
  unfold pieces at h
  split at h
  · rcases List.mem_cons.1 h with rfl | h
    · exact List.all_eq_true.1 (by decide)
    · exact plain piece h
  · exact plain piece h

theorem slash_notMem {piece : List Char} (h : piece ∈ n.pieces) : '/' ∉ piece := fun hc =>
  (isBareChar_plain (n.isBareChar_of_mem_pieces h _ hc)).2.2 (by decide)

theorem pieces_text : Text.pieces '/' n.text = n.pieces :=
  Text.pieces_join n.pieces_ne_nil fun _ => n.slash_notMem

theorem mem_text {c : Char} (h : c ∈ n.text) : isBareChar c ∨ c = '/' := by
  rcases Text.mem_join h with rfl | ⟨piece, hp, hc⟩
  · exact .inr rfl
  · exact .inl (n.isBareChar_of_mem_pieces hp c hc)

theorem isPlainText : IsPlainText n.text := fun _ => n.mem_text

/-- A name starts with a plain character. -/
theorem exists_cons : ∃ c rest, n.text = c :: rest ∧ isBareChar c := by
  obtain ⟨c, first, hfirst⟩ := List.exists_cons_of_ne_nil n.named
  have bare : isBareChar c := (n.plain n.first List.mem_cons_self).1 c (by simp [hfirst])
  unfold text pieces segments
  split
  · exact ⟨'.', _, Text.join_eq_flatMap '/' ['.'] _, by decide⟩
  · exact ⟨c, _, by rw [Text.join_eq_flatMap, hfirst, List.cons_append], bare⟩

theorem isRelativePath : Url.IsRelativePath n.text := by
  obtain ⟨c, rest, start, bare⟩ := n.exists_cons
  exact n.isPlainText.isRelativePath start bare

theorem isReference_text : Resolver.isReference n.text := by
  obtain ⟨c, rest, start, -⟩ := n.exists_cons
  exact n.isPlainText.isReference (start ▸ List.cons_ne_nil c rest)

theorem innerPieces_text : Url.innerPieces n.text = n.pieces :=
  n.isPlainText.innerPieces_eq.trans n.pieces_text

theorem mark_notMem_segment {segment : List Char} (h : segment ∈ n.segments) {mark : Char}
    (hm : mark ∈ marks) : mark ∉ segment :=
  bare_notMem hm (n.plain segment h).1

/-- Below a directory a name stands for its segments. -/
theorem descend_pieces (scheme : List Char) (directory : List (List Char)) :
    Url.descend scheme directory n.pieces = directory ++ n.segments := by
  have down : Url.descend scheme directory n.segments = directory ++ n.segments := by
    have same : n.segments.map (Percent.encode Percent.inPath) = n.segments :=
      (List.map_congr_left fun segment hs => encode_bare (n.plain segment hs).1).trans (List.map_id _)
    rw [Url.descend_plain, same]
    intro segment hs
    have percent : '%' ∉ segment := n.mark_notMem_segment hs (by decide)
    rw [Url.plainDots_eq_self (Percent.not_hasCode_of_notMem percent)]
    refine ⟨(n.plain segment hs).2.2, (n.plain segment hs).2.1, ?_⟩
    exact Url.isDrive_of_notMem (n.mark_notMem_segment hs (by decide))
      (n.mark_notMem_segment hs (by decide))
  unfold pieces
  split
  · rw [Url.descend, ← down]
    simp [Url.plainDots, segments]
  · exact down

/-- Joined to the URL of a directory, a name adds its segments. -/
theorem join_eq (directory : Path) :
    (Url.ofSegments (Url.fileNames directory ++ [[]])).join n.text =
      .ok (.ofSegments (Url.fileNames directory ++ n.segments)) := by
  have path : Url.pathOf Url.fileScheme (Url.fileNames directory ++ n.segments) =
      .names (Url.fileNames directory ++ n.segments) := by
    by_cases named : directory.names = []
    · have first := n.named
      simp [Url.fileNames, named, Url.pathOf, segments, first]
    · exact Url.pathOf_fileNames named n.segments
  rw [Url.join_directory _ n.isRelativePath, innerPieces_text, descend_pieces, path,
    n.isPlainText.clean_eq, n.isPlainText.ofText_eq]
  rfl

/-- What a name is called after the URL of a directory. -/
theorem relativeName?_eq (directory : Path) :
    Module.relativeName? (.ofSegments (Url.fileNames directory ++ n.segments))
      (.ofSegments (Url.fileNames directory ++ [[]])) = some n.undotted.text := by
  have text (names : List (List Char)) (h : names ≠ []) : (Url.ofSegments names).toText =
      "file://".toList ++ names.flatMap ('/' :: ·) := by
    cases names with
    | nil => exact absurd rfl h
    | cons first others =>
      simp [Url.toText, Url.ofSegments, Url.originText, Url.localAuthority, Authority.ofHost,
        Authority.toText, UrlPath.toText, Url.fileScheme]
  have start := text (Url.fileNames directory ++ [[]]) (by simp)
  have whole := text (Url.fileNames directory ++ n.segments) (by simp [segments])
  have tail : n.segments.flatMap ('/' :: ·) = '/' :: n.undotted.text := by
    rw [BareName.text, pieces, undotted, if_neg (by simp), segments, segments, Text.join_eq_flatMap]
    rfl
  have split : (Url.ofSegments (Url.fileNames directory ++ n.segments)).toText =
      (Url.ofSegments (Url.fileNames directory ++ [[]])).toText ++ n.undotted.text := by
    rw [start, whole, List.flatMap_append, List.flatMap_append, tail]
    simp
  obtain ⟨c, rest, hc, -⟩ := n.undotted.exists_cons
  unfold Module.relativeName?
  simp only [split]
  rw [if_pos ⟨List.isPrefixOf_iff_prefix.2 (List.prefix_append _ _), by simp [hc]⟩,
    List.drop_left]

theorem segments_undotted : n.undotted.segments = n.segments :=
  rfl

/-! ## Paths -/

theorem toNat_octet {c : Char} (h : isBareChar c) : (UInt8.ofNat c.toNat).toNat = c.toNat :=
  Utf8.toNat_ofNat_ascii (isBareChar_ascii h)

theorem mark_notMem_encode {text : List Char} (h : ∀ c ∈ text, isBareChar c) {mark : Char}
    (hm : mark ∈ marks) : UInt8.ofNat mark.toNat ∉ Utf8.encode text := by
  intro hb
  obtain ⟨c, hc, hb⟩ := List.mem_flatMap.1 hb
  have bare := h c hc
  rw [Utf8.encodeChar_ascii (isBareChar_ascii bare), List.mem_singleton] at hb
  have ascii : ∀ mark ∈ marks, mark.toNat < 0x80 := by simp [marks]
  have value := congrArg UInt8.toNat hb
  rw [Utf8.toNat_ofNat_ascii (ascii mark hm), toNat_octet bare] at value
  exact (isBareChar_plain bare).2.2 (Char.toNat_inj.1 value ▸ hm)

theorem slash_notMem_encode {text : List Char} (h : ∀ c ∈ text, isBareChar c) :
    Path.slash ∉ Utf8.encode text := by
  have slash : '/' ∈ marks := by decide
  exact mark_notMem_encode h slash

theorem parts_path : n.path.parts = n.pieces.map Utf8.encode := by
  rw [path, Path.parts_ofText, pieces_text]

theorem isAbsolute_path : n.path.isAbsolute = false := by
  obtain ⟨c, rest, hc, bare⟩ := n.exists_cons
  refine Bool.eq_false_iff.2 fun absolute => ?_
  obtain ⟨octets, ho⟩ := Path.octets_of_isAbsolute absolute
  have octet := Utf8.encodeChar_ascii (isBareChar_ascii bare)
  rw [path, Path.ofText, hc, Utf8.encode, List.flatMap_cons, octet] at ho
  have first : Path.slash ∉ Utf8.encode [c] := slash_notMem_encode (by simpa using bare)
  refine first ?_
  simp [Utf8.encode, octet, (List.cons.inj ho).1]

/-- The segments as parts of a path. -/
def segmentParts : List (List UInt8) :=
  n.segments.map Utf8.encode

theorem slash_notMem_segmentParts : ∀ part ∈ n.segmentParts, Path.slash ∉ part := by
  intro part hp
  obtain ⟨segment, hs, rfl⟩ := List.mem_map.1 hp
  exact slash_notMem_encode (n.plain segment hs).1

/-- The last segment of a name. -/
def lastSegment : List Char :=
  n.segments.getLast (List.cons_ne_nil _ _)

theorem lastSegment_mem : n.lastSegment ∈ n.segments :=
  List.getLast_mem _

theorem names_path : n.path.names = n.segmentParts.filter fun part => !Path.isVacant part := by
  rw [Path.names, parts_path, pieces, segmentParts]
  split
  · have dot : Path.isVacant (Utf8.encode ['.']) := by decide
    rw [List.map_cons, List.filter_cons, dot]
    rfl
  · rfl

theorem segments_eq : n.segments = n.segments.dropLast ++ [n.lastSegment] :=
  (List.dropLast_concat_getLast _).symm

theorem exists_pieces_eq : ∃ init, n.pieces = init ++ [n.lastSegment] := by
  unfold pieces
  split
  · exact ⟨['.'] :: n.segments.dropLast, congrArg _ n.segments_eq⟩
  · exact ⟨n.segments.dropLast, n.segments_eq⟩

theorem last_path : n.path.last = Utf8.encode n.lastSegment := by
  obtain ⟨init, hinit⟩ := n.exists_pieces_eq
  rw [Path.last, parts_path, hinit, List.map_append, List.map_singleton, List.getLastD_concat]

/-- The path below a directory that the URL of a name names. -/
def pathIn (directory : Path) : Path :=
  .ofParts (directory.names ++ n.segmentParts)

theorem localPath_eq (directory : Path) :
    Module.localPath (.ofSegments (Url.fileNames directory ++ n.segments)) =
      .ok (n.pathIn directory) := by
  have read : n.segments.map Percent.decode = n.segmentParts :=
    List.map_congr_left fun segment hs =>
      Percent.decode_eq_encode (Percent.not_hasCode_of_notMem (n.mark_notMem_segment hs (by decide)))
  have nonempty : Url.fileNames directory ++ n.segments ≠ [] := by simp [segments]
  have path := Url.toFilePath?_ofSegments nonempty
  rw [List.map_append, Url.map_decode_fileNames, read] at path
  simp only [Module.localPath, path]
  rfl

theorem slash_notMem_parts (directory : Path) :
    ∀ part ∈ directory.names ++ n.segmentParts, Path.slash ∉ part := by
  intro part hp
  rcases List.mem_append.1 hp with hp | hp
  · exact Path.slash_notMem_of_mem_names hp
  · exact n.slash_notMem_segmentParts part hp

/-- The parts of a name below a directory, the last one apart. -/
theorem exists_parts_eq (directory : Path) :
    ∃ init, directory.names ++ n.segmentParts = init ++ [Utf8.encode n.lastSegment] := by
  refine ⟨directory.names ++ n.segments.dropLast.map Utf8.encode, ?_⟩
  have parts := congrArg (List.map Utf8.encode) n.segments_eq
  rw [List.map_append, List.map_singleton] at parts
  rw [segmentParts, parts, List.append_assoc]

/-- A name does not end like a drive. -/
theorem endsInDrive_eq_false (directory : Path) :
    Url.endsInDrive ((directory.names ++ n.segmentParts).flatMap (Path.slash :: ·)) = false := by
  obtain ⟨init, hinit⟩ := n.exists_parts_eq directory
  have bare := (n.plain _ n.lastSegment_mem).1
  refine Bool.eq_false_iff.2 fun drive => ?_
  have last := Path.getLast?_of_endsInDrive drive
  rw [hinit, List.flatMap_append, List.flatMap_singleton, List.getLast?_append,
    List.getLast?_eq_some_getLast (List.cons_ne_nil _ _), Option.some_or] at last
  have mem := List.getLast_mem (List.cons_ne_nil Path.slash (Utf8.encode n.lastSegment))
  have colon : ':' ∈ marks := by decide
  have bar : '|' ∈ marks := by decide
  rcases last with e | e
  · rw [Option.some.inj e, List.mem_cons] at mem
    exact mem.elim (by decide) (mark_notMem_encode bare colon)
  · rw [Option.some.inj e, List.mem_cons] at mem
    exact mem.elim (by decide) (mark_notMem_encode bare bar)

theorem parts_ne_nil (directory : Path) : directory.names ++ n.segmentParts ≠ [] := by
  simp [segmentParts, segments]

theorem isAbsolute_pathIn (directory : Path) : (n.pathIn directory).isAbsolute :=
  Path.isAbsolute_ofParts (n.parts_ne_nil directory)

theorem last_pathIn (directory : Path) :
    (n.pathIn directory).last = Utf8.encode n.lastSegment := by
  obtain ⟨init, hinit⟩ := n.exists_parts_eq directory
  rw [pathIn, Path.last_ofParts (n.slash_notMem_parts directory) (n.parts_ne_nil directory)
    (n.endsInDrive_eq_false directory)]
  simp [hinit]

/-- What a name names on the disk and through URLs is the same. -/
theorem alike {directory : Path} (h : directory.isAbsolute) :
    (directory.join n.path).Alike (n.pathIn directory) where
  left := Path.isAbsolute_join n.isAbsolute_path h
  right := n.isAbsolute_pathIn directory
  names := by
    rw [Path.names_join n.isAbsolute_path h, names_path, pathIn,
      Path.names_ofParts (n.slash_notMem_parts directory), List.filter_append, Path.filter_names]
  last := by rw [Path.last_join n.isAbsolute_path h, last_path, last_pathIn]

/-! ## Suffixes -/

/-- A name ends like its last segment. -/
theorem isSuffixOf_text {suffix : List Char} (h : '/' ∉ suffix) :
    suffix.isSuffixOf n.text = suffix.isSuffixOf n.lastSegment := by
  obtain ⟨init, hinit⟩ := n.exists_pieces_eq
  rw [text, hinit]
  cases init with
  | nil => rfl
  | cons first init =>
    rw [List.cons_append, Text.join_eq_flatMap, List.flatMap_append, List.flatMap_singleton,
      ← List.append_assoc, isSuffixOf_append h]

theorem hasModuleSuffix_text : hasModuleSuffix n.text = hasModuleSuffix n.lastSegment := by
  rw [hasModuleSuffix, n.isSuffixOf_text slash_notMem_scriptSuffix,
    n.isSuffixOf_text slash_notMem_dataSuffix, hasModuleSuffix]

/-- The path of a name ends like the name. -/
theorem hasModuleSuffix_pathIn (directory : Path) :
    hasModuleSuffix (n.pathIn directory).toText = hasModuleSuffix n.text := by
  rw [Path.hasModuleSuffix_toText (n.isAbsolute_pathIn directory), last_pathIn,
    Utf8.decodeLossy_encode, hasModuleSuffix_text]

end BareName

end ScriptTree
