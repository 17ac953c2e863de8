import ScriptTree.Proofs.FilePaths
import ScriptTree.Proofs.PercentCodes
import ScriptTree.Url.FilePath

/-!
# Paths and their URLs

The URL of a path has its names as segments, each encoded, so paths with the same names have one URL
(`ofFilePath?_congr`). It names the path again, written with its names alone: `Path.rewritten`
(`toFilePath?_ofFilePath?`).
-/
namespace ScriptTree

namespace Path

/-- The path of parts, each after a slash. A path that ends like a drive gets a slash at its end. -/
def ofParts (parts : List (List UInt8)) : Path :=
  let octets := parts.flatMap (slash :: ·)
  ⟨if Url.endsInDrive octets then octets ++ [slash] else octets⟩

/-- A path as its URL names it: its names, each after a slash. -/
def rewritten (p : Path) : Path :=
  ofParts (if p.names = [] then [[]] else p.names)

section

variable {parts : List (List UInt8)}

theorem isAbsolute_ofParts (hne : parts ≠ []) : (ofParts parts).isAbsolute := by
  cases parts with
  | nil => exact absurd rfl hne
  | cons part parts =>
    simp only [ofParts, isAbsolute]
    split <;> simp

variable (hs : ∀ part ∈ parts, slash ∉ part)
include hs

theorem parts_ofParts : (ofParts parts).parts = [] :: parts ∨
    Url.endsInDrive (parts.flatMap (slash :: ·)) ∧
      (ofParts parts).parts = [] :: parts ++ [[]] := by
  have plain : Text.pieces slash (parts.flatMap (slash :: ·)) = [] :: parts := by
    have join := Text.join_eq_flatMap slash [] parts
    rw [List.nil_append] at join
    rw [← join]
    refine Text.pieces_join (List.cons_ne_nil _ _) fun part hp => ?_
    rcases List.mem_cons.1 hp with rfl | hp
    · exact List.not_mem_nil
    · exact hs part hp
  unfold ofParts Path.parts
  by_cases drive : Url.endsInDrive (parts.flatMap (slash :: ·))
  · right
    simp only [drive, if_true, true_and]
    rw [Text.pieces_append, plain]
    rfl
  · left
    simp only [drive, Bool.false_eq_true, if_false]
    exact plain

theorem names_ofParts : (ofParts parts).names = parts.filter fun part => !isVacant part := by
  rcases parts_ofParts hs with h | ⟨-, h⟩
  · simp [names, h, isVacant]
  · simp [names, h, isVacant]

theorem last_ofParts (hne : parts ≠ [])
    (drive : Url.endsInDrive (parts.flatMap (slash :: ·)) = false) :
    (ofParts parts).last = parts.getLast hne := by
  rcases parts_ofParts hs with h | ⟨h, -⟩
  · rw [last, h, List.getLastD_eq_getLast?, List.getLast?_cons,
      List.getLast?_eq_some_getLast hne]
    rfl
  · rw [drive] at h
    cases h

end

theorem filter_names (p : Path) : (p.names.filter fun part => !isVacant part) = p.names := by
  rw [names, List.filter_filter]
  simp

theorem isAbsolute_rewritten (p : Path) : p.rewritten.isAbsolute := by
  refine isAbsolute_ofParts ?_
  split
  · exact List.cons_ne_nil _ _
  · next h => exact h

/-- Writing a path with its names alone leaves the names. -/
theorem names_rewritten (p : Path) : p.rewritten.names = p.names := by
  unfold rewritten
  by_cases h : p.names = []
  · rw [if_pos h, h]
    decide
  · rw [if_neg h, names_ofParts fun part => slash_notMem_of_mem_names, filter_names]

theorem rewritten_congr {p q : Path} (h : p.names = q.names) : p.rewritten = q.rewritten := by
  rw [rewritten, rewritten, h]

theorem rewritten_rewritten (p : Path) : p.rewritten.rewritten = p.rewritten :=
  rewritten_congr p.names_rewritten

theorem components_rewritten {p : Path} (h : p.isAbsolute) :
    p.rewritten.components = p.components := by
  rw [components_of_isAbsolute h, components_of_isAbsolute p.isAbsolute_rewritten,
    names_rewritten]

/-- The octet after the letter of a drive is a colon or a bar. -/
theorem getLast?_of_endsInDrive {octets : List UInt8} (h : Url.endsInDrive octets) :
    octets.getLast? = some 0x3A ∨ octets.getLast? = some 0x7C := by
  unfold Url.endsInDrive at h
  split at h
  · next mark letter rest reversed _ =>
    have : octets.getLast? = some mark := by
      rw [← List.head?_reverse]
      simp [*]
    simp only [Bool.and_eq_true, Bool.or_eq_true, beq_iff_eq] at h
    rcases h.2 with rfl | rfl
    · exact .inl this
    · exact .inr this
  · cases h

theorem endsInDrive_of_getLast? {octets : List UInt8} {b : UInt8} (last : octets.getLast? = some b)
    (colon : b ≠ 0x3A) (bar : b ≠ 0x7C) : Url.endsInDrive octets = false := by
  refine Bool.eq_false_iff.2 fun drive => ?_
  rcases getLast?_of_endsInDrive drive with e | e
  · exact colon (Option.some.inj (last.symm.trans e))
  · exact bar (Option.some.inj (last.symm.trans e))

/-- Only the last part of a path can be a drive. -/
theorem endsInDrive_append (front part : List UInt8) :
    Url.endsInDrive (front ++ slash :: part) = Url.endsInDrive (slash :: part) := by
  unfold Url.endsInDrive
  rw [List.reverse_append, List.reverse_cons, List.append_assoc]
  match part.reverse with
  | [] => rcases front.reverse with _ | ⟨_, _ | _⟩ <;> simp [slash]
  | [mark] => cases front.reverse <;> rfl
  | mark :: letter :: others => cases others <;> rfl

/-- A path that ends in a name, but not like a drive, means the same as it is rewritten. -/
theorem alike_rewritten {p : Path} (h : p.isAbsolute) (firm : isVacant p.last = false)
    (noDrive : Url.endsInDrive (slash :: p.last) = false) : p.Alike p.rewritten := by
  obtain ⟨init, -, hnames⟩ := p.parts_eq
  rw [firm, if_neg Bool.false_ne_true] at hnames
  have nonempty : p.names ≠ [] := by simp [hnames]
  have last : p.names.getLast nonempty = p.last := by simp [hnames]
  have drive : Url.endsInDrive (p.names.flatMap (slash :: ·)) = false := by
    rw [hnames, List.flatMap_append, List.flatMap_singleton, endsInDrive_append, noDrive]
  refine ⟨h, p.isAbsolute_rewritten, p.names_rewritten.symm, ?_⟩
  rw [rewritten, if_neg nonempty,
    last_ofParts (fun part => slash_notMem_of_mem_names) nonempty drive, last]

end Path

namespace Url

/-- The names of a path as segments of a URL. -/
def fileNames (p : Path) : List (List Char) :=
  p.names.map (Percent.encodeOctets Percent.inFileName)

theorem fileSegment_stepOf (name : List UInt8) :
    fileSegment (Path.stepOf name) = Percent.encodeOctets Percent.inFileName name := by
  unfold Path.stepOf
  split
  · next h =>
    subst h
    decide
  · rfl

theorem ofFilePath?_eq {p : Path} (h : p.isAbsolute) :
    ofFilePath? p = some (ofSegments (if p.names = [] then [[]] else fileNames p)) := by
  have segments : (p.components.drop 1).map fileSegment = fileNames p := by
    rw [Path.components_of_isAbsolute h, List.drop_one, List.tail_cons, List.map_map, fileNames]
    exact List.map_congr_left fun name _ => fileSegment_stepOf name
  have empty : fileNames p = [] ↔ p.names = [] := by rw [fileNames, List.map_eq_nil_iff]
  rw [ofFilePath?, if_pos h]
  simp only [segments, empty]

/-- Absolute paths with the same names have one URL. -/
theorem ofFilePath?_congr {p q : Path} (hp : p.isAbsolute) (hq : q.isAbsolute)
    (h : p.names = q.names) : ofFilePath? p = ofFilePath? q := by
  rw [ofFilePath?_eq hp, ofFilePath?_eq hq, fileNames, fileNames, h]

theorem encodeOctets_eq_nil {set : Char → Bool} {octets : List UInt8}
    (h : Percent.encodeOctets set octets = []) : octets = [] := by
  cases octets with
  | nil => rfl
  | cons b octets =>
    rw [Percent.encodeOctets, List.flatMap_cons, List.append_eq_nil_iff] at h
    have := h.1
    unfold Percent.encodeOctet at this
    split at this
    · cases this
    · cases this

theorem ne_nil_of_mem_fileNames {p : Path} {segment : List Char} (h : segment ∈ fileNames p) :
    segment ≠ [] := by
  obtain ⟨name, hname, rfl⟩ := List.mem_map.1 h
  exact fun e => Path.ne_nil_of_mem_names hname (encodeOctets_eq_nil e)

/-- The URL of a directory ends in an empty segment. -/
theorem ofDirectoryPath?_eq {p : Path} (h : p.isAbsolute) :
    ofDirectoryPath? p = some (ofSegments (fileNames p ++ [[]])) := by
  rw [ofDirectoryPath?, ofFilePath?_eq h, Option.map_some]
  by_cases hn : p.names = []
  · rw [if_pos hn, fileNames, hn]
    rfl
  · rw [if_neg hn]
    have noSlash : (fileNames p).getLast? ≠ some [] := fun e =>
      ne_nil_of_mem_fileNames (List.mem_of_getLast? e) rfl
    unfold asDirectory ofSegments
    simp only [if_neg noSlash]

/-- The path of a URL with names is written by them, if its host is this machine. -/
theorem toFilePath?_names {segments : List (List Char)} (h : segments ≠ []) (scheme : List Char)
    (authority : Option Authority) (query fragment : Option (List Char)) :
    let host := (authority.map Authority.host).getD []
    toFilePath? ⟨scheme, authority, .names segments, query, fragment⟩ =
      if host = [] ∨ host = "localhost".toList then some (.ofParts (segments.map Percent.decode))
      else none := by
  cases segments with
  | nil => exact absurd rfl h
  | cons first others =>
    have octets : (first :: others).flatMap (fun segment => Path.slash :: Percent.decode segment) =
        ((first :: others).map Percent.decode).flatMap (Path.slash :: ·) := by
      rw [List.flatMap_map]
    unfold toFilePath?
    simp only [octets]
    rfl

theorem toFilePath?_ofSegments {segments : List (List Char)} (h : segments ≠ []) :
    toFilePath? (ofSegments segments) = some (.ofParts (segments.map Percent.decode)) :=
  (toFilePath?_names h fileScheme (some localAuthority) none none).trans (if_pos (.inl rfl))

theorem map_decode_fileNames (p : Path) : (fileNames p).map Percent.decode = p.names := by
  rw [fileNames, List.map_map]
  exact (List.map_congr_left fun name _ => Percent.decode_encodeOctets_inFileName name).trans
    (List.map_id _)

/-- The URL of a path names the path again. -/
theorem toFilePath?_ofFilePath? {p : Path} (h : p.isAbsolute) :
    (ofFilePath? p).bind toFilePath? = some p.rewritten := by
  rw [ofFilePath?_eq h, Option.bind_some, toFilePath?_ofSegments, Path.rewritten]
  · by_cases hn : p.names = []
    · rw [if_pos hn, if_pos hn]
      rfl
    · rw [if_neg hn, if_neg hn, map_decode_fileNames]
  · split
    · exact List.cons_ne_nil _ _
    · next hn => exact fun e => hn (List.map_eq_nil_iff.1 e)

theorem ofFilePath?_rewritten {p : Path} (h : p.isAbsolute) :
    ofFilePath? p.rewritten = ofFilePath? p :=
  ofFilePath?_congr p.isAbsolute_rewritten h p.names_rewritten

/-- The path of a URL is absolute. -/
theorem isAbsolute_of_toFilePath? {u : Url} {p : Path} (h : u.toFilePath? = some p) :
    p.isAbsolute := by
  unfold toFilePath? at h
  split at h
  · cases h
  · cases h
  · next segments nonempty _ =>
    simp only [Option.ite_none_right_eq_some, Option.some.injEq] at h
    obtain ⟨-, rfl⟩ := h
    cases segments with
    | nil => exact (nonempty rfl).elim
    | cons first others =>
      simp only [Path.isAbsolute]
      split <;> simp

/-- The path of a URL does not end like a drive: such a path gets a slash at its end. -/
theorem endsInDrive_of_toFilePath? {u : Url} {p : Path} (h : u.toFilePath? = some p) :
    endsInDrive p.octets = false := by
  unfold toFilePath? at h
  split at h
  · cases h
  · cases h
  · simp only [Option.ite_none_right_eq_some, Option.some.injEq] at h
    obtain ⟨-, rfl⟩ := h
    split
    · rw [Path.endsInDrive_append]
      rfl
    · next drive => exact Bool.eq_false_iff.2 drive

end Url

end ScriptTree
