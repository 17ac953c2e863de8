import ScriptTree.Disk.Basic
import ScriptTree.Proofs.Results

/-!
# Paths by their parts

What a path says is in its `names`: the parts that are neither empty nor one dot. `Path.Alike` holds
of absolute paths with the same names and the same last part; such paths lead to the same entry of
every disk (`Disk.entry_congr`) and stay alike when something is put after them.
-/
namespace ScriptTree

/-! ## Lists cut at a separator -/

theorem Text.pieces_append_of_notMem {α : Type} [DecidableEq α] {separator : α} (a : List α)
    {b : List α} (hb : separator ∉ b) :
    ∃ init last, Text.pieces separator a = init ++ [last] ∧
      Text.pieces separator (a ++ b) = init ++ [last ++ b] := by
  induction a with
  | nil => exact ⟨[], [], rfl, pieces_of_notMem hb⟩
  | cons c a ih =>
    obtain ⟨init, last, ha, hab⟩ := ih
    by_cases hc : c = separator
    · subst hc
      refine ⟨[] :: init, last, ?_, ?_⟩
      · rw [pieces_cons_self, ha, List.cons_append]
      · rw [List.cons_append, pieces_cons_self, hab, List.cons_append]
    · obtain ⟨first, others, h, hcons⟩ := pieces_cons_of_ne hc a
      obtain ⟨first', others', h', hcons'⟩ := pieces_cons_of_ne hc (a ++ b)
      rw [List.cons_append, hcons, hcons']
      rw [ha] at h
      rw [hab] at h'
      cases init with
      | nil =>
        obtain ⟨rfl, rfl⟩ := List.cons.inj h
        obtain ⟨rfl, rfl⟩ := List.cons.inj h'
        exact ⟨[], c :: last, rfl, rfl⟩
      | cons part init =>
        obtain ⟨rfl, rfl⟩ := List.cons.inj h
        obtain ⟨rfl, rfl⟩ := List.cons.inj h'
        exact ⟨(c :: part) :: init, last, rfl, rfl⟩

theorem Text.join_eq_flatMap {α : Type} [DecidableEq α] (separator : α) (first : List α)
    (others : List (List α)) :
    Text.join separator (first :: others) = first ++ others.flatMap (separator :: ·) := by
  induction others generalizing first with
  | nil => simp [join]
  | cons next others ih => rw [join, ih, List.flatMap_cons, List.cons_append]
                           exact fun e => by cases e

theorem Text.infix_join_of_mem {α : Type} [DecidableEq α] (separator : α) {ps : List (List α)}
    {piece : List α} (hp : piece ∈ ps) : piece <:+: join separator ps := by
  obtain ⟨first, others, rfl⟩ := List.exists_cons_of_ne_nil (List.ne_nil_of_mem hp)
  rw [join_eq_flatMap]
  rcases List.mem_cons.1 hp with rfl | hp
  · exact (List.prefix_append _ _).isInfix
  · obtain ⟨before, after, rfl⟩ := List.append_of_mem hp
    exact ⟨first ++ before.flatMap (separator :: ·) ++ [separator],
      after.flatMap (separator :: ·), by simp⟩

namespace Path

/-- The parts of a path between its slashes. -/
def parts (p : Path) : List (List UInt8) :=
  Text.pieces slash p.octets

/-- The parts that say something. -/
def names (p : Path) : List (List UInt8) :=
  p.parts.filter fun part => !isVacant part

/-- The part after the last slash. -/
def last (p : Path) : List UInt8 :=
  p.parts.getLastD []

/-- The step of a part that says something. -/
def stepOf (part : List UInt8) : Component :=
  if part = [dot, dot] then .up else .name part

theorem parts_ne_nil (p : Path) : p.parts ≠ [] :=
  Text.pieces_ne_nil slash p.octets

theorem slash_notMem_of_mem_names {p : Path} {name : List UInt8} (h : name ∈ p.names) :
    slash ∉ name :=
  Text.notMem_of_mem_pieces (List.mem_filter.1 h).1

theorem isVacant_of_mem_names {p : Path} {name : List UInt8} (h : name ∈ p.names) :
    isVacant name = false := by
  simpa using (List.mem_filter.1 h).2

theorem ne_nil_of_mem_names {p : Path} {name : List UInt8} (h : name ∈ p.names) : name ≠ [] := by
  rintro rfl
  exact absurd (isVacant_of_mem_names h) (by decide)

theorem filterMap_component? (parts : List (List UInt8)) :
    parts.filterMap component? = (parts.filter fun part => !isVacant part).map stepOf := by
  induction parts with
  | nil => rfl
  | cons part parts ih =>
    by_cases vacant : isVacant part
    · simp [component?, vacant, ih]
    · have step : component? part = some (stepOf part) := by
        unfold component? stepOf
        rw [if_neg vacant]
        split <;> rfl
      simp [step, vacant, ih]

theorem octets_of_isAbsolute {p : Path} (h : p.isAbsolute) : ∃ rest, p.octets = slash :: rest := by
  obtain ⟨octets⟩ := p
  cases octets with
  | nil => exact absurd h (by decide)
  | cons b rest =>
    simp only [isAbsolute, List.head?_cons, beq_iff_eq, Option.some.injEq] at h
    exact ⟨rest, by rw [h]⟩

theorem components_of_isAbsolute {p : Path} (h : p.isAbsolute) :
    p.components = .root :: p.names.map stepOf := by
  simp only [components, h, if_true]
  rw [filterMap_component?]
  rfl

/-- The last part is the last name, or it says nothing. -/
theorem parts_eq (p : Path) : ∃ init, p.parts = init ++ [p.last] ∧
    p.names = (init.filter fun part => !isVacant part) ++
      if isVacant p.last then [] else [p.last] := by
  refine ⟨p.parts.dropLast, ?_, ?_⟩
  · rw [last, List.getLastD_eq_getLast?, List.getLast?_eq_some_getLast p.parts_ne_nil,
      Option.getD_some, List.dropLast_concat_getLast]
  · have split : p.parts = p.parts.dropLast ++ [p.last] := by
      rw [last, List.getLastD_eq_getLast?, List.getLast?_eq_some_getLast p.parts_ne_nil,
        Option.getD_some, List.dropLast_concat_getLast]
    have names := congrArg (List.filter fun part => !isVacant part) split
    rw [List.filter_append] at names
    rw [Path.names, names]
    cases h : isVacant p.last <;> simp [h]

/-- An absolute path ends in a slash and its last part. -/
theorem octets_eq_append_last {p : Path} (h : p.isAbsolute) :
    ∃ front, p.octets = front ++ slash :: p.last := by
  obtain ⟨rest, hrest⟩ := octets_of_isAbsolute h
  obtain ⟨init, hinit, -⟩ := p.parts_eq
  have joined := Text.join_pieces slash p.octets
  rw [← parts, hinit] at joined
  cases init with
  | nil =>
    have := Text.pieces_cons_self slash rest
    rw [← hrest, ← parts, hinit] at this
    exact absurd (List.cons.inj this).2.symm (Text.pieces_ne_nil slash rest)
  | cons first others =>
    rw [List.cons_append, Text.join_eq_flatMap, List.flatMap_append, List.flatMap_singleton,
      ← List.append_assoc] at joined
    exact ⟨_, joined.symm⟩

/-! ## Putting paths together -/

section

variable {base p : Path} (hp : p.isAbsolute = false)
include hp

theorem join_cases (hb : base.isAbsolute) :
    (∃ before, base.octets = before ++ [slash] ∧
      (base.join p).octets = before ++ slash :: p.octets) ∨
    (base.join p).octets = base.octets ++ slash :: p.octets := by
  obtain ⟨rest, hrest⟩ := octets_of_isAbsolute hb
  have nonempty : base.octets ≠ [] := by simp [hrest]
  unfold join
  rw [if_neg (by simp [hp])]
  by_cases closed : base.octets.getLast? = some slash
  · left
    obtain ⟨before, hbefore⟩ := List.getLast?_eq_some_iff.1 closed
    refine ⟨before, hbefore, ?_⟩
    rw [if_pos (.inr closed), hbefore, List.append_assoc]
    rfl
  · right
    rw [if_neg (not_or.2 ⟨nonempty, closed⟩)]

theorem isAbsolute_join (hb : base.isAbsolute) : (base.join p).isAbsolute := by
  obtain ⟨rest, hrest⟩ := octets_of_isAbsolute hb
  rcases join_cases hp hb with ⟨before, hbefore, h⟩ | h
  · cases before with
    | nil => simp [isAbsolute, h]
    | cons b before =>
      have : b = slash := by simpa [hrest] using (congrArg List.head? hbefore).symm
      simp [isAbsolute, h, this]
  · simp [isAbsolute, h, hrest]

theorem names_join (hb : base.isAbsolute) : (base.join p).names = base.names ++ p.names := by
  unfold names parts
  rcases join_cases hp hb with ⟨before, hbefore, h⟩ | h
  · rw [h, hbefore, Text.pieces_append, Text.pieces_append, List.filter_append,
      List.filter_append]
    simp [Text.pieces, isVacant]
  · rw [h, Text.pieces_append, List.filter_append]

theorem last_join (hb : base.isAbsolute) : (base.join p).last = p.last := by
  have append (before : List (List UInt8)) :
      (before ++ Text.pieces slash p.octets).getLastD [] = p.last := by
    obtain ⟨init, hp, -⟩ := p.parts_eq
    rw [← parts, hp, ← List.append_assoc, List.getLastD_concat]
  rcases join_cases hp hb with ⟨before, -, h⟩ | h
  · rw [last, parts, h, Text.pieces_append, append]
  · rw [last, parts, h, Text.pieces_append, append]

end

/-- What is put after a name becomes part of it. -/
theorem parts_extend {p : Path} {octets : List UInt8} (h : slash ∉ octets) :
    ∃ init, p.parts = init ++ [p.last] ∧ (p.extend octets).parts = init ++ [p.last ++ octets] := by
  obtain ⟨init, last, hp, hpe⟩ := Text.pieces_append_of_notMem p.octets h
  have hlast : p.last = last := by simp [Path.last, parts, hp]
  exact ⟨init, hlast ▸ hp, hlast ▸ hpe⟩

theorem last_extend {p : Path} {octets : List UInt8} (h : slash ∉ octets) :
    (p.extend octets).last = p.last ++ octets := by
  obtain ⟨init, -, hpe⟩ := parts_extend (p := p) h
  simp [last, hpe]

theorem isAbsolute_extend {p : Path} (octets : List UInt8) (h : p.isAbsolute) :
    (p.extend octets).isAbsolute := by
  obtain ⟨rest, hrest⟩ := octets_of_isAbsolute h
  simp [isAbsolute, extend, hrest]

/-! ## Paths that mean the same -/

/-- Absolute paths with the same names and the same part at the end. -/
structure Alike (p q : Path) : Prop where
  left : p.isAbsolute
  right : q.isAbsolute
  names : p.names = q.names
  last : p.last = q.last

namespace Alike

variable {p q : Path}

theorem join (h : Alike p q) {r : Path} (hr : r.isAbsolute = false) :
    Alike (p.join r) (q.join r) where
  left := isAbsolute_join hr h.left
  right := isAbsolute_join hr h.right
  names := by rw [names_join hr h.left, names_join hr h.right, h.names]
  last := by rw [last_join hr h.left, last_join hr h.right]

/-- The parts before the last one say the same too. -/
theorem init_eq (h : Alike p q) : ∃ init init', p.parts = init ++ [p.last] ∧
    q.parts = init' ++ [p.last] ∧
    (init.filter fun part => !isVacant part) = init'.filter fun part => !isVacant part := by
  obtain ⟨init, hp, hpn⟩ := p.parts_eq
  obtain ⟨init', hq, hqn⟩ := q.parts_eq
  have names := h.names
  rw [hpn, hqn, ← h.last] at names
  exact ⟨init, init', hp, h.last ▸ hq, List.append_cancel_right names⟩

theorem extend (h : Alike p q) {octets : List UInt8} (ho : slash ∉ octets) :
    Alike (p.extend octets) (q.extend octets) where
  left := isAbsolute_extend octets h.left
  right := isAbsolute_extend octets h.right
  names := by
    obtain ⟨init, init', hp, hq, same⟩ := h.init_eq
    obtain ⟨initp, hp', hpe⟩ := parts_extend (p := p) ho
    obtain ⟨initq, hq', hqe⟩ := parts_extend (p := q) ho
    rw [hp] at hp'
    rw [hq, h.last] at hq'
    obtain rfl := List.append_cancel_right hp'
    obtain rfl := List.append_cancel_right hq'
    rw [Path.names, Path.names, hpe, hqe, List.filter_append, List.filter_append, same, h.last]
  last := by rw [last_extend ho, last_extend ho, h.last]

end Alike

end Path

/-! ## Entries of a disk -/

namespace Disk

open ScriptTree.Path (isVacant slash)

/-- Before another part, a part that says nothing changes nothing: both want a directory. -/
theorem step_vacant {root : Entry} {place : Place} {part : List UInt8} (h : isVacant part)
    (next : List UInt8) :
    (step root place part >>= fun place => step root place next) = step root place next := by
  have none : Path.component? part = none := by simp [Path.component?, h]
  cases here : root.at? place with
  | none => simp [step, here, bind, Except.bind]
  | some entry =>
    cases entry with
    | file content => simp [step, here, bind, Except.bind]
    | directory entries =>
      have stays : step root place part = .ok place := by simp [step, here, none]
      rw [stays]
      rfl

/-- On the way to a last part only the parts that say something count. -/
theorem foldlM_step (root : Entry) (init : List (List UInt8)) (last : List UInt8) (place : Place) :
    (init ++ [last]).foldlM (step root) place =
      ((init.filter fun part => !isVacant part) ++ [last]).foldlM (step root) place := by
  induction init generalizing place with
  | nil => rfl
  | cons part init ih =>
    by_cases vacant : isVacant part
    · simp only [List.filter_cons, vacant, Bool.not_true, Bool.false_eq_true, if_false]
      rw [← ih]
      cases hrest : init ++ [last] with
      | nil => simp at hrest
      | cons next rest =>
        rw [List.cons_append, hrest, List.foldlM_cons]
        simp only [List.foldlM_cons]
        rw [← bind_assoc, step_vacant vacant]
    · simp only [List.filter_cons, vacant, Bool.not_false, if_true, List.cons_append,
        List.foldlM_cons]
      exact congrArg _ (funext ih)

theorem locate_of_isAbsolute (d : Disk) {p : Path} (h : p.isAbsolute) :
    d.locate p = p.parts.foldlM (step d.root) [] := by
  obtain ⟨rest, hrest⟩ := Path.octets_of_isAbsolute h
  have here : d.absolute p = p := by simp [absolute, Path.join, h]
  rw [locate, if_neg (by simp [hrest]), here]
  rfl

/-- Paths that are alike lead to one place. -/
theorem locate_congr (d : Disk) {p q : Path} (h : p.Alike q) : d.locate p = d.locate q := by
  obtain ⟨init, init', hp, hq, same⟩ := h.init_eq
  rw [locate_of_isAbsolute d h.left, locate_of_isAbsolute d h.right, hp, hq,
    foldlM_step d.root init, foldlM_step d.root init', same]

theorem entry_congr (d : Disk) {p q : Path} (h : p.Alike q) : d.entry p = d.entry q := by
  rw [entry, entry, locate_congr d h]

theorem isFile_congr (d : Disk) {p q : Path} (h : p.Alike q) : d.isFile p = d.isFile q := by
  rw [isFile, isFile, entry_congr d h]

theorem read_congr (d : Disk) {p q : Path} (h : p.Alike q) : d.read p = d.read q := by
  rw [read, read, entry_congr d h]

/-! ## Files -/

theorem entry_eq_ok {d : Disk} {p : Path} {e : Entry} :
    d.entry p = .ok e ↔ ∃ place, d.locate p = .ok place ∧ d.root.at? place = some e := by
  unfold entry
  simp only [bind_eq_ok]
  refine exists_congr fun place => and_congr_right fun _ => ?_
  cases d.root.at? place with
  | none => exact iff_of_false (fun h => nomatch h) fun h => nomatch h
  | some found =>
    exact ⟨fun h => congrArg some (Except.ok.inj h), fun h => congrArg Except.ok (Option.some.inj h)⟩

theorem isFile_iff {d : Disk} {p : Path} :
    d.isFile p = true ↔ ∃ content, d.entry p = .ok (.file content) := by
  unfold isFile
  split
  · next content h => exact iff_of_true rfl ⟨content, h⟩
  · next h => exact iff_of_false Bool.false_ne_true fun ⟨content, file⟩ => h content file

/-- Reading a file gives what it holds, or tells why it cannot be opened. -/
theorem read_of_entry {d : Disk} {p : Path} {content : Except DiskError (List UInt8)}
    (h : d.entry p = .ok (.file content)) : d.read p = content := by
  rw [read, h]
  rfl

theorem entry_of_read {d : Disk} {p : Path} {bytes : List UInt8} (h : d.read p = .ok bytes) :
    d.entry p = .ok (.file (.ok bytes)) := by
  obtain ⟨e, found, h⟩ := bind_eq_ok.1 h
  cases e with
  | file content => rw [found, show content = .ok bytes from h]
  | directory entries => cases h

/-- Only in a directory can a path go on. -/
theorem directory_of_step {root : Entry} {place next : Place} {part : List UInt8}
    (h : step root place part = .ok next) :
    ∃ entries, root.at? place = some (.directory entries) ∧ (isVacant part → next = place) := by
  unfold step at h
  split at h
  · next entries here =>
    refine ⟨entries, here, fun vacant => ?_⟩
    rw [Path.component?, if_pos vacant] at h
    exact (Except.ok.inj h).symm
  · cases h
  · cases h

/-- A path to a file does not end in a slash or a dot. -/
theorem isVacant_last_of_isFile {d : Disk} {p : Path} (h : p.isAbsolute) (file : d.isFile p) :
    isVacant p.last = false := by
  refine Bool.eq_false_iff.2 fun vacant => ?_
  obtain ⟨content, entry⟩ := isFile_iff.1 file
  obtain ⟨place, located, here⟩ := entry_eq_ok.1 entry
  obtain ⟨init, parts, -⟩ := p.parts_eq
  rw [locate_of_isAbsolute d h, parts, List.foldlM_append, bind_eq_ok] at located
  obtain ⟨before, -, last⟩ := located
  rw [List.foldlM_cons, bind_eq_ok] at last
  obtain ⟨after, step, ⟨⟩⟩ := last
  obtain ⟨entries, directory, stays⟩ := directory_of_step step
  rw [stays vacant, directory] at here
  cases here

/-- What lies below a path is in a directory, so nothing lies below a file. -/
theorem isFile_eq_false_of_join {d : Disk} {p name : Path} (h : p.isAbsolute)
    (relative : name.isAbsolute = false) (below : d.isFile (p.join name)) : d.isFile p = false := by
  refine Bool.eq_false_iff.2 fun file => ?_
  have solid := isVacant_last_of_isFile h file
  obtain ⟨content, entry⟩ := isFile_iff.1 file
  obtain ⟨place, located, here⟩ := entry_eq_ok.1 entry
  have parts : (p.join name).parts = p.parts ++ name.parts := by
    rcases Path.join_cases relative h with ⟨before, closed, -⟩ | open'
    · -- A path with a slash at its end leads to no file.
      have := Text.pieces_append slash before []
      rw [← closed, ← Path.parts] at this
      rw [Path.last, this] at solid
      simp [Text.pieces, isVacant] at solid
    · rw [Path.parts, open', Text.pieces_append, Path.parts, Path.parts]
  obtain ⟨_, entry⟩ := isFile_iff.1 below
  obtain ⟨_, walk, -⟩ := entry_eq_ok.1 entry
  rw [locate_of_isAbsolute d (Path.isAbsolute_join relative h), parts, List.foldlM_append,
    ← locate_of_isAbsolute d h, located, bind_eq_ok] at walk
  obtain ⟨_, ⟨⟩, rest⟩ := walk
  obtain ⟨first, others, hname⟩ := List.exists_cons_of_ne_nil name.parts_ne_nil
  rw [hname, List.foldlM_cons, bind_eq_ok] at rest
  obtain ⟨_, step, -⟩ := rest
  obtain ⟨_, directory, -⟩ := directory_of_step step
  rw [here] at directory
  cases directory

end Disk

end ScriptTree
