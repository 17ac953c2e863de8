import ScriptTree.Files.Collection
import ScriptTree.Proofs.Ancestors

/-!
# Trees of files

The entries of a directory have different names, and such a name is a part of a path that leads one
step down (`Entry.isTree`). From where a path leads, the names that are put after it one by one lead
on, whatever way the path itself is written: from the root or from the working directory, with dots
or with a slash at its end (`Disk.entry_descend`).
-/
namespace ScriptTree

/-! ## Names put after a path -/

namespace Path

/-- Whether octets are a name: a part of a path that leads one step down. -/
def isName (name : List UInt8) : Bool :=
  component? name == some (.name name) && !name.contains slash

/-- A path with names put after it, one by one. -/
def descend (p : Path) (names : Place) : Path :=
  names.foldl (fun p name => p.join ⟨name⟩) p

/-- How a path begins: at the root, with a dot or with a name. -/
def start (p : Path) : List Component :=
  if p.isAbsolute then [.root] else if p.parts.head? = some [dot] then [.here] else []

/-- What stands between a path and another one that is put after it. -/
def glue (p : Path) : List UInt8 :=
  if p.octets = [] ∨ p.octets.getLast? = some slash then [] else [slash]

variable {base p q : Path} {name : List UInt8} {names : Place}

theorem components_eq (p : Path) : p.components = p.start ++ p.names.map stepOf := by
  rw [components, filterMap_component?]
  rfl

theorem octets_join (hq : q.isAbsolute = false) :
    (p.join q).octets = p.octets ++ p.glue ++ q.octets := by
  rw [join, if_neg (by simp [hq]), glue]
  split
  · rw [List.append_nil]
  · rw [List.append_assoc, List.singleton_append]

theorem isAbsolute_append {octets : List UInt8} (h : octets ≠ []) (more : List UInt8) :
    isAbsolute ⟨octets ++ more⟩ = isAbsolute ⟨octets⟩ := by
  rw [isAbsolute, isAbsolute, List.head?_append_of_ne_nil _ h]

/-- Paths are put together one after the other, whichever comes first. -/
theorem join_join (hp : p.octets ≠ []) (hq : q.isAbsolute = false) :
    base.join (p.join q) = (base.join p).join q := by
  have start : (p.join q).isAbsolute = p.isAbsolute := by
    show isAbsolute ⟨(p.join q).octets⟩ = _
    rw [octets_join hq, List.append_assoc, isAbsolute_append hp]
  by_cases absolute : p.isAbsolute
  · have both : base.join (p.join q) = p.join q := if_pos (start.trans absolute)
    have own : base.join p = p := if_pos absolute
    rw [both, own]
  · rw [Bool.not_eq_true] at absolute
    have joined := octets_join (p := base) absolute
    have glued : (base.join p).glue = p.glue := by
      rw [glue, glue, joined, List.getLast?_append_of_ne_nil _ hp]
      simp [hp]
    have octets : (base.join (p.join q)).octets = ((base.join p).join q).octets := by
      rw [octets_join (start.trans absolute), octets_join hq, octets_join hq, glued, joined]
      simp only [List.append_assoc]
    exact congrArg mk octets

/-! ### Single names -/

theorem component?_of_isName (h : isName name) : component? name = some (.name name) := by
  rw [isName, Bool.and_eq_true, beq_iff_eq] at h
  exact h.1

theorem slash_notMem_of_isName (h : isName name) : slash ∉ name := by
  rw [isName, Bool.and_eq_true] at h
  simpa using h.2

theorem isVacant_of_isName (h : isName name) : isVacant name = false := by
  have step := component?_of_isName h
  by_contra vacant
  rw [component?, if_pos (by simpa using vacant)] at step
  cases step

theorem stepOf_of_isName (h : isName name) : stepOf name = .name name := by
  have solid := isVacant_of_isName h
  have step := component?_of_isName h
  simp only [component?, solid, Bool.false_eq_true, if_false] at step
  rw [stepOf]
  split at step
  · cases step
  · next noUp => exact if_neg noUp

theorem isAbsolute_of_isName (h : isName name) : isAbsolute ⟨name⟩ = false := by
  cases name with
  | nil => rfl
  | cons b rest =>
    have first : b ≠ slash := fun e => slash_notMem_of_isName h (e ▸ List.mem_cons_self)
    simpa [isAbsolute] using first

section

variable (hp : p.octets ≠ []) (hn : isName name)
include hp hn

theorem octets_join_name_ne_nil : (p.join ⟨name⟩).octets ≠ [] := by
  rw [octets_join (isAbsolute_of_isName hn), List.append_assoc]
  exact List.append_ne_nil_of_left_ne_nil hp _

/-- After a path that is not empty a name is a part of its own. -/
theorem parts_join_name :
    (∃ before, p.parts = before ++ [[]] ∧ (p.join ⟨name⟩).parts = before ++ [name]) ∨
      (p.join ⟨name⟩).parts = p.parts ++ [name] := by
  have own : Text.pieces slash name = [name] := Text.pieces_of_notMem (slash_notMem_of_isName hn)
  have octets := octets_join (p := p) (isAbsolute_of_isName hn)
  by_cases closed : p.octets.getLast? = some slash
  · left
    obtain ⟨before, ends⟩ := List.getLast?_eq_some_iff.1 closed
    refine ⟨Text.pieces slash before, ?_, ?_⟩
    · rw [parts, ends, Text.pieces_append]
      rfl
    · rw [glue, if_pos (.inr closed), List.append_nil, ends, List.append_assoc] at octets
      rw [parts, octets, List.singleton_append, Text.pieces_append, own]
  · right
    rw [glue, if_neg (not_or.2 ⟨hp, closed⟩), List.append_assoc] at octets
    rw [parts, octets, List.singleton_append, Text.pieces_append, own]
    rfl

theorem start_join_name : (p.join ⟨name⟩).start = p.start := by
  have absolute : (p.join ⟨name⟩).isAbsolute = p.isAbsolute := by
    show isAbsolute ⟨(p.join ⟨name⟩).octets⟩ = _
    rw [octets_join (isAbsolute_of_isName hn), List.append_assoc, isAbsolute_append hp]
  have first : (p.join ⟨name⟩).parts.head? = some [dot] ↔ p.parts.head? = some [dot] := by
    rcases parts_join_name hp hn with ⟨before, closed, joined⟩ | joined
    · rw [closed, joined]
      cases before with
      | nil =>
        have solid := isVacant_of_isName hn
        have other : name ≠ [dot] := fun e => absurd (e ▸ solid) (by decide)
        simp [other]
      | cons => rfl
    · rw [joined, List.head?_append_of_ne_nil _ p.parts_ne_nil]
  simp only [start, absolute, first]

theorem names_join_name : (p.join ⟨name⟩).names = p.names ++ [name] := by
  have own : [name].filter (fun part => !isVacant part) = [name] := by
    simp [isVacant_of_isName hn]
  rcases parts_join_name hp hn with ⟨before, closed, joined⟩ | joined
  · rw [names, names, closed, joined, List.filter_append, List.filter_append, own]
    simp [isVacant]
  · rw [names, joined, List.filter_append, own]
    rfl

end

/-! ### One name after the other -/

theorem descend_append (p : Path) (names more : Place) :
    p.descend (names ++ more) = (p.descend names).descend more :=
  List.foldl_append

theorem descend_cons (p : Path) (name : List UInt8) (names : Place) :
    p.descend (name :: names) = (p.join ⟨name⟩).descend names :=
  rfl

/-- Names put after a path leave its beginning and are the last of its names. -/
theorem start_names_descend (hp : p.octets ≠ []) (hn : ∀ name ∈ names, isName name) :
    (p.descend names).octets ≠ [] ∧ (p.descend names).start = p.start ∧
      (p.descend names).names = p.names ++ names := by
  induction names generalizing p with
  | nil => exact ⟨hp, rfl, (List.append_nil _).symm⟩
  | cons name names ih =>
    rw [List.forall_mem_cons] at hn
    obtain ⟨octets, start, own⟩ := ih (octets_join_name_ne_nil hp hn.1) hn.2
    rw [descend_cons]
    refine ⟨octets, start.trans (start_join_name hp hn.1), ?_⟩
    rw [own, names_join_name hp hn.1, List.append_assoc, List.singleton_append]

theorem map_stepOf (hn : ∀ name ∈ names, isName name) : names.map stepOf = names.map .name :=
  List.map_congr_left fun name h => stepOf_of_isName (hn name h)

theorem components_descend (hp : p.octets ≠ []) (hn : ∀ name ∈ names, isName name) :
    (p.descend names).components = p.components ++ names.map .name := by
  obtain ⟨-, start, own⟩ := start_names_descend hp hn
  rw [components_eq, components_eq, start, own, List.map_append, map_stepOf hn, List.append_assoc]

end Path

/-! ## Entries and their names -/

namespace Entry

mutual

/-- Whether every directory of an entry has different names for its entries, all of which are names
that a path can write. -/
def isTree : Entry → Bool
  | .file _ => true
  | .directory entries => decide (entries.map Prod.fst).Nodup && areTrees entries

/-- Whether entries have names that a path can write and so have those below them. -/
def areTrees : List (List UInt8 × Entry) → Bool
  | [] => true
  | (name, entry) :: rest => Path.isName name && isTree entry && areTrees rest

end

theorem of_mem_areTrees {entries : List (List UInt8 × Entry)} (h : areTrees entries)
    {name : List UInt8} {entry : Entry} (mem : (name, entry) ∈ entries) :
    Path.isName name ∧ entry.isTree := by
  induction entries with
  | nil => cases mem
  | cons first rest ih =>
    obtain ⟨other, below⟩ := first
    simp only [areTrees, Bool.and_eq_true] at h
    rcases List.mem_cons.1 mem with e | mem
    · cases e
      exact h.1
    · exact ih h.2 mem

/-- An entry is in a directory if and only if it is found by its name there. -/
theorem lookup_eq_some_iff {entries : List (List UInt8 × Entry)}
    (distinct : (entries.map Prod.fst).Nodup) {name : List UInt8} {entry : Entry} :
    entries.lookup name = some entry ↔ (name, entry) ∈ entries := by
  induction entries with
  | nil => simp
  | cons first rest ih =>
    obtain ⟨other, below⟩ := first
    simp only [List.map_cons, List.nodup_cons] at distinct
    rw [List.lookup_cons, List.mem_cons, Prod.mk.injEq]
    by_cases same : name = other
    · subst same
      have once : (name, entry) ∉ rest := by
        intro mem
        exact distinct.1 (List.mem_map_of_mem (f := Prod.fst) mem)
      simp [once, eq_comm]
    · simp only [beq_eq_false_iff_ne.2 same, same, false_and, false_or]
      exact ih distinct.2

end Entry

/-! ## Following names -/

namespace Disk

variable {d : Disk} {p : Path} {root : Entry} {place next : Place} {name : List UInt8}
  {names : Place} {e : Entry}

theorem octets_ne_nil_of_locate (h : d.locate p = .ok place) : p.octets ≠ [] := by
  rintro none
  rw [locate, if_pos none] at h
  cases h

theorem at?_isSome_of_append (h : (root.at? (place ++ names)).isSome) : (root.at? place).isSome := by
  rw [Entry.at?_append] at h
  exact Option.isSome_of_isSome_bind h

/-- A step leads to an entry. -/
theorem at?_isSome_of_step {part : List UInt8} (h : step root place part = .ok next) :
    (root.at? next).isSome := by
  obtain ⟨entries, here, -⟩ := directory_of_step h
  simp only [step, here] at h
  split at h
  · cases h
    cases place using List.reverseRecOn with
    | nil => exact Option.isSome_of_eq_some here
    | append_singleton above last =>
      have above : (root.at? (above ++ [last])).isSome := Option.isSome_of_eq_some here
      rw [List.dropLast_concat]
      exact at?_isSome_of_append above
  · next name _ =>
    split at h
    · next found =>
      cases h
      rw [Entry.at?_append, here]
      obtain ⟨entry, found⟩ := Option.isSome_iff_exists.1 found
      simp [Entry.at?, found]
    · cases h
  · cases h
    exact Option.isSome_of_eq_some here

theorem at?_isSome_of_foldlM {parts : List (List UInt8)} (here : (root.at? place).isSome)
    (h : parts.foldlM (step root) place = .ok next) : (root.at? next).isSome := by
  induction parts generalizing place with
  | nil => exact Except.ok.inj h ▸ here
  | cons part rest ih =>
    obtain ⟨mid, first, h⟩ := bind_eq_ok.1 h
    exact ih (at?_isSome_of_step first) h

/-- A path that leads somewhere leads to an entry. -/
theorem at?_isSome_of_locate (h : d.locate p = .ok place) : (d.root.at? place).isSome := by
  have nonempty := octets_ne_nil_of_locate h
  rw [locate, if_neg nonempty] at h
  exact at?_isSome_of_foldlM rfl h

theorem contains_iff : d.contains p = true ↔ ∃ e, d.entry p = .ok e := by
  rw [contains]
  constructor
  · intro h
    cases located : d.locate p with
    | error e =>
      rw [located] at h
      cases h
    | ok place =>
      obtain ⟨e, here⟩ := Option.isSome_iff_exists.1 (at?_isSome_of_locate located)
      exact ⟨e, entry_eq_ok.2 ⟨place, located, here⟩⟩
  · rintro ⟨e, found⟩
    obtain ⟨place, located, -⟩ := entry_eq_ok.1 found
    rw [located]
    rfl

/-- A name leads one step down, if an entry is there. -/
theorem step_name (hn : Path.isName name) :
    step root place name = .ok next ↔ next = place ++ [name] ∧ (root.at? next).isSome := by
  constructor
  · intro h
    refine ⟨?_, at?_isSome_of_step h⟩
    obtain ⟨entries, here, -⟩ := directory_of_step h
    simp only [step, here, Path.component?_of_isName hn] at h
    split at h
    · exact (Except.ok.inj h).symm
    · cases h
  · rintro ⟨rfl, there⟩
    rw [Entry.at?_append] at there
    cases here : root.at? place with
    | none => simp [here] at there
    | some entry =>
      cases entry with
      | file content => simp [here, Entry.at?] at there
      | directory entries =>
        have found : (entries.lookup name).isSome := by
          rw [here, Option.bind_some, Entry.at?] at there
          exact Option.isSome_of_isSome_bind there
        simp [step, here, Path.component?_of_isName hn, found]

theorem foldlM_step_names (here : (root.at? place).isSome) (hn : ∀ name ∈ names, Path.isName name) :
    names.foldlM (step root) place = .ok next ↔
      next = place ++ names ∧ (root.at? next).isSome := by
  induction names generalizing place with
  | nil =>
    rw [List.append_nil]
    constructor
    · rintro ⟨⟩
      exact ⟨rfl, here⟩
    · rintro ⟨rfl, -⟩
      rfl
  | cons name names ih =>
    rw [List.forall_mem_cons] at hn
    have split : place ++ name :: names = (place ++ [name]) ++ names := by simp
    rw [List.foldlM_cons, bind_eq_ok, split]
    constructor
    · rintro ⟨mid, first, rest⟩
      obtain ⟨rfl, there⟩ := (step_name hn.1).1 first
      exact (ih there hn.2).1 rest
    · rintro ⟨rfl, there⟩
      have first := at?_isSome_of_append there
      exact ⟨place ++ [name], (step_name hn.1).2 ⟨rfl, first⟩, (ih first hn.2).2 ⟨rfl, there⟩⟩

/-- A name put after a path leads on from where the path leads. -/
theorem locate_join_name (hp : p.octets ≠ []) (hn : Path.isName name) :
    d.locate (p.join ⟨name⟩) = d.locate p >>= fun place => step d.root place name := by
  have absolute : (d.absolute p).octets ≠ [] := by
    rw [Disk.absolute, Path.join]
    split
    · exact hp
    · split <;> simp [hp]
  have joined : d.absolute (p.join ⟨name⟩) = (d.absolute p).join ⟨name⟩ :=
    Path.join_join hp (Path.isAbsolute_of_isName hn)
  rw [locate, locate, if_neg hp, if_neg (Path.octets_join_name_ne_nil hp hn), joined]
  show (((d.absolute p).join ⟨name⟩).parts.foldlM (step d.root) []) =
    ((d.absolute p).parts.foldlM (step d.root) [] >>= _)
  rcases Path.parts_join_name absolute hn with ⟨before, closed, parts⟩ | parts
  · rw [closed, parts, List.foldlM_append, List.foldlM_append, bind_assoc]
    refine congrArg _ (funext fun mid => ?_)
    simp only [List.foldlM_cons, List.foldlM_nil, bind_pure]
    exact (step_vacant rfl name).symm
  · rw [parts, List.foldlM_append]
    simp only [List.foldlM_cons, List.foldlM_nil, bind_pure]

theorem locate_descend (hp : p.octets ≠ []) (hn : ∀ name ∈ names, Path.isName name) :
    d.locate (p.descend names) = d.locate p >>= names.foldlM (step d.root) := by
  induction names generalizing p with
  | nil => exact (bind_pure _).symm
  | cons name names ih =>
    rw [List.forall_mem_cons] at hn
    rw [Path.descend_cons, ih (Path.octets_join_name_ne_nil hp hn.1) hn.2,
      locate_join_name hp hn.1, bind_assoc]
    rfl

/-- Names put after a path lead to the entry that has these names where the path leads. -/
theorem entry_descend (located : d.locate p = .ok place) (hn : ∀ name ∈ names, Path.isName name) :
    d.entry (p.descend names) = .ok e ↔ d.root.at? (place ++ names) = some e := by
  have walk (next : Place) : d.locate (p.descend names) = .ok next ↔
      next = place ++ names ∧ (d.root.at? next).isSome := by
    rw [locate_descend (octets_ne_nil_of_locate located) hn, located]
    exact foldlM_step_names (at?_isSome_of_locate located) hn
  rw [entry_eq_ok]
  constructor
  · rintro ⟨next, found, there⟩
    rw [← ((walk next).1 found).1]
    exact there
  · intro there
    exact ⟨_, (walk _).2 ⟨rfl, Option.isSome_of_eq_some there⟩, there⟩

end Disk

end ScriptTree
