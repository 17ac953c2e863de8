import ScriptTree.Proofs.Ancestors

/-!
# Files that are written

A file that is written holds what was written (`Disk.read_of_write`), and all other files hold what
they held (`Disk.read_of_write_other`). Paths lead where they led before: writing takes no directory
away and no name out of one (`Entry.Grows`), so every step that could be taken still can, and the
last one leads to the new file.
-/
namespace ScriptTree

open ScriptTree.Path (isVacant slash)

namespace Entry

variable {root root' e : Entry} {place : Place} {name : List UInt8} {content : List UInt8}

/-- Setting an entry under a name changes what is found under that name and nothing else. -/
theorem lookup_alterNamed {change : Option Entry → Option Entry} (some : ∀ e, (change e).isSome)
    (name other : List UInt8) (entries : List (List UInt8 × Entry)) :
    (alterNamed name change entries).lookup other =
      if other = name then change (entries.lookup name) else entries.lookup other := by
  induction entries with
  | nil =>
    obtain ⟨e, made⟩ := Option.isSome_iff_exists.1 (some none)
    rw [alterNamed, made]
    by_cases same : other = name
    · simp [same, made]
    · simp [same, List.lookup_cons, beq_eq_false_iff_ne.2 same]
  | cons first rest ih =>
    obtain ⟨key, entry⟩ := first
    rw [alterNamed]
    by_cases own : key = name
    · subst own
      obtain ⟨e, made⟩ := Option.isSome_iff_exists.1 (some (Option.some entry))
      rw [if_pos rfl, made]
      by_cases same : other = key
      · simp [same, made]
      · simp [same, beq_eq_false_iff_ne.2 same, List.lookup_cons]
    · rw [if_neg own]
      by_cases same : other = key
      · subst same
        simp [own]
      · have notOwn : (name == key) = false := beq_eq_false_iff_ne.2 (Ne.symm own)
        simp only [List.lookup_cons, beq_eq_false_iff_ne.2 same, notOwn, ih]

/-- Whether all directories of an entry are in another one, with at least the same names. -/
def Grows (root root' : Entry) : Prop :=
  ∀ place entries, root.at? place = some (.directory entries) →
    ∃ entries', root'.at? place = some (.directory entries') ∧
      ∀ name, (entries.lookup name).isSome → (entries'.lookup name).isSome

/-- The entry with a file set at a place. -/
def withFile (root : Entry) (place : Place) (content : List UInt8) : Entry :=
  root.alter (some (.directory [])) (fun _ => some (.file (.ok content))) place

theorem withFile_single (entries : List (List UInt8 × Entry)) (name content : List UInt8) :
    (directory entries).withFile [name] content =
      .directory (alterNamed name (fun _ => some (.file (.ok content))) entries) :=
  by simp [withFile, alter]

theorem withFile_cons {entries : List (List UInt8 × Entry)} (name : List UInt8) {rest : Place}
    (h : rest ≠ []) (content : List UInt8) :
    (directory entries).withFile (name :: rest) content =
      .directory (alterNamed name
        (fun entry => (entry.or (some (.directory []))).map (·.withFile rest content)) entries) := by
  obtain ⟨next, others, rfl⟩ := List.exists_cons_of_ne_nil h
  simp [withFile, alter]

/-- A directory grows if an entry is set in it, as long as a directory of that name grows. -/
theorem Grows.alterNamed {change : Option Entry → Option Entry} (made : ∀ e, (change e).isSome)
    {entries : List (List UInt8 × Entry)}
    (kept : ∀ below, entries.lookup name = some (.directory below) →
      ∃ e, change (some (.directory below)) = some e ∧ Grows (.directory below) e) :
    Grows (.directory entries) (.directory (alterNamed name change entries)) := by
  have found := lookup_alterNamed made name
  intro place inner there
  cases place with
  | nil =>
    cases Option.some.inj there
    refine ⟨_, rfl, fun other old => ?_⟩
    rw [found]
    split
    · exact made _
    · exact old
  | cons other place =>
    rw [at?] at there
    obtain ⟨below, old, there⟩ := Option.bind_eq_some_iff.1 there
    rw [at?, found]
    by_cases same : other = name
    · subst same
      cases below with
      | file => cases place <;> cases there
      | directory below =>
        obtain ⟨e, changed, grows⟩ := kept below old
        rw [if_pos rfl, old, changed]
        exact grows place inner there
    · rw [if_neg same, old]
      exact ⟨inner, there, fun _ found => found⟩

/-- A file that is set in a directory, where no directory has its name, is there, and all
directories stay. -/
theorem withFile_spec {entries : List (List UInt8 × Entry)}
    (here : root.at? place = some (.directory entries))
    (free : ∀ below, entries.lookup name ≠ some (.directory below)) :
    (root.withFile (place ++ [name]) content).at? (place ++ [name]) = some (.file (.ok content)) ∧
      root.Grows (root.withFile (place ++ [name]) content) := by
  induction place generalizing root with
  | nil =>
    cases Option.some.inj here
    have made (e : Option Entry) :
        ((fun _ => some (.file (.ok content))) e : Option Entry).isSome := rfl
    rw [List.nil_append, withFile_single]
    refine ⟨?_, .alterNamed made fun below old => absurd old (free below)⟩
    rw [at?, lookup_alterNamed made, if_pos rfl]
    rfl
  | cons first place ih =>
    cases root with
    | file => cases here
    | directory outer =>
      rw [at?] at here
      obtain ⟨below, old, here⟩ := Option.bind_eq_some_iff.1 here
      obtain ⟨written, grows⟩ := ih here
      rw [List.cons_append, withFile_cons first (by simp)]
      let change (entry : Option Entry) : Option Entry :=
        (entry.or (some (.directory []))).map (·.withFile (place ++ [name]) content)
      have made (e : Option Entry) : (change e).isSome := by cases e <;> rfl
      refine ⟨?_, .alterNamed made fun inner seen => ⟨_, rfl, ?_⟩⟩
      · rw [at?, lookup_alterNamed made, if_pos rfl, old]
        exact written
      · obtain rfl := Option.some.inj (old.symm.trans seen)
        exact grows

/-- Files at other places stay as they are. -/
theorem withFile_at?_of_ne {entries : List (List UInt8 × Entry)}
    (here : root.at? place = some (.directory entries))
    (free : ∀ below, entries.lookup name ≠ some (.directory below)) {other : Place}
    {kept : Except DiskError (List UInt8)} (old : root.at? other = some (.file kept))
    (ne : other ≠ place ++ [name]) :
    (root.withFile (place ++ [name]) content).at? other = some (.file kept) := by
  induction place generalizing root other with
  | nil =>
    cases Option.some.inj here
    have made (e : Option Entry) :
        ((fun _ => some (.file (.ok content))) e : Option Entry).isSome := rfl
    rw [List.nil_append, withFile_single]
    cases other with
    | nil => cases old
    | cons first rest =>
      rw [at?] at old
      rw [at?, lookup_alterNamed made]
      by_cases same : first = name
      · -- What has the name there is a file, and nothing lies below a file.
        subst same
        obtain ⟨e, found, below⟩ := Option.bind_eq_some_iff.1 old
        cases e with
        | directory inner => exact absurd found (free inner)
        | file held =>
          cases rest with
          | nil => exact absurd rfl ne
          | cons => cases below
      · rw [if_neg same]
        exact old
  | cons first place ih =>
    cases root with
    | file => cases here
    | directory outer =>
      rw [at?] at here
      obtain ⟨below, found, inside⟩ := Option.bind_eq_some_iff.1 here
      rw [List.cons_append, withFile_cons first (by simp)]
      let change (entry : Option Entry) : Option Entry :=
        (entry.or (some (.directory []))).map (·.withFile (place ++ [name]) content)
      have made (e : Option Entry) : (change e).isSome := by cases e <;> rfl
      cases other with
      | nil => cases old
      | cons next rest =>
        rw [at?] at old
        rw [at?, lookup_alterNamed made]
        by_cases same : next = first
        · subst same
          rw [found, Option.bind_some] at old
          rw [if_pos rfl, found]
          exact ih inside old fun equal => ne (congrArg (next :: ·) equal)
        · rw [if_neg same]
          exact old

end Entry

namespace Disk

variable {d d' : Disk} {p : Path} {content : List UInt8}

theorem step_of_grows {root root' : Entry} (grows : root.Grows root') {place next : Place}
    {part : List UInt8} (h : step root place part = .ok next) :
    step root' place part = .ok next := by
  obtain ⟨entries, here, -⟩ := directory_of_step h
  obtain ⟨entries', there, names⟩ := grows place entries here
  simp only [step, here] at h
  simp only [step, there]
  split at h
  · exact h
  · next name component =>
    split at h
    · next found =>
      rw [if_pos (names name found)]
      exact h
    · cases h
  · exact h

theorem foldlM_step_of_grows {root root' : Entry} (grows : root.Grows root')
    {parts : List (List UInt8)} {place next : Place}
    (h : parts.foldlM (step root) place = .ok next) :
    parts.foldlM (step root') place = .ok next := by
  induction parts generalizing place with
  | nil => exact h
  | cons part rest ih =>
    obtain ⟨mid, first, h⟩ := bind_eq_ok.1 h
    rw [List.foldlM_cons, step_of_grows grows first]
    exact ih h

/-- A part that is a name is its own name, and neither empty nor vacant. -/
theorem name_of_component? {part name : List UInt8} (h : Path.component? part = some (.name name)) :
    part = name ∧ part ≠ [] := by
  unfold Path.component? at h
  split at h
  · cases h
  · next solid =>
    split at h
    · cases h
    · cases h
      refine ⟨rfl, ?_⟩
      rintro rfl
      exact solid rfl

/-- No part is left out behind a last part that is a name. -/
theorem dropWhile_of_component? {part name : List UInt8} {rest : List (List UInt8)}
    (h : Path.component? part = some (.name name)) :
    (part :: rest).dropWhile (· == []) = part :: rest :=
  List.dropWhile_cons_of_neg (by simpa using (name_of_component? h).2)

/-- The disk after a file has been written at a place. -/
def withFile (d : Disk) (place : Place) (content : List UInt8) : Disk :=
  { d with root := d.root.withFile place content }

/-- The place of a write: the last part of a path, which is a name that nothing has there but a file
that can be opened. -/
structure WritesAt (d : Disk) (p : Path) (place : Place) (name : List UInt8) : Prop where
  some : p.octets ≠ []
  walk : ∃ init, (d.absolute p).parts = init ++ [name] ∧ init.foldlM (step d.root) [] = .ok place
  named : Path.component? name = .some (.name name)
  free : ∃ entries, d.root.at? place = .some (.directory entries) ∧
    ∀ e, entries.lookup name = .some e → ∃ bytes, e = .file (.ok bytes)

theorem write_eq_ok : d.write p content = .ok d' ↔ ∃ place name, WritesAt d p place name ∧
    d' = d.withFile (place ++ [name]) content := by
  obtain ⟨init, parts, -⟩ := (d.absolute p).parts_eq
  have reversed : (Text.pieces slash (d.absolute p).octets).reverse =
      (d.absolute p).last :: init.reverse := by
    change (d.absolute p).parts.reverse = _
    rw [parts, List.reverse_append]
    rfl
  generalize (d.absolute p).last = last at parts reversed
  unfold write
  rw [reversed]
  constructor
  · intro h
    split at h
    · cases h
    · next some =>
      obtain ⟨place, walk, h⟩ := bind_eq_ok.1 h
      split at h
      · next entries name here component =>
        obtain ⟨rfl, -⟩ := name_of_component? component
        rw [dropWhile_of_component? component, List.tail_cons, List.reverse_reverse] at walk
        split at h
        · cases h
        · cases h
        · next noDirectory noCause =>
          refine ⟨place, last, ⟨some, ⟨init, parts, walk⟩, component, entries, here, ?_⟩,
            (Except.ok.inj h).symm⟩
          intro e found
          match e, found with
          | .directory below, found => exact absurd found (noDirectory below)
          | .file (.error cause), found => exact absurd found (noCause cause)
          | .file (.ok bytes), _ => exact ⟨bytes, rfl⟩
      all_goals cases h
  · rintro ⟨place, name, ⟨some, ⟨init', parts', walk⟩, component, entries, here, free⟩, rfl⟩
    obtain ⟨rfl, same⟩ := List.append_inj' (parts.symm.trans parts') rfl
    obtain rfl := List.singleton_inj.1 same
    rw [if_neg some]
    refine bind_eq_ok.2 ⟨place, ?_, ?_⟩
    · rw [dropWhile_of_component? component, List.tail_cons, List.reverse_reverse]
      exact walk
    · have own : (last :: init.reverse).head?.bind Path.component? = .some (.name last) := component
      rw [here, own]
      dsimp only
      split
      · next below found => exact nomatch (free _ found)
      · next cause found => exact nomatch (free _ found)
      · rfl

/-- Whether a path can be written depends on the disk alone. -/
theorem write_of_write (h : d.write p content = .ok d') (other : List UInt8) :
    ∃ d'', d.write p other = .ok d'' := by
  obtain ⟨place, name, at', -⟩ := write_eq_ok.1 h
  exact ⟨_, write_eq_ok.2 ⟨place, name, at', rfl⟩⟩

namespace WritesAt

variable {place : Place} {name : List UInt8}

theorem noDirectory (h : WritesAt d p place name) :
    ∃ entries, d.root.at? place = .some (.directory entries) ∧
      ∀ below, entries.lookup name ≠ .some (.directory below) := by
  obtain ⟨entries, here, free⟩ := h.free
  exact ⟨entries, here, fun below found => nomatch free _ found⟩

/-- The new file is there, and all directories stay. -/
theorem spec (h : WritesAt d p place name) (content : List UInt8) :
    (d.withFile (place ++ [name]) content).root.at? (place ++ [name]) =
        .some (.file (.ok content)) ∧
      d.root.Grows (d.withFile (place ++ [name]) content).root := by
  obtain ⟨entries, here, free⟩ := h.noDirectory
  exact Entry.withFile_spec here free

/-- The path leads to the new file. -/
theorem locate (h : WritesAt d p place name) (content : List UInt8) :
    (d.withFile (place ++ [name]) content).locate p = .ok (place ++ [name]) := by
  obtain ⟨entries, here, -⟩ := h.free
  obtain ⟨written, grows⟩ := h.spec content
  obtain ⟨inner, there, -⟩ := grows place entries here
  have found : (inner.lookup name).isSome := by
    rw [Entry.at?_append, there, Option.bind_some, Entry.at?] at written
    exact Option.isSome_of_isSome_bind (Option.isSome_of_eq_some written)
  have last : step (d.withFile (place ++ [name]) content).root place name =
      .ok (place ++ [name]) := by
    simp only [step, there, h.named, found, if_true]
  obtain ⟨init, parts, walk⟩ := h.walk
  rw [Disk.locate, if_neg h.some]
  change (d.absolute p).parts.foldlM _ [] = _
  rw [parts, List.foldlM_append]
  refine bind_eq_ok.2 ⟨place, foldlM_step_of_grows grows walk, ?_⟩
  rw [List.foldlM_cons, last]
  rfl

end WritesAt

/-- A file that is written holds what was written, and paths start where they did. -/
theorem read_of_write (h : d.write p content = .ok d') :
    d'.read p = .ok content ∧ d'.workingDirectory = d.workingDirectory := by
  obtain ⟨place, name, at', rfl⟩ := write_eq_ok.1 h
  exact ⟨read_of_entry (entry_eq_ok.2 ⟨_, at'.locate content, (at'.spec content).1⟩), rfl⟩

/-- Where a path could be followed, it leads to the same place after a file has been written. -/
theorem locate_of_write (h : d.write p content = .ok d') {q : Path} {place : Place}
    (here : d.locate q = .ok place) : d'.locate q = .ok place := by
  obtain ⟨written, name, at', rfl⟩ := write_eq_ok.1 h
  unfold locate at here ⊢
  split
  · next none =>
    rw [if_pos none] at here
    cases here
  · next some =>
    rw [if_neg some] at here
    exact foldlM_step_of_grows (at'.spec content).2 here

/-- A file that another path leads to holds what it held before. -/
theorem read_of_write_other (h : d.write p content = .ok d') {q : Path} {kept : List UInt8}
    (read : d.read q = .ok kept) (other : d.locate q ≠ d'.locate p) : d'.read q = .ok kept := by
  obtain ⟨place, located, held⟩ := entry_eq_ok.1 (entry_of_read read)
  have located' := locate_of_write h located
  obtain ⟨written, name, at', rfl⟩ := write_eq_ok.1 h
  obtain ⟨entries, here, free⟩ := at'.noDirectory
  refine read_of_entry (entry_eq_ok.2 ⟨place, located', ?_⟩)
  refine Entry.withFile_at?_of_ne here free held fun same => other ?_
  rw [located, same]
  exact (at'.locate content).symm

end Disk

end ScriptTree
