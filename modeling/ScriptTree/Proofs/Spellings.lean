import Mathlib.Data.List.Nodup
import ScriptTree.Proofs.CollectedFiles

/-!
# Files that are collected under two spellings

Collected paths have different steps, but a file may be reached by different steps: with two dots on
the way, or once from the root and once from the working directory, with a leading dot or without
one. Paths of one beginning without two dots lead to one entry only if they have the same steps
(`Disk.components_eq_of_locate_eq`), so a file that is collected twice is spelled in two of these
ways (`Disk.collected_spellings`), and one that is spelled so is collected twice
(`Disk.collected_twice`).
-/
namespace ScriptTree

namespace Path

variable {p q : Path}

/-- Whether a path has no two dots on its way. -/
def IsDirect (p : Path) : Prop :=
  Component.up ∉ p.components

theorem isDirect_iff : p.IsDirect ↔ [dot, dot] ∉ p.names := by
  have start : Component.up ∉ p.start := by
    unfold start
    split
    · decide
    · split <;> decide
  rw [IsDirect, components_eq, List.mem_append, List.mem_map, not_or]
  constructor
  · rintro ⟨-, none⟩ up
    exact none ⟨_, up, rfl⟩
  · intro none
    refine ⟨start, ?_⟩
    rintro ⟨name, mem, step⟩
    rw [stepOf] at step
    split at step
    · next up => exact none (up ▸ mem)
    · cases step

/-- Names that are put after a path bring no two dots. -/
theorem isDirect_descend {names : Place} (hp : p.octets ≠ []) (hn : ∀ name ∈ names, isName name) :
    (p.descend names).IsDirect ↔ p.IsDirect := by
  simp [IsDirect, components_descend hp hn]

theorem isAbsolute_eq_of_start_eq (h : p.start = q.start) : p.isAbsolute = q.isAbsolute := by
  have root (p : Path) : p.isAbsolute ↔ p.start = [.root] := by
    unfold start
    cases p.isAbsolute
    · by_cases dotted : p.parts.head? = some [dot] <;> simp [dotted]
    · simp
  rw [Bool.eq_iff_iff, root, root, h]

end Path

namespace Disk

open ScriptTree.Path (said Component)

variable {d : Disk} {p q f g : Path} {place : Place} {paths : List Path}

/-- What parts without two dots say is added to the place where they start. -/
theorem foldlM_step_direct {root : Entry} {start : Place} {parts : List (List UInt8)}
    (direct : [Path.dot, Path.dot] ∉ parts) (h : parts.foldlM (step root) start = .ok place) :
    place = start ++ said parts := by
  induction parts generalizing start with
  | nil => exact (Except.ok.inj h).symm.trans (List.append_nil _).symm
  | cons part rest ih =>
    rw [List.mem_cons, not_or] at direct
    obtain ⟨mid, first, h⟩ := bind_eq_ok.1 h
    obtain ⟨entries, here, -⟩ := directory_of_step first
    have split : said (part :: rest) = said [part] ++ said rest := Path.said_append [part] rest
    rw [split, ← List.append_assoc]
    rcases step_of_ne_up here (Ne.symm direct.1) with goes | ⟨stops, -⟩
    · obtain rfl := Except.ok.inj (first.symm.trans goes)
      exact ih direct.2 h
    · rw [stops] at first
      cases first

/-- Paths from the working directory start with the parts of that directory. -/
theorem parts_absolute (d : Disk) : ∃ before, ∀ p : Path, p.isAbsolute = false →
    (d.absolute p).parts = before ++ p.parts := by
  let base := d.workingDirectory
  by_cases closed : base.octets = [] ∨ base.octets.getLast? = some Path.slash
  · rcases closed with none | closed
    · refine ⟨[], fun p hp => ?_⟩
      rw [Path.parts, absolute, Path.octets_join hp, Path.glue, if_pos (.inl none), none]
      rfl
    · obtain ⟨before, ends⟩ := List.getLast?_eq_some_iff.1 closed
      refine ⟨Text.pieces Path.slash before, fun p hp => ?_⟩
      rw [Path.parts, absolute, Path.octets_join hp, Path.glue, if_pos (.inr closed), ends,
        List.append_nil, List.append_assoc, List.singleton_append, Text.pieces_append]
      rfl
  · refine ⟨base.parts, fun p hp => ?_⟩
    rw [Path.parts, absolute, Path.octets_join hp, Path.glue, if_neg closed, List.append_assoc,
      List.singleton_append, Text.pieces_append]
    rfl

/-- From where paths of one beginning start, each goes on by its names. -/
theorem exists_start_of_locate (d : Disk) (absolute : Bool) :
    ∃ start : Place, ∀ p : Path, p.isAbsolute = absolute → p.IsDirect →
      ∀ place, d.locate p = .ok place → place = start ++ p.names := by
  have direct {p : Path} (h : p.IsDirect) : [Path.dot, Path.dot] ∉ p.parts := by
    intro up
    exact Path.isDirect_iff.1 h (List.mem_filter.2 ⟨up, by decide⟩)
  cases absolute with
  | true =>
    refine ⟨[], fun p rooted h place located => ?_⟩
    rw [locate_of_isAbsolute d rooted] at located
    exact foldlM_step_direct (direct h) located
  | false =>
    obtain ⟨before, parts⟩ := parts_absolute d
    cases walk : before.foldlM (step d.root) [] with
    | error e =>
      refine ⟨[], fun p relative h place located => ?_⟩
      rw [locate, if_neg (octets_ne_nil_of_locate located)] at located
      change (d.absolute p).parts.foldlM (step d.root) [] = _ at located
      rw [parts p relative, List.foldlM_append, walk] at located
      cases located
    | ok start =>
      refine ⟨start, fun p relative h place located => ?_⟩
      rw [locate, if_neg (octets_ne_nil_of_locate located)] at located
      change (d.absolute p).parts.foldlM (step d.root) [] = _ at located
      rw [parts p relative, List.foldlM_append, walk] at located
      exact foldlM_step_direct (direct h) located

/-- Paths of one beginning without two dots that lead to one entry have the same steps. -/
theorem components_eq_of_locate_eq (hp : p.IsDirect) (hq : q.IsDirect) (start : p.start = q.start)
    (located : d.locate p = .ok place) (same : d.locate q = .ok place) :
    p.components = q.components := by
  obtain ⟨before, names⟩ := exists_start_of_locate d q.isAbsolute
  have left := names p (Path.isAbsolute_eq_of_start_eq start) hp place located
  have right := names q rfl hq place same
  rw [Path.components_eq, Path.components_eq, start, List.append_cancel_left (left.symm.trans right)]

/-- What a path stands for begins as the path does and has two dots only where the path has. -/
theorem StandsFor.spelled (h : d.StandsFor p f) (there : d.contains p) :
    f.start = p.start ∧ (f.IsDirect ↔ p.IsDirect) := by
  have solid := octets_ne_nil_of_contains there
  cases h with
  | itself => exact ⟨rfl, Iff.rfl⟩
  | below _ kept _ _ =>
    exact ⟨(Path.start_names_descend solid kept.isName).2.1, Path.isDirect_descend solid kept.isName⟩

/-- A file that is collected twice is spelled in two ways. On a tree of files, paths that all lead
somewhere give a list of files with different steps. Of two that lead to one entry, one has two dots
on its way, or they begin in different ways: at the root, with a dot or with a name. So no file is
collected twice for paths without two dots that all begin in the same way. -/
theorem collected_spellings (tree : d.root.isTree) (there : ∀ p ∈ paths, d.contains p) :
    ∃ files, d.collect paths = .ok files ∧ (∀ f ∈ files, d.isFile f) ∧
      files.Pairwise (fun f g => f.components ≠ g.components ∧
        (d.locate f = d.locate g → ¬f.IsDirect ∨ ¬g.IsDirect ∨ f.start ≠ g.start)) ∧
      ((∀ p ∈ paths, p.IsDirect) → (∀ p ∈ paths, ∀ q ∈ paths, p.start = q.start) →
        (files.map d.locate).Nodup) := by
  obtain ⟨found, collected, members⟩ := collect_eq_ok tree there
  have standsFor {f : Path} (hf : f ∈ Path.sortedSet found) : ∃ p ∈ paths, d.StandsFor p f :=
    (members f).1 (Path.sortedSet_subset found hf)
  have file {f : Path} (hf : f ∈ Path.sortedSet found) : d.isFile f := by
    obtain ⟨p, -, hf⟩ := standsFor hf
    exact hf.isFile
  have apart : (Path.sortedSet found).Pairwise fun f g => f.components ≠ g.components ∧
      (d.locate f = d.locate g → ¬f.IsDirect ∨ ¬g.IsDirect ∨ f.start ≠ g.start) := by
    refine (Path.sortedSet_increasing found).imp_of_mem fun {f g} hf hg less => ?_
    have other : f.components ≠ g.components := Path.components_ne_of_compare less
    refine ⟨other, fun same => ?_⟩
    by_contra direct
    push Not at direct
    obtain ⟨content, found⟩ := isFile_iff.1 (file hf)
    obtain ⟨place, located, -⟩ := entry_eq_ok.1 found
    exact other (components_eq_of_locate_eq direct.1 direct.2.1 direct.2.2 located
      (same ▸ located))
  refine ⟨_, collected, fun f => file, apart, fun direct alike => ?_⟩
  rw [List.nodup_iff_pairwise_ne, List.pairwise_map]
  refine apart.imp_of_mem fun {f g} hf hg spelled same => ?_
  obtain ⟨p, hp, ownp⟩ := standsFor hf
  obtain ⟨q, hq, ownq⟩ := standsFor hg
  obtain ⟨startf, directf⟩ := ownp.spelled (there p hp)
  obtain ⟨startg, directg⟩ := ownq.spelled (there q hq)
  rcases spelled.2 same with up | up | begins
  · exact up (directf.2 (direct p hp))
  · exact up (directg.2 (direct q hq))
  · exact begins (by rw [startf, startg, alike p hp q hq])

/-- Among names taken from the working directory, also that of a directory of modules, each file is
collected once. -/
theorem collected_spellings_scriptDisk :
    let paths : List Path := [.ofText "main.JS".toList, .ofText "node_modules".toList]
    (scriptDisk.root.isTree ∧ ∀ p ∈ paths, scriptDisk.contains p) ∧
      ∃ files, scriptDisk.collect paths = .ok files ∧ (files.map scriptDisk.locate).Nodup := by
  intro paths
  have tree : scriptDisk.root.isTree := by decide +kernel
  have there : ∀ p ∈ paths, scriptDisk.contains p := List.all_eq_true.1 (by decide +kernel)
  have direct : ∀ p ∈ paths, Component.up ∉ p.components := by decide +kernel
  have alike : ∀ p ∈ paths, ∀ q ∈ paths, p.start = q.start := by decide +kernel
  obtain ⟨files, collected, -, -, once⟩ := collected_spellings tree there
  exact ⟨⟨tree, there⟩, files, collected, once direct alike⟩

/-- A file that is named with a leading dot and without one is collected twice. -/
theorem collected_twice :
    let d : Disk := { root := .directory [(Utf8.encode "a.js".toList, .file (.ok []))],
                      workingDirectory := .ofText "/".toList }
    let plain : Path := .ofText "a.js".toList
    let dotted : Path := .ofText "./a.js".toList
    d.root.isTree ∧ d.contains plain ∧ d.contains dotted ∧
      d.collect [plain, dotted] = .ok [dotted, plain] ∧ dotted ≠ plain ∧
      d.isFile plain ∧ d.locate dotted = d.locate plain := by
  intro d plain dotted
  have walk : d.collect [plain, dotted] = .ok (Path.sortedSet [plain, dotted]) := by rfl
  have order : ¬plain.isAtMost dotted := by decide +kernel
  have other : dotted.components ≠ plain.components := by decide +kernel
  have sorted : Path.sortedSet [plain, dotted] = [dotted, plain] := by
    simp [Path.sortedSet, List.mergeSort, List.MergeSort.Internal.splitInTwo, order,
      Path.sortedSet.distinct, other]
  rw [walk, sorted]
  exact ⟨by decide +kernel, by decide +kernel, by decide +kernel, rfl, by decide +kernel,
    by decide +kernel, by rfl⟩

end Disk

end ScriptTree
