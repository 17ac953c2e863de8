import ScriptTree.Proofs.FileTrees
import ScriptTree.Proofs.PathOrder

/-!
# Collected files

The source files that a path stands for are told by the disk alone (`Disk.StandsFor`): a file stands
for itself and a directory for the scripts below it, as far as no name on the way is that of a
directory of modules. Collecting is a walk that keeps only paths, and what it gives for a list of
paths is the sorted set of what each of them stands for (`Disk.collect_eq_sorted_set`). Paths with
the same steps count as one path there, as they do in the order of paths.
-/
namespace ScriptTree

/-! ## Names of scripts -/

namespace Path

/-- Whether a name ends in a dot and the two letters of a script, of either case, after something
else. -/
def IsScriptName (name : List UInt8) : Prop :=
  ∃ stem j s, stem ≠ [] ∧ name = stem ++ [dot, j, s] ∧ (j = 0x6A ∨ j = 0x4A) ∧ (s = 0x73 ∨ s = 0x53)

variable {p : Path} {name : List UInt8}

theorem join_concat {α : Type} [DecidableEq α] (separator : α) {init : List (List α)}
    (h : init ≠ []) (last : List α) :
    Text.join separator (init ++ [last]) = Text.join separator init ++ separator :: last := by
  obtain ⟨first, others, rfl⟩ := List.exists_cons_of_ne_nil h
  rw [List.cons_append, Text.join_eq_flatMap, Text.join_eq_flatMap, List.flatMap_append,
    List.flatMap_singleton, List.append_assoc]

theorem join_ne_nil {α : Type} [DecidableEq α] (separator : α) {parts : List (List α)}
    (some : parts ≠ []) (bare : parts ≠ [[]]) : Text.join separator parts ≠ [] := by
  obtain ⟨first, others, rfl⟩ := List.exists_cons_of_ne_nil some
  rw [Text.join_eq_flatMap]
  cases others with
  | nil => simpa using bare
  | cons second others => simp

/-- The extension of a name is what stands after its last dot, unless there is nothing before. -/
theorem extension?_eq_some (named : p.fileName? = some name) {octets : List UInt8} :
    p.extension? = some octets ↔ dot ∉ octets ∧ ∃ stem ≠ [], name = stem ++ dot :: octets := by
  have unfolded : p.extension? =
      if (Text.pieces dot name).length < 2 ∨ (Text.pieces dot name).dropLast = [[]] then none
      else (Text.pieces dot name).getLast? := by
    rw [extension?, named]
    rfl
  rw [unfolded]
  constructor
  · intro h
    split at h
    · cases h
    · next long =>
      obtain ⟨few, bare⟩ := not_or.1 long
      obtain ⟨init, parts⟩ := List.getLast?_eq_some_iff.1 h
      rw [parts, List.length_append, List.length_singleton] at few
      rw [parts, List.dropLast_concat] at bare
      have some : init ≠ [] := by
        rintro rfl
        exact few (by decide)
      have solid : dot ∉ octets := by
        refine Text.notMem_of_mem_pieces (l := name) ?_
        rw [parts]
        exact List.mem_append_right _ List.mem_cons_self
      refine ⟨solid, Text.join dot init, join_ne_nil dot some bare, ?_⟩
      rw [← join_concat dot some, ← parts, Text.join_pieces]
  · rintro ⟨solid, stem, some, rfl⟩
    rw [Text.pieces_append, Text.pieces_of_notMem solid]
    have long : ¬(Text.pieces dot stem ++ [octets]).length < 2 := by
      have := List.length_pos_of_ne_nil (Text.pieces_ne_nil dot stem)
      rw [List.length_append, List.length_singleton]
      omega
    have full : (Text.pieces dot stem ++ [octets]).dropLast ≠ [[]] := by
      intro none
      rw [List.dropLast_concat] at none
      have := Text.join_pieces dot stem
      rw [none] at this
      exact some this.symm
    rw [if_neg (not_or.2 ⟨long, full⟩), List.getLast?_concat]

theorem isScript_iff (named : p.fileName? = some name) : p.isScript ↔ IsScriptName name := by
  have spelled (octets : List UInt8) : p.extension? = some octets → (p.isScript ↔
      ∃ j s, octets = [j, s] ∧ (j = 0x6A ∨ j = 0x4A) ∧ (s = 0x73 ∨ s = 0x53)) := by
    intro h
    have texts : Utf8.encode "js".toList = [0x6A, 0x73] ∧ Utf8.encode "jS".toList = [0x6A, 0x53] ∧
        Utf8.encode "Js".toList = [0x4A, 0x73] ∧ Utf8.encode "JS".toList = [0x4A, 0x53] := by
      decide
    simp only [isScript, h, texts, Bool.or_eq_true, beq_iff_eq]
    constructor
    · rintro (((rfl | rfl) | rfl) | rfl) <;> exact ⟨_, _, rfl, by decide, by decide⟩
    · rintro ⟨j, s, rfl, rfl | rfl, rfl | rfl⟩ <;> decide
  constructor
  · intro script
    cases found : p.extension? with
    | none => simp [isScript, found] at script
    | some octets =>
      obtain ⟨j, s, rfl, hj, hs⟩ := (spelled octets found).1 script
      obtain ⟨-, stem, some, name⟩ := (extension?_eq_some named).1 found
      exact ⟨stem, j, s, some, name, hj, hs⟩
  · rintro ⟨stem, j, s, some, rfl, hj, hs⟩
    have solid : dot ∉ [j, s] := by
      rcases hj with rfl | rfl <;> rcases hs with rfl | rfl <;> decide
    have found := (extension?_eq_some named).2 ⟨solid, stem, some, rfl⟩
    exact (spelled _ found).2 ⟨j, s, rfl, hj, hs⟩

theorem fileName?_descend {names : Place} (hp : p.octets ≠ [])
    (hn : ∀ n ∈ names ++ [name], isName n) : (p.descend (names ++ [name])).fileName? = some name := by
  rw [fileName?, components_descend hp hn, List.map_append, ← List.append_assoc]
  simp

end Path

/-! ## What a path stands for -/

/-- Names that lead down from a directory, none of them that of a directory of modules. -/
def Disk.Kept (names : Place) : Prop :=
  ∀ name ∈ names, Path.isName name ∧ name ≠ Module.submoduleDirectory.octets

/-- The source files that a path stands for: a file is one whatever its name, and below a directory
the files with names of scripts are, unless a name on the way is that of a directory of modules. The
directory itself may have that name. -/
inductive Disk.StandsFor (d : Disk) (p : Path) : Path → Prop
  | itself : d.isFile p → StandsFor d p p
  | below {names : Place} {name : List UInt8} : d.isDirectory p → Disk.Kept (names ++ [name]) →
    d.isFile (p.descend (names ++ [name])) → Path.IsScriptName name →
    StandsFor d p (p.descend (names ++ [name]))

/-- The paths that a path makes needless, as they are written with it: the files it stands for and
the directories below it that are not in directories of modules. -/
def Disk.Covers (d : Disk) (p q : Path) : Prop :=
  d.StandsFor p q ∨
    d.isDirectory p ∧ d.isDirectory q ∧ ∃ names, Disk.Kept names ∧ q = p.descend names

namespace Disk

theorem Kept.isName {names : Place} (h : Kept names) : ∀ name ∈ names, Path.isName name :=
  fun name mem => (h name mem).1

theorem kept_append {names more : Place} : Kept (names ++ more) ↔ Kept names ∧ Kept more :=
  List.forall_mem_append

theorem kept_cons {name : List UInt8} {names : Place} : Kept (name :: names) ↔
    (Path.isName name ∧ name ≠ Module.submoduleDirectory.octets) ∧ Kept names :=
  List.forall_mem_cons

end Disk

/-! ## The walk below a directory -/

namespace Entry

open Disk (Kept)

mutual

theorem exists_of_mem_scripts {f : Path} {path : Path} : ∀ {e : Entry}, e.isTree →
    f ∈ e.scripts path →
      ∃ names content, Kept names ∧ e.at? names = some (.file content) ∧
        f = path.descend names ∧ f.isScript
  | .file content, _, h => by
    rw [scripts] at h
    split at h
    · next script =>
      obtain rfl := List.mem_singleton.1 h
      exact ⟨[], content, by simp [Kept], rfl, rfl, script⟩
    · cases h
  | .directory entries, tree, h => by
    rw [isTree, Bool.and_eq_true, decide_eq_true_eq] at tree
    rw [scripts] at h
    obtain ⟨name, entry, names, content, mem, kept, there, rfl, script⟩ :=
      exists_of_mem_scriptsBelow tree.2 h
    refine ⟨name :: names, content, kept, ?_, rfl, script⟩
    rw [at?, (lookup_eq_some_iff tree.1).2 mem, Option.bind_some, there]

theorem exists_of_mem_scriptsBelow {f : Path} {path : Path} :
    ∀ {entries : List (List UInt8 × Entry)}, areTrees entries → f ∈ scriptsBelow path entries →
      ∃ name entry names content, (name, entry) ∈ entries ∧ Kept (name :: names) ∧
        entry.at? names = some (.file content) ∧ f = path.descend (name :: names) ∧ f.isScript
  | [], _, h => by
    rw [scriptsBelow] at h
    cases h
  | (name, entry) :: rest, trees, h => by
    rw [areTrees, Bool.and_eq_true, Bool.and_eq_true] at trees
    obtain ⟨⟨named, tree⟩, trees⟩ := trees
    rw [scriptsBelow, List.mem_append] at h
    rcases h with h | h
    · split at h
      · cases h
      · next other =>
        obtain ⟨names, content, kept, there, rfl, script⟩ := exists_of_mem_scripts tree h
        exact ⟨name, entry, names, content, List.mem_cons_self, Disk.kept_cons.2 ⟨⟨named, other⟩, kept⟩,
          there, rfl, script⟩
    · obtain ⟨name', entry', names, content, mem, found⟩ := exists_of_mem_scriptsBelow trees h
      exact ⟨name', entry', names, content, List.mem_cons_of_mem _ mem, found⟩

end

theorem mem_scriptsBelow {f path : Path} {entries : List (List UInt8 × Entry)} {name : List UInt8}
    {entry : Entry} (mem : (name, entry) ∈ entries)
    (other : name ≠ Module.submoduleDirectory.octets) (h : f ∈ entry.scripts (path.join ⟨name⟩)) :
    f ∈ scriptsBelow path entries := by
  induction entries with
  | nil => cases mem
  | cons first rest ih =>
    obtain ⟨name', entry'⟩ := first
    rw [scriptsBelow, List.mem_append]
    rcases List.mem_cons.1 mem with e | mem
    · cases e
      left
      rw [if_neg other]
      exact h
    · exact .inr (ih mem)

theorem mem_scripts {path : Path} {names : Place} {content : Except DiskError (List UInt8)}
    (kept : Kept names) (script : (path.descend names).isScript) {e : Entry} (tree : e.isTree)
    (there : e.at? names = some (.file content)) : path.descend names ∈ e.scripts path := by
  induction names generalizing path e with
  | nil =>
    cases Option.some.inj there
    have own : path.isScript := script
    rw [scripts, if_pos own]
    exact List.mem_cons_self
  | cons name names ih =>
    obtain ⟨⟨named, other⟩, kept⟩ := Disk.kept_cons.1 kept
    cases e with
    | file content => cases there
    | directory entries =>
      obtain ⟨entry, found, below⟩ := Option.bind_eq_some_iff.1 there
      rw [isTree, Bool.and_eq_true, decide_eq_true_eq] at tree
      have mem := (lookup_eq_some_iff tree.1).1 found
      rw [scripts]
      exact mem_scriptsBelow mem other (ih kept script (of_mem_areTrees tree.2 mem).2 below)

theorem isTree_of_at? {root e : Entry} {place : Place} (tree : root.isTree)
    (h : root.at? place = some e) : e.isTree := by
  induction place generalizing root with
  | nil => exact Option.some.inj h ▸ tree
  | cons name place ih =>
    cases root with
    | file content => cases h
    | directory entries =>
      obtain ⟨entry, found, below⟩ := Option.bind_eq_some_iff.1 h
      rw [isTree, Bool.and_eq_true, decide_eq_true_eq] at tree
      exact ih (of_mem_areTrees tree.2 ((lookup_eq_some_iff tree.1).1 found)).2 below

end Entry

/-! ## Collecting -/

namespace Disk

variable {d : Disk} {p q f : Path} {paths files : List Path}

theorem isDirectory_iff : d.isDirectory p = true ↔ ∃ entries, d.entry p = .ok (.directory entries) := by
  unfold isDirectory
  split
  · next entries h => exact iff_of_true rfl ⟨entries, h⟩
  · next h => exact iff_of_false Bool.false_ne_true fun ⟨entries, found⟩ => h entries found

theorem not_isFile_of_isDirectory (h : d.isDirectory p) : d.isFile p = false := by
  obtain ⟨entries, found⟩ := isDirectory_iff.1 h
  rw [isFile, found]

theorem contains_of_isFile (h : d.isFile p) : d.contains p := by
  obtain ⟨content, found⟩ := isFile_iff.1 h
  exact contains_iff.2 ⟨_, found⟩

theorem contains_of_isDirectory (h : d.isDirectory p) : d.contains p := by
  obtain ⟨entries, found⟩ := isDirectory_iff.1 h
  exact contains_iff.2 ⟨_, found⟩

theorem octets_ne_nil_of_contains (h : d.contains p) : p.octets ≠ [] := by
  obtain ⟨e, found⟩ := contains_iff.1 h
  obtain ⟨place, located, -⟩ := entry_eq_ok.1 found
  exact octets_ne_nil_of_locate located

/-- A path that leads somewhere gives the source files that it stands for. -/
theorem filesAt_eq_standsFor (tree : d.root.isTree) (there : d.contains p) :
    ∃ files, d.filesAt p = .ok files ∧ ∀ f, f ∈ files ↔ d.StandsFor p f := by
  obtain ⟨e, found⟩ := contains_iff.1 there
  have solid := octets_ne_nil_of_contains there
  obtain ⟨place, located, here⟩ := entry_eq_ok.1 found
  cases e with
  | file content =>
    have file : d.isFile p := isFile_iff.2 ⟨content, found⟩
    refine ⟨[p], by rw [filesAt, found]; rfl, fun f => ?_⟩
    rw [List.mem_singleton]
    constructor
    · rintro rfl
      exact .itself file
    · rintro (_ | ⟨directory, -, -, -⟩)
      · rfl
      · rw [not_isFile_of_isDirectory directory] at file
        cases file
  | directory entries =>
    have directory : d.isDirectory p := isDirectory_iff.2 ⟨entries, found⟩
    have own := Entry.isTree_of_at? tree here
    refine ⟨Entry.scriptsBelow p entries, by rw [filesAt, found]; rfl, fun f => ?_⟩
    have walk : Entry.scriptsBelow p entries = (Entry.directory entries).scripts p := by
      rw [Entry.scripts]
    rw [walk]
    constructor
    · intro mem
      obtain ⟨names, content, kept, below, rfl, script⟩ := Entry.exists_of_mem_scripts own mem
      cases names using List.reverseRecOn with
      | nil => cases below
      | append_singleton names name =>
        have file : d.entry (p.descend (names ++ [name])) = .ok (.file content) := by
          rw [entry_descend located kept.isName, Entry.at?_append, here]
          exact below
        refine .below directory kept (isFile_iff.2 ⟨content, file⟩) ?_
        exact (Path.isScript_iff (Path.fileName?_descend solid kept.isName)).1 script
    · rintro (file | ⟨-, kept, file, script⟩)
      · rw [not_isFile_of_isDirectory directory] at file
        cases file
      · obtain ⟨content, file⟩ := isFile_iff.1 file
        rw [entry_descend located kept.isName, Entry.at?_append, here] at file
        refine Entry.mem_scripts kept ?_ own file
        exact (Path.isScript_iff (Path.fileName?_descend solid kept.isName)).2 script

/-- Paths that all lead somewhere give the sorted set of what they stand for. -/
theorem collect_eq_ok (tree : d.root.isTree) (there : ∀ p ∈ paths, d.contains p) :
    ∃ found, d.collect paths = .ok (Path.sortedSet found) ∧
      ∀ f, f ∈ found ↔ ∃ p ∈ paths, d.StandsFor p f := by
  have all : ∃ found, paths.mapM (fun p => (d.filesAt p).mapError (p, ·)) = .ok found ∧
      ∀ f, f ∈ found.flatten ↔ ∃ p ∈ paths, d.StandsFor p f := by
    induction paths with
    | nil => exact ⟨[], rfl, by simp⟩
    | cons p rest ih =>
      rw [List.forall_mem_cons] at there
      obtain ⟨files, own, standsFor⟩ := filesAt_eq_standsFor tree there.1
      obtain ⟨found, others, members⟩ := ih there.2
      refine ⟨files :: found, ?_, fun f => ?_⟩
      · rw [List.mapM_cons, own, others]
        rfl
      · rw [List.flatten_cons, List.mem_append, standsFor, members]
        simp
  obtain ⟨found, each, members⟩ := all
  exact ⟨found.flatten, by rw [collect, each]; rfl, members⟩

theorem StandsFor.isFile (h : d.StandsFor p f) : d.isFile f := by
  cases h with
  | itself file => exact file
  | below _ _ file _ => exact file

/-- A path stands for all that the paths it covers stand for. -/
theorem Covers.standsFor (h : d.Covers p q) (hf : d.StandsFor q f) : d.StandsFor p f := by
  rcases h with own | ⟨directory, below, names, kept, rfl⟩
  · cases hf with
    | itself file => exact own
    | below directory _ _ _ =>
      have file := own.isFile
      rw [not_isFile_of_isDirectory directory] at file
      cases file
  · cases hf with
    | itself file =>
      rw [not_isFile_of_isDirectory below] at file
      cases file
    | @below more name _ kept' file script =>
      rw [← Path.descend_append, ← List.append_assoc] at file ⊢
      have all : Kept ((names ++ more) ++ [name]) := by
        rw [List.append_assoc]
        exact kept_append.2 ⟨kept, kept'⟩
      exact .below directory all file script

theorem Covers.contains (h : d.Covers p q) : d.contains q := by
  rcases h with own | ⟨-, below, -⟩
  · exact contains_of_isFile own.isFile
  · exact contains_of_isDirectory below

/-- Whether no two ways to write one path are among what some paths stand for. -/
def WritesOnce (d : Disk) (paths : List Path) : Prop :=
  ∀ p ∈ paths, ∀ q ∈ paths, ∀ f g, d.StandsFor p f → d.StandsFor q g →
    f.components = g.components → f = g

theorem eq_of_map_components_eq {files others : List Path}
    (once : ∀ f ∈ files, ∀ g ∈ others, f.components = g.components → f = g)
    (h : files.map Path.components = others.map Path.components) : files = others := by
  induction files generalizing others with
  | nil =>
    cases others with
    | nil => rfl
    | cons g others => cases h
  | cons f files ih =>
    cases others with
    | nil => cases h
    | cons g others =>
      obtain ⟨first, rest⟩ := List.cons.inj h
      have same := once f List.mem_cons_self g List.mem_cons_self first
      have below := ih (fun f hf g hg => once f (.tail _ hf) g (.tail _ hg)) rest
      rw [same, below]

/-- Collected files are the sorted set of what the paths stand for. On a tree of files, paths that
all lead somewhere give a list that increases strictly in the order of paths. It holds nothing but
source files that one of the paths stands for, and all of them, a path with the same steps standing
for a path. The paths may come in any order and more than once, and those that others cover may be
among them or not: the list has the same steps one by one, and it is the same list if no path is
written in two ways. -/
theorem collect_eq_sorted_set (tree : d.root.isTree) (there : ∀ p ∈ paths, d.contains p) :
    ∃ files, d.collect paths = .ok files ∧
      files.Pairwise (fun f g => f.compare g = .lt) ∧
      (∀ f ∈ files, ∃ p ∈ paths, d.StandsFor p f) ∧
      (∀ p ∈ paths, ∀ f, d.StandsFor p f → ∃ g ∈ files, g.components = f.components) ∧
      ∀ more : List Path, paths ⊆ more →
        (∀ q ∈ more, q ∈ paths ∨ ∃ p ∈ paths, d.Covers p q) →
        ∃ files', d.collect more = .ok files' ∧
          files'.map Path.components = files.map Path.components ∧
          (d.WritesOnce paths → files' = files) := by
  obtain ⟨found, collected, members⟩ := collect_eq_ok tree there
  refine ⟨Path.sortedSet found, collected, Path.sortedSet_increasing found, ?_, ?_, ?_⟩
  · intro f hf
    exact (members f).1 (Path.sortedSet_subset found hf)
  · intro p hp f hf
    exact Path.exists_mem_sortedSet ((members f).2 ⟨p, hp, hf⟩)
  · intro more all covered
    have there' : ∀ q ∈ more, d.contains q := by
      intro q hq
      rcases covered q hq with hq | ⟨p, -, covers⟩
      · exact there q hq
      · exact covers.contains
    obtain ⟨found', collected', members'⟩ := collect_eq_ok tree there'
    have same (f : Path) : f ∈ found' ↔ f ∈ found := by
      rw [members, members']
      constructor
      · rintro ⟨q, hq, hf⟩
        rcases covered q hq with hq | ⟨p, hp, covers⟩
        · exact ⟨q, hq, hf⟩
        · exact ⟨p, hp, covers.standsFor hf⟩
      · rintro ⟨p, hp, hf⟩
        exact ⟨p, all hp, hf⟩
    have steps : (Path.sortedSet found').map Path.components =
        (Path.sortedSet found).map Path.components := by
      refine Path.map_components_eq (Path.sortedSet_increasing _) (Path.sortedSet_increasing _) ?_
      intro steps
      rw [Path.mem_map_components_sortedSet, Path.mem_map_components_sortedSet]
      simp only [List.mem_map, same]
    refine ⟨Path.sortedSet found', collected', steps, fun once => ?_⟩
    refine eq_of_map_components_eq (fun f hf g hg => ?_) steps
    obtain ⟨p, hp, hf⟩ := (members f).1 ((same f).1 (Path.sortedSet_subset found' hf))
    obtain ⟨q, hq, hg⟩ := (members g).1 (Path.sortedSet_subset found hg)
    exact once p hp q hq f g hf hg

/-- A disk with two scripts, one of them below a directory of modules, and a file of another kind. -/
def scriptDisk : Disk :=
  { root := .directory
      [(Utf8.encode "app".toList, .directory
        [(Utf8.encode "main.JS".toList, .file (.ok [])),
          (Utf8.encode "node_modules".toList, .directory
            [(Utf8.encode "dep.js".toList, .file (.ok []))])]),
        (Utf8.encode "notes.txt".toList, .file (.ok []))]
    workingDirectory := .ofText "/app".toList }

/-- A script below a directory is collected, and it does not matter whether it is named as well. -/
theorem collect_scriptDisk :
    let paths : List Path := [.ofText "/app".toList]
    let script : Path := .ofText "/app/main.JS".toList
    (scriptDisk.root.isTree ∧ ∀ p ∈ paths, scriptDisk.contains p) ∧
      ∃ files files', scriptDisk.collect paths = .ok files ∧
        scriptDisk.collect (script :: paths) = .ok files' ∧
        (∃ f ∈ files, f.components = script.components) ∧
        files'.map Path.components = files.map Path.components := by
  intro paths script
  have tree : scriptDisk.root.isTree := by decide +kernel
  have there : ∀ p ∈ paths, scriptDisk.contains p := List.all_eq_true.1 (by decide +kernel)
  have kept : Kept [Utf8.encode "main.JS".toList] := by
    intro name mem
    cases List.mem_singleton.1 mem
    decide +kernel
  have named : Path.IsScriptName (Utf8.encode "main.JS".toList) :=
    ⟨Utf8.encode "main".toList, 0x4A, 0x53, by decide, by decide, .inr rfl, .inr rfl⟩
  have below : scriptDisk.StandsFor (.ofText "/app".toList) script :=
    @StandsFor.below _ _ [] _ (by decide +kernel) kept (by decide +kernel) named
  obtain ⟨files, collected, -, -, all, more⟩ := collect_eq_sorted_set tree there
  obtain ⟨files', collected', same, -⟩ := more (script :: paths) (List.subset_cons_self _ _)
    (List.forall_mem_cons.2 ⟨.inr ⟨_, List.mem_cons_self, .inl below⟩, fun q hq => .inl hq⟩)
  exact ⟨⟨tree, there⟩, files, files', collected, collected',
    all _ List.mem_cons_self script below, same⟩

end Disk

end ScriptTree
