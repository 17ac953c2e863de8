import Mathlib.Data.List.Infix
import Mathlib.Data.List.Nodup
import ScriptTree.Proofs.PathSearch
import ScriptTree.Proofs.RelativeNames

/-!
# The search above a directory

The module directories of a path and of those above it. The paths above a path are those that are
left when its steps are taken away from the end, one at a time, as they are written
(`Path.map_names_ancestors`). Without two dots these lead to the parents, up to the root, and a
search visits the parents that have a module directory, nearest first, until a lookup finds
something (`search_visits_ancestors`). Taking away two dots leads down again, so with them a search
may leave the parents (`search_leaves_ancestors`).
-/
namespace ScriptTree

namespace Path

/-! ## Names of what lies above -/

theorem said_dropWhile (parts : List (List UInt8)) :
    said (parts.dropWhile isVacant) = said parts := by
  induction parts with
  | nil => rfl
  | cons part rest ih =>
    by_cases vacant : isVacant part
    · rw [List.dropWhile_cons_of_pos vacant, ih, said, said,
        List.filter_cons_of_neg (by simp [vacant])]
    · rw [List.dropWhile_cons_of_neg vacant]

/-- Each time parts are taken away, one name less is said. -/
theorem map_said_shrink (parts : List (List UInt8)) :
    said parts :: (shrink parts).map said = (said parts).tails := by
  induction parts with
  | nil => rfl
  | cons part rest ih =>
    by_cases vacant : isVacant part
    · have quiet : said (part :: rest) = said rest := List.filter_cons_of_neg (by simp [vacant])
      rw [shrink, if_pos vacant, quiet, ih]
    · have names : said (part :: rest) = part :: said rest :=
        List.filter_cons_of_pos (by simp [vacant])
      rw [shrink, if_neg vacant, names, List.tails_cons, ← ih, List.map_cons, said_dropWhile]

theorem suffix_of_mem_shrink {parts left : List (List UInt8)} (h : left ∈ shrink parts) :
    left <:+ parts := by
  induction parts with
  | nil => cases h
  | cons part rest ih =>
    unfold shrink at h
    split at h
    · exact (ih h).trans (List.suffix_cons part rest)
    · rcases List.mem_cons.1 h with rfl | h
      · exact (List.dropWhile_suffix _).trans (List.suffix_cons part rest)
      · exact (ih h).trans (List.suffix_cons part rest)

theorem names_slash_join {parts : List (List UInt8)} (h : ∀ part ∈ parts, slash ∉ part) :
    names ⟨slash :: Text.join slash parts⟩ = said parts := by
  have pieces : said (Text.pieces slash (Text.join slash parts)) = said parts := by
    cases parts with
    | nil => rfl
    | cons part rest => rw [Text.pieces_join (List.cons_ne_nil part rest) h]
  show said (Text.pieces slash (slash :: Text.join slash parts)) = said parts
  rw [Text.pieces_cons_self, said, List.filter_cons_of_neg (by decide)]
  exact pieces

/-- The paths above a path have the beginnings of its names, the longest one first. -/
theorem map_names_ancestors {p : Path} (h : p.isAbsolute) :
    p.ancestors.map names = p.names.inits.reverse := by
  obtain ⟨rest, hrest⟩ := octets_of_isAbsolute h
  let body := Text.pieces slash rest
  have noSlash : ∀ part ∈ body, slash ∉ part := fun part => Text.notMem_of_mem_pieces
  have ancestors : p.ancestors = p :: (shrink body.reverse).map fun reversed =>
      ⟨slash :: Text.join slash reversed.reverse⟩ := by
    rw [Path.ancestors, hrest, Text.pieces_cons_self]
    exact if_pos h
  have own : p.names = said body := by
    show said (Text.pieces slash p.octets) = said body
    rw [hrest, Text.pieces_cons_self, said, List.filter_cons_of_neg (by decide)]
    rfl
  have reversed (parts : List (List UInt8)) : said parts.reverse = (said parts).reverse :=
    List.filter_reverse
  have above (left : List (List UInt8)) (hl : left ∈ shrink body.reverse) :
      names ⟨slash :: Text.join slash left.reverse⟩ = (said left).reverse := by
    rw [names_slash_join, reversed]
    intro part hp
    have mem := (suffix_of_mem_shrink hl).subset (List.mem_reverse.1 hp)
    exact noSlash part (List.mem_reverse.1 mem)
  calc p.ancestors.map names
      = (said body.reverse).reverse ::
          (shrink body.reverse).map fun left => (said left).reverse := by
        rw [ancestors, List.map_cons, List.map_map, own, reversed, List.reverse_reverse]
        exact congrArg _ (List.map_congr_left above)
    _ = (said body.reverse).tails.map List.reverse := by
        rw [← map_said_shrink, List.map_cons, List.map_map]
        rfl
    _ = p.names.inits.reverse := by
        rw [List.map_reverse_tails, reversed, List.reverse_reverse, own]

theorem lexical_of_notMem {p : Path} (h : [dot, dot] ∉ p.names) : p.lexical = p.names :=
  follow_of_notMem h

/-- The paths above a path without two dots lead to its parents. -/
theorem map_lexical_ancestors {p : Path} (h : p.isAbsolute) (noUp : [dot, dot] ∉ p.names) :
    p.ancestors.map lexical = p.lexical.inits.reverse := by
  rw [lexical_of_notMem noUp, ← map_names_ancestors h]
  refine List.map_congr_left fun above ha => lexical_of_notMem fun up => noUp ?_
  have mem : above.names ∈ p.names.inits.reverse :=
    map_names_ancestors h ▸ List.mem_map_of_mem ha
  exact ((List.mem_inits _ _).1 (List.mem_reverse.1 mem)).subset up

end Path

/-! ## Directories on the disk -/

theorem Entry.at?_append (entry : Entry) (place rest : Place) :
    entry.at? (place ++ rest) = (entry.at? place).bind (at? · rest) := by
  induction place generalizing entry with
  | nil => rw [List.nil_append, at?, Option.bind_some]
  | cons name place ih =>
    cases entry with
    | file content => rfl
    | directory entries =>
      rw [List.cons_append, at?, at?, Option.bind_assoc]
      exact congrArg _ (funext ih)

namespace Disk

open ScriptTree.Path (said isVacant)

/-- Whether there is a directory at a place. -/
def hasDirectory (d : Disk) (place : Place) : Bool :=
  match d.root.at? place with
  | some (.directory _) => true
  | _ => false

/-- Where there is no directory, no path goes on. -/
theorem step_of_not_directory {root : Entry} {place : Place} {part : List UInt8}
    (h : ∀ entries, root.at? place ≠ some (.directory entries)) (next : Place) :
    step root place part ≠ .ok next := fun step => by
  obtain ⟨entries, here, -⟩ := directory_of_step step
  exact h entries here

/-- Where there is no directory, there is none below. -/
theorem not_directory_append {root : Entry} {place : Place}
    (h : ∀ entries, root.at? place ≠ some (.directory entries)) (rest : Place)
    (entries : List (List UInt8 × Entry)) :
    root.at? (place ++ rest) ≠ some (.directory entries) := fun directory => by
  rw [Entry.at?_append] at directory
  cases found : root.at? place with
  | none =>
    rw [found] at directory
    cases directory
  | some entry =>
    rw [found, Option.bind_some] at directory
    cases entry with
    | directory entries => exact h entries found
    | file content => cases rest <;> cases directory

/-- In a directory a part that is not two dots goes to the entry it names, if it names one. -/
theorem step_of_ne_up {root : Entry} {place : Place} {entries : List (List UInt8 × Entry)}
    (here : root.at? place = some (.directory entries)) {part : List UInt8}
    (noUp : part ≠ [Path.dot, Path.dot]) :
    step root place part = .ok (place ++ said [part]) ∨
      step root place part = .error .notFound ∧ root.at? (place ++ said [part]) = none := by
  by_cases vacant : isVacant part
  · left
    simp [step, here, Path.component?, vacant, said]
  · have name : Path.component? part = some (.name part) := by
      rw [Path.component?, if_neg vacant, if_neg noUp]
    have own : said [part] = [part] := by simp [said, vacant]
    rw [own]
    cases found : entries.lookup part with
    | some entry =>
      left
      simp [step, here, name, found]
    | none =>
      right
      refine ⟨by simp [step, here, name, found], ?_⟩
      rw [Entry.at?_append, here, Option.bind_some, Entry.at?, found]
      rfl

/-- Parts without two dots lead to a directory if and only if there is one at their names. -/
theorem foldlM_step_directory (root : Entry) {parts : List (List UInt8)}
    (noUp : [Path.dot, Path.dot] ∉ parts) (place : Place) :
    (∃ found entries, parts.foldlM (step root) place = .ok found ∧
      root.at? found = some (.directory entries)) ↔
      ∃ entries, root.at? (place ++ said parts) = some (.directory entries) := by
  induction parts generalizing place with
  | nil =>
    rw [List.foldlM_nil, said, List.filter_nil, List.append_nil]
    constructor
    · rintro ⟨found, entries, ⟨⟩, directory⟩
      exact ⟨entries, directory⟩
    · rintro ⟨entries, directory⟩
      exact ⟨place, entries, rfl, directory⟩
  | cons part rest ih =>
    rw [List.mem_cons, not_or] at noUp
    have split : said (part :: rest) = said [part] ++ said rest := Path.said_append [part] rest
    rw [List.foldlM_cons, split]
    -- A part without a name stays at any directory, but not at a file: the place has to be one.
    by_cases here : ∃ entries, root.at? place = some (.directory entries)
    · obtain ⟨entries, here⟩ := here
      rw [← List.append_assoc]
      rcases step_of_ne_up here (Ne.symm noUp.1) with goes | ⟨stops, nothing⟩
      · rw [goes]
        exact ih noUp.2 (place ++ said [part])
      · rw [stops, Entry.at?_append, nothing]
        exact iff_of_false (by rintro ⟨_, _, ⟨⟩, _⟩) (by rintro ⟨_, ⟨⟩⟩)
    · have nowhere := not_exists.1 here
      refine iff_of_false ?_ ?_
      · rintro ⟨found, entries, walk, -⟩
        obtain ⟨next, step, -⟩ := bind_eq_ok.1 walk
        exact step_of_not_directory nowhere next step
      · rintro ⟨entries, directory⟩
        exact not_directory_append nowhere _ entries directory

/-- An absolute path without two dots leads to a directory if and only if there is one at its
names. -/
theorem isDirectory_eq_hasDirectory {d : Disk} {p : Path} (h : p.isAbsolute)
    (noUp : [Path.dot, Path.dot] ∉ p.names) : d.isDirectory p = d.hasDirectory p.names := by
  have noUp : [Path.dot, Path.dot] ∉ p.parts := fun up =>
    noUp (List.mem_filter.2 ⟨up, by decide⟩)
  have walk := foldlM_step_directory d.root noUp []
  rw [← locate_of_isAbsolute d h, List.nil_append] at walk
  rw [Bool.eq_iff_iff]
  have left : d.isDirectory p = true ↔ ∃ found entries, d.locate p = .ok found ∧
      d.root.at? found = some (.directory entries) := by
    unfold isDirectory
    split
    · next entries e => exact iff_of_true rfl (exists_comm.1 ⟨entries, entry_eq_ok.1 e⟩)
    · next none =>
      refine iff_of_false Bool.false_ne_true ?_
      rintro ⟨found, entries, located⟩
      exact none entries (entry_eq_ok.2 ⟨found, located⟩)
  have right : d.hasDirectory p.names = true ↔
      ∃ entries, d.root.at? p.names = some (.directory entries) := by
    unfold hasDirectory
    split
    · next entries e => exact iff_of_true rfl ⟨entries, e⟩
    · next none => exact iff_of_false Bool.false_ne_true fun ⟨entries, e⟩ => none entries e
  exact left.trans (walk.trans right.symm)

end Disk

namespace Module

/-! ## Module directories -/

/-- The places above a directory, itself first, that have a module directory: these directories. -/
def parentDirectories (d : Disk) (place : Place) : List Place :=
  (place.inits.reverse.map (· ++ submoduleDirectory.names)).filter d.hasDirectory

/-- Above a directory that is given without two dots, the module directories are those of its
parents. -/
theorem map_lexical_moduleDirectories (d : Disk) {context : Path} (absolute : context.isAbsolute)
    (noUp : [Path.dot, Path.dot] ∉ context.names) :
    (moduleDirectories d context).map Path.lexical = parentDirectories d context.lexical := by
  have plain : submoduleDirectory.isAbsolute = false := by decide
  have firm : [Path.dot, Path.dot] ∉ submoduleDirectory.names := by decide
  have above {p : Path} (hp : p ∈ context.ancestors) :
      (p.join submoduleDirectory).lexical = p.lexical ++ submoduleDirectory.names ∧
        d.isDirectory (p.join submoduleDirectory) =
          d.hasDirectory (p.join submoduleDirectory).lexical := by
    have pAbsolute := PathSearch.isAbsolute_of_mem_ancestors absolute hp
    have names := Path.names_join plain pAbsolute
    have mem : p.names ∈ context.names.inits.reverse :=
      Path.map_names_ancestors absolute ▸ List.mem_map_of_mem hp
    have pNoUp : [Path.dot, Path.dot] ∉ p.names := fun up =>
      noUp (((List.mem_inits _ _).1 (List.mem_reverse.1 mem)).subset up)
    have joined : [Path.dot, Path.dot] ∉ (p.join submoduleDirectory).names := by
      rw [names, List.mem_append, not_or]
      exact ⟨pNoUp, firm⟩
    rw [Path.lexical_of_notMem joined, Path.lexical_of_notMem pNoUp]
    exact ⟨names, Disk.isDirectory_eq_hasDirectory (Path.isAbsolute_join plain pAbsolute) joined⟩
  have places : (context.ancestors.map (·.join submoduleDirectory)).map Path.lexical =
      context.lexical.inits.reverse.map (· ++ submoduleDirectory.names) := by
    rw [← Path.map_lexical_ancestors absolute noUp, List.map_map, List.map_map]
    exact List.map_congr_left fun p hp => (above hp).1
  rw [parentDirectories, ← places, List.filter_map, moduleDirectories]
  congr 1
  refine List.filter_congr fun directory h => ?_
  obtain ⟨p, hp, rfl⟩ := List.mem_map.1 h
  exact (above hp).2

/-! ## A search that stops -/

section

variable {σ ε : Type} (lookup : Url → StateM σ (Except ε (Option Url)))

/-- A search that asks for some of the locations has stopped at the first answer that finds
something, or at the end. -/
structure Stops (answers : List (Except ε (Option Url))) (later : List Url) (found : Option Url) :
    Prop where
  first : ∀ answer ∈ answers.dropLast, answered answer = none
  found_eq : found = answers.findSome? answered
  complete : found = none → later = []

/-- A search asks for its first location, and for the others if nothing is found there. -/
theorem firstFound_cons_run (url : Url) (urls : List Url) (s : σ) :
    (firstFound lookup (url :: urls)).run s =
      match answered ((lookup url).run s).1 with
      | some found => (some found, ((lookup url).run s).2)
      | none => (firstFound lookup urls).run ((lookup url).run s).2 := by
  rw [firstFound, StateT.run_bind]
  rcases (lookup url).run s with ⟨answer, after⟩
  cases answer with
  | error e => rfl
  | ok result => cases result <;> rfl

/-- A search asks for locations one after another, each once, and stops. -/
theorem firstFound_run (urls : List Url) (s : σ) :
    ∃ asked later answers found s', urls = asked ++ later ∧
      (asked.mapM lookup).run s = (answers, s') ∧
      (firstFound lookup urls).run s = (found, s') ∧ Stops answers later found := by
  induction urls generalizing s with
  | nil => exact ⟨[], [], [], none, s, rfl, rfl, rfl, ⟨by simp, rfl, fun _ => rfl⟩⟩
  | cons url urls ih =>
    have next := firstFound_cons_run lookup url urls s
    have recorded (others : List Url) : ((url :: others).mapM lookup).run s =
        (((lookup url).run s).1 :: ((others.mapM lookup).run ((lookup url).run s).2).1,
          ((others.mapM lookup).run ((lookup url).run s).2).2) := by
      rw [List.mapM_cons, StateT.run_bind]
      rfl
    generalize (lookup url).run s = own at next recorded
    obtain ⟨answer, after⟩ := own
    cases hit : answered answer with
    | some found =>
      rw [hit] at next
      refine ⟨[url], urls, [answer], some found, after, rfl, recorded [], next, by simp, ?_, ?_⟩
      · simp [hit]
      · rintro ⟨⟩
    | none =>
      rw [hit] at next
      obtain ⟨asked, later, answers, found, s', rfl, run, search, stops⟩ := ih after
      refine ⟨url :: asked, later, answer :: answers, found, s', rfl, ?_, next.trans search, ?_, ?_,
        stops.complete⟩
      · rw [recorded, run]
      · intro other ho
        cases answers with
        | nil => cases ho
        | cons second answers =>
          rw [List.dropLast_cons_cons] at ho
          rcases List.mem_cons.1 ho with rfl | ho
          · exact hit
          · exact stops.first other ho
      · rw [List.findSome?_cons, hit]
        exact stops.found_eq

end

theorem nodup_parentDirectories (d : Disk) (place : Place) : (parentDirectories d place).Nodup := by
  have lengths : place.inits.map List.length = List.range (place.length + 1) :=
    List.ext_getElem (by simp) fun i h _ => by
      rw [List.length_map, List.length_inits] at h
      rw [List.getElem_map, List.getElem_inits, List.length_take, List.getElem_range]
      exact Nat.min_eq_left (Nat.le_of_lt_succ h)
  have distinct : place.inits.Nodup := List.Nodup.of_map List.length (lengths ▸ List.nodup_range)
  refine List.Nodup.filter _ (List.Nodup.map (fun _ _ => List.append_cancel_right) ?_)
  exact List.nodup_reverse.2 distinct

end Module

open ScriptTree.Module in
/-- A search in module directories visits the paths above its context as they are written, nearest
first: those to which the names of the context lead, then without the last one, and so on up to the
root. Without two dots these are the context and its parents, and the module directories are those
of the parents that have one, each once. For each of them, as far as it can be joined with the
relative name, the search makes one lookup, in this order; a lookup that fails or finds nothing is
passed over, and after the first one that finds something there is no other. -/
theorem search_visits_ancestors {σ ε : Type} (d : Disk) (working : d.workingDirectory.isAbsolute)
    (p : Path) (relative : List Char) (lookup : Url → StateM σ (Except ε (Option Url))) (s : σ) :
    let context := d.absolute p
    context.ancestors.map Path.lexical = context.names.inits.reverse.map (Path.follow []) ∧
      ([Path.dot, Path.dot] ∉ context.names →
        context.ancestors.map Path.lexical = context.lexical.inits.reverse ∧
          (moduleDirectories d context).map Path.lexical = parentDirectories d context.lexical ∧
          (parentDirectories d context.lexical).Nodup) ∧
      ∃ asked later answers found s',
        (moduleDirectories d context).filterMap (candidate? relative) = asked ++ later ∧
          (asked.mapM lookup).run s = (answers, s') ∧
          (firstFound lookup (submoduleCandidates d context relative)).run s = (found, s') ∧
          Stops answers later found := by
  intro context
  have absolute : context.isAbsolute := by
    show (d.workingDirectory.join p).isAbsolute = true
    cases given : p.isAbsolute with
    | true => rwa [Path.join, if_pos given]
    | false => exact Path.isAbsolute_join given working
  refine ⟨?_, fun noUp => ⟨Path.map_lexical_ancestors absolute noUp,
    map_lexical_moduleDirectories d absolute noUp, nodup_parentDirectories d _⟩, ?_⟩
  · rw [← Path.map_names_ancestors absolute, List.map_map]
    rfl
  · rw [submoduleCandidates_eq]
    exact firstFound_run lookup _ s

/-- Three directories, each with a module directory, one in the other; the second one is the working
directory, and only the third one has a module. -/
def levelsDisk : Disk :=
  let octets (text : String) := Utf8.encode text.toList
  let modules (entries : List (List UInt8 × Entry)) : List UInt8 × Entry :=
    (octets "node_modules", .directory entries)
  let inner : Entry := .directory [modules [(octets "x.js", .file (.ok []))]]
  let outer : Entry := .directory [modules [], (octets "b", inner)]
  ⟨.directory [modules [], (octets "a", outer)], .ofText "/a".toList⟩

open ScriptTree.Module in
/-- Above a directory that is given with dots, a lookup that fails is passed over, and after the one
that finds something the last directory is not visited. -/
theorem search_stops_at_parent :
    let context := levelsDisk.absolute (.ofText "./b/.".toList)
    let lookup : Url → StateM (List Url) (Except Unit (Option Url)) := fun url asked =>
      (if asked = [] then .error () else .ok (some url), asked ++ [url])
    let near := Url.ofSegments ["a".toList, "b".toList, "node_modules".toList, "x".toList]
    let far := Url.ofSegments ["a".toList, "node_modules".toList, "x".toList]
    let last := Url.ofSegments ["node_modules".toList, "x".toList]
    (levelsDisk.workingDirectory.isAbsolute ∧ [Path.dot, Path.dot] ∉ context.names) ∧
      (moduleDirectories levelsDisk context).map Path.lexical =
        parentDirectories levelsDisk [Utf8.encode "a".toList, Utf8.encode "b".toList] ∧
      ∃ asked later answers found s', [near, far, last] = asked ++ later ∧
        (asked.mapM lookup).run [] = (answers, s') ∧
        (some far, [near, far]) = (found, s') ∧ Stops answers later found := by
  intro context lookup near far last
  have working : levelsDisk.workingDirectory.isAbsolute := by decide
  have noUp : [Path.dot, Path.dot] ∉ context.names := by decide +kernel
  have place : context.lexical = [Utf8.encode "a".toList, Utf8.encode "b".toList] := by
    decide +kernel
  have candidates : (moduleDirectories levelsDisk context).filterMap (candidate? "x".toList) =
      [near, far, last] := by decide +kernel
  have run : (firstFound lookup (submoduleCandidates levelsDisk context "x".toList)).run [] =
      (some far, [near, far]) := rfl
  obtain ⟨-, parents, search⟩ := search_visits_ancestors levelsDisk working
    (.ofText "./b/.".toList) "x".toList lookup []
  rw [← candidates, ← run, ← place]
  exact ⟨⟨working, noUp⟩, (parents noUp).2.1, search⟩

open ScriptTree.Module in
/-- Above a directory that is given with two dots, a search visits a directory that is none of the
parents, and one of the parents twice; it finds a module that none of them has. -/
theorem search_leaves_ancestors :
    let octets (text : String) := Utf8.encode text.toList
    let context := levelsDisk.absolute (.ofText "b/..".toList)
    context.lexical = [octets "a"] ∧
      parentDirectories levelsDisk context.lexical =
        [[octets "a", octets "node_modules"], [octets "node_modules"]] ∧
      (moduleDirectories levelsDisk context).map Path.lexical =
        [[octets "a", octets "node_modules"], [octets "a", octets "b", octets "node_modules"],
          [octets "a", octets "node_modules"], [octets "node_modules"]] ∧
      ((Resolver.mk [libraryBase] [] context).resolve levelsDisk "x".toList).map (·.path) =
        some (.ofText "/a/b/node_modules/x.js".toList) := by
  decide +kernel

end ScriptTree
