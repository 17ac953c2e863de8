import ScriptTree.Proofs.Bases

/-!
# Nearer packages

A location that names nothing itself is looked for in the module directories above the context. The
nearest one that has a file for it decides, past directories without the name and past packages with
a malformed descriptor, as long as no package before it has a main module that is not there
(`nearest_offer_decides`). A lookup takes a main module without looking for its file, so a package
like that ends the search, and hides all those farther up (`dangling_package_hides_others`).
-/
namespace ScriptTree

namespace Module

open PathSearch

variable {d : Disk} {context directory : Path} {url base found : Url} {relative : List Char}

/-! ## What module directories have -/

/-- What a relative name names in a module directory. -/
def named? (d : Disk) (relative : List Char) (directory : Path) : Option Url :=
  (candidate? relative directory).bind fun candidate => answered (locateHere d candidate)

/-- Whether a module directory has a file for a relative name. -/
def Offers (d : Disk) (relative : List Char) (directory : Path) (found : Url) : Prop :=
  ∃ candidate, candidate? relative directory = some candidate ∧
    locateHere d candidate = .ok (some found) ∧ isFileAt d found = true

/-- Whether what a module directory has for a relative name is a package, without a script of its
name, and the descriptor of the package names a main module that is not there. -/
inductive Dangles (d : Disk) (relative : List Char) (directory : Path) : Prop
  | intro {candidate : Url} {path main : Path} {package : Package}
      (located : candidate? relative directory = some candidate)
      (here : localPath candidate = .ok path) (noScript : d.isFile (withSuffix path) = false)
      (there : d.isFile (path.join Package.fileName) = true)
      (read : Package.read d (path.join Package.fileName) = .ok package)
      (named : package.mainPath = .ok (some main)) (absent : d.isFile main.rewritten = false)

theorem named?_eq_some : named? d relative directory = some found ↔
    ∃ candidate, candidate? relative directory = some candidate ∧
      locateHere d candidate = .ok (some found) := by
  rw [named?, Option.bind_eq_some_iff]
  exact exists_congr fun candidate => and_congr_right fun _ => answered_eq_some

theorem offers_iff : Offers d relative directory found ↔
    named? d relative directory = some found ∧ isFileAt d found = true := by
  rw [named?_eq_some, Offers, ← exists_and_right]
  exact exists_congr fun candidate => and_assoc.symm

/-- What a module directory has is a file, or it is a main module that is not there. -/
theorem dangles_iff : Dangles d relative directory ↔
    ∃ found, named? d relative directory = some found ∧ isFileAt d found = false := by
  constructor
  · rintro @⟨candidate, path, main, package, located, here, noScript, there, read, named, absent⟩
    have named : main? d path = .ok (some main) := by
      rw [main?_of_descriptor there, read]
      exact named
    obtain ⟨found, answer, file⟩ := locateHere_of_main? here noScript named
    exact ⟨found, named?_eq_some.2 ⟨candidate, located, answer⟩, file.trans absent⟩
  · rintro ⟨found, h, noFile⟩
    obtain ⟨candidate, located, answer⟩ := named?_eq_some.1 h
    obtain ⟨path, here, -⟩ := locateHere_cases answer
    have outcome := outcome_locateHere (d := d) here
    rw [answer] at outcome
    cases outcome with
    | file file => rw [file] at noFile; cases noFile
    | main noScript named file =>
      obtain ⟨there, package, read, named⟩ := main?_eq_some named
      exact ⟨located, here, noScript, there, read, named, file ▸ noFile⟩

/-! ## The search -/

/-- Where a location itself names nothing, the first module directory that has anything decides. -/
theorem locate_eq_findSome? (under : relativeName? url base = some relative)
    (here : locateHere d url = .ok none) :
    locate d context true url base =
      .ok ((moduleDirectories d context).findSome? (named? d relative)) := by
  have search : (firstFound fun url => (pure (locateHere d url) : Id _))
      (submoduleCandidates d context relative) =
        (moduleDirectories d context).findSome? (named? d relative) := by
    rw [firstFound_pure, submoduleCandidates_eq, ← List.head?_filterMap, List.filterMap_filterMap,
      List.head?_filterMap]
    rfl
  rw [locate, here, under, ← search]
  rfl

/-- The first module directory that has a file, and what those before it have. -/
theorem exists_nearest {directories : List Path}
    (offered : ∃ directory ∈ directories, ∃ found, Offers d relative directory found) :
    ∃ before nearest after found, directories = before ++ nearest :: after ∧
      Offers d relative nearest found ∧
      ∀ near ∈ before, ∀ other, ¬Offers d relative near other := by
  classical
  obtain ⟨directory, mem, offers⟩ := offered
  cases first : directories.find? fun directory => ∃ found, Offers d relative directory found with
  | none => exact absurd offers (by simpa using List.find?_eq_none.1 first directory mem)
  | some nearest =>
    obtain ⟨hit, before, after, split, misses⟩ := List.find?_eq_some_iff_append.1 first
    obtain ⟨found, offers⟩ := of_decide_eq_true hit
    refine ⟨before, nearest, after, found, split, offers, fun near hn other has => ?_⟩
    have none := misses near hn
    rw [Bool.not_eq_true', decide_eq_false_iff_not] at none
    exact none ⟨other, has⟩

/-- Directories that have no file and no main module in vain have nothing. -/
theorem findSome?_named?_of_firm {directories : List Path}
    (noFile : ∀ near ∈ directories, ∀ other, ¬Offers d relative near other)
    (firm : ∀ near ∈ directories, ¬Dangles d relative near) :
    directories.findSome? (named? d relative) = none := by
  refine List.findSome?_eq_none_iff.2 fun near hn => Option.eq_none_iff_forall_ne_some.2 ?_
  intro found named
  cases file : isFileAt d found with
  | true => exact noFile near hn found (offers_iff.2 ⟨named, file⟩)
  | false => exact firm near hn (dangles_iff.2 ⟨found, named, file⟩)

/-- Among directories that have no file, the first main module in vain is taken. -/
theorem findSome?_named?_of_dangles {directories : List Path}
    (noFile : ∀ near ∈ directories, ∀ other, ¬Offers d relative near other)
    (dangles : ∃ near ∈ directories, Dangles d relative near) :
    ∃ found, directories.findSome? (named? d relative) = some found ∧ isFileAt d found = false := by
  obtain ⟨near, hn, dangles⟩ := dangles
  obtain ⟨other, named, -⟩ := dangles_iff.1 dangles
  have some : (directories.findSome? (named? d relative)).isSome :=
    List.findSome?_isSome_iff.2 ⟨near, hn, by rw [named]; rfl⟩
  obtain ⟨found, taken⟩ := Option.isSome_iff_exists.1 some
  obtain ⟨first, hf, named⟩ := List.exists_of_findSome?_eq_some taken
  refine ⟨found, taken, Bool.eq_false_iff.2 fun file => ?_⟩
  exact noFile first hf found (offers_iff.2 ⟨named, file⟩)

end Module

open ScriptTree.Module in
/-- A location below a base that names nothing itself, and for which some module directory above the
context has a file. The nearest of those that have one decides, whatever else is in the directories
before it, unless the search ends at a package there with a main module that is not there; then no
module directory counts any more, and only a file at the very location is found. -/
theorem nearest_offer_decides {d : Disk} {context : Path} {url base : Url} {relative : List Char}
    (under : relativeName? url base = some relative) (here : locateHere d url = .ok none)
    (offered : ∃ directory ∈ moduleDirectories d context, ∃ found,
      Offers d relative directory found) :
    ∃ before nearest after found path,
      moduleDirectories d context = before ++ nearest :: after ∧
        Offers d relative nearest found ∧
        (∀ near ∈ before, ∀ other, ¬Offers d relative near other) ∧
        localPath url = .ok path ∧
        ((∀ near ∈ before, ¬Dangles d relative near) → load? d context url base = some found) ∧
        ((∃ near ∈ before, Dangles d relative near) →
          load? d context url base = if d.isFile path then Url.ofFilePath? path else none) := by
  obtain ⟨before, nearest, after, found, split, offers, noFile⟩ := exists_nearest offered
  obtain ⟨path, located⟩ : ∃ path, localPath url = .ok path := by
    obtain ⟨path, located, -⟩ := bind_eq_ok.1 here
    exact ⟨path, located⟩
  have search : locate d context true url base = .ok
      ((before.findSome? (named? d relative)).or
        ((nearest :: after).findSome? (named? d relative))) := by
    rw [locate_eq_findSome? under here, split, List.findSome?_append]
  refine ⟨before, nearest, after, found, path, split, offers, noFile, located, ?_, ?_⟩
  -- Whether there is a file is asked when the search is over, so what it has taken is the only
  -- candidate, next to the very location.
  · intro firm
    obtain ⟨named, file⟩ := offers_iff.1 offers
    rw [findSome?_named?_of_firm noFile firm, Option.none_or, List.findSome?_cons, named] at search
    rw [load?, locateFile_eq located, search]
    simp only [Except.map, Option.filter_some, file, if_true, Option.some_or]
  · intro dangles
    obtain ⟨other, taken, absent⟩ := findSome?_named?_of_dangles noFile dangles
    rw [taken, Option.some_or] at search
    rw [load?, locateFile_eq located, search]
    simp only [Except.map, Option.filter_some, absent, Bool.false_eq_true, if_false, Option.none_or]

/-- An application with a package in its module directory, and one of the same name in the module
directory above. The nearer one has only a descriptor, the farther one an index. -/
def nestedDisk (descriptor : String) : Disk :=
  let octets (text : String) := Utf8.encode text.toList
  let modules (name content : String) : List UInt8 × Entry :=
    (octets "node_modules", .directory [(octets "pkg",
      .directory [(octets name, .file (.ok (octets content)))])])
  ⟨.directory [modules "index.js" "",
    (octets "app", .directory [modules "package.json" descriptor])], ⟨[Path.slash]⟩⟩

open ScriptTree.Module in
/-- A package with a malformed descriptor hides no package farther up. -/
theorem malformed_package_is_passed :
    let d := nestedDisk "\x7b"
    let url := Url.ofSegments ["lib".toList, "pkg".toList]
    let found := Url.ofSegments ["node_modules".toList, "pkg".toList, "index.js".toList]
    (relativeName? url libraryBase.url = some "pkg".toList ∧ locateHere d url = .ok none ∧
      Offers d "pkg".toList (.ofText "/node_modules".toList) found) ∧
    moduleDirectories d appDirectory =
      [.ofText "/app/node_modules".toList, .ofText "/node_modules".toList] ∧
    load? d appDirectory url libraryBase.url = some found := by
  intro d url found
  have under : relativeName? url libraryBase.url = some "pkg".toList := by decide +kernel
  have here : locateHere d url = .ok none := eq_ok_of_toOption (by decide +kernel)
  have directories : moduleDirectories d appDirectory =
      [.ofText "/app/node_modules".toList, .ofText "/node_modules".toList] := by decide +kernel
  have offers : Offers d "pkg".toList (.ofText "/node_modules".toList) found :=
    offers_iff.2 (by decide +kernel)
  have only : ∀ near ∈ moduleDirectories d appDirectory, ∀ other ∈ named? d "pkg".toList near,
      other = found := by decide +kernel
  obtain ⟨before, nearest, after, other, path, split, has, -, -, decides, -⟩ :=
    nearest_offer_decides under here ⟨_, by rw [directories]; simp, found, offers⟩
  have firm : ∀ near ∈ before, ¬Dangles d "pkg".toList near := by
    intro near hn dangles
    obtain ⟨other, named, absent⟩ := dangles_iff.1 dangles
    obtain rfl := only near (by rw [split]; exact List.mem_append_left _ hn) other named
    exact Bool.false_ne_true (absent.symm.trans (offers_iff.1 offers).2)
  obtain rfl := only nearest (by rw [split]; simp) other (offers_iff.1 has).1
  exact ⟨⟨under, here, offers⟩, directories, decides firm⟩

open ScriptTree.Module in
/-- A package with a main module that is not there hides the package farther up. -/
theorem dangling_package_hides_others :
    let d := nestedDisk "\x7b\"main\": \"gone\"\x7d"
    let url := Url.ofSegments ["lib".toList, "pkg".toList]
    let found := Url.ofSegments ["node_modules".toList, "pkg".toList, "index.js".toList]
    relativeName? url libraryBase.url = some "pkg".toList ∧ locateHere d url = .ok none ∧
      Offers d "pkg".toList (.ofText "/node_modules".toList) found ∧
      (Path.ofText "/node_modules".toList) ∈ moduleDirectories d appDirectory ∧
      Dangles d "pkg".toList (.ofText "/app/node_modules".toList) ∧
      load? d appDirectory url libraryBase.url = none := by
  intro d url found
  refine ⟨by decide +kernel, eq_ok_of_toOption (by decide +kernel),
    offers_iff.2 (by decide +kernel), by decide +kernel, dangles_iff.2 ?_, by decide +kernel⟩
  exact ⟨.ofSegments ["app".toList, "node_modules".toList, "pkg".toList, "gone.js".toList],
    by decide +kernel⟩

end ScriptTree
