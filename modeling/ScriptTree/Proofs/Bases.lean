import ScriptTree.Proofs.PathSearch
import ScriptTree.Proofs.ResolvedFiles

/-!
# Search bases

Each search base is tried by itself, and the first one that has the module decides. A base fails for
one of the reasons in `Resolver.Miss`, and there are no others (`resolveAt_eq_none_iff`); wherever
it happens, on the disk, in a descriptor or in a URL, the failure ends with the base. So a base that
fails may stand anywhere, and bases after one that succeeds do not matter (`bases_are_independent`).
-/
namespace ScriptTree

open PathSearch

namespace Module

variable {d : Disk} {context path : Path} {url base found : Url} {e : LookupError}

/-! ## Why a location has no file -/

/-- The reasons for which no file is found for a location. -/
inductive Fruitless (d : Disk) (context : Path) (url base : Url) : Prop
  /-- The location is not on this machine. -/
  | remote {e : LookupError} (away : localPath url = .error e)
  /-- There is a descriptor, but it cannot be read, or it is malformed. -/
  | unreadable {path : Path} {e : LookupError} (here : localPath url = .ok path)
      (noScript : d.isFile (withSuffix path) = false)
      (there : d.isFile (path.join Package.fileName) = true)
      (failed : Package.read d (path.join Package.fileName) = .error e)
  /-- The descriptor names a main module by a text that leads to no path. -/
  | badMain {path : Path} {package : Package} {e : LookupError} (here : localPath url = .ok path)
      (noScript : d.isFile (withSuffix path) = false)
      (there : d.isFile (path.join Package.fileName) = true)
      (read : Package.read d (path.join Package.fileName) = .ok package)
      (failed : package.mainPath = .error e)
  /-- The descriptor names a main module that is not there. -/
  | danglingMain {path main : Path} {package : Package} (here : localPath url = .ok path)
      (noScript : d.isFile (withSuffix path) = false)
      (there : d.isFile (path.join Package.fileName) = true)
      (read : Package.read d (path.join Package.fileName) = .ok package)
      (named : package.mainPath = .ok (some main)) (absent : d.isFile main.rewritten = false)
  /-- There is neither a module at the location nor a file, nor one in the module directories. -/
  | nothing {path : Path} (here : localPath url = .ok path) (noModule : locateHere d url = .ok none)
      (above : ∀ found, locate d context true url base = .ok (some found) →
        isFileAt d found = false)
      (noFile : d.isFile path = false)

theorem locate_of_locateHere_some {submodules : Bool} (h : locateHere d url = .ok (some found)) :
    locate d context submodules url base = .ok (some found) := by
  rw [locate, h]
  rfl

theorem load?_of_locateHere_error (h : locateHere d url = .error e) :
    load? d context url base = none := by
  rw [load?, locateFile, locate, h]
  rfl

/-- Nothing is found if and only if neither what a lookup finds nor the location itself is a file. -/
theorem load?_eq_none_of_locate {result : Option Url} (here : localPath url = .ok path)
    (located : locate d context true url base = .ok result) :
    load? d context url base = none ↔
      (∀ found, result = some found → isFileAt d found = false) ∧ d.isFile path = false := by
  obtain ⟨location, hlocation, -⟩ := fileUrl_of_isAbsolute (isAbsolute_of_localPath here)
  rw [load?, locateFile_eq here, located, Except.map, Option.or_eq_none_iff,
    Option.filter_eq_none_iff, hlocation]
  refine and_congr (forall_congr' fun found => ?_) ?_
  · rw [Bool.not_eq_true]
  · simp

theorem main?_of_descriptor (there : d.isFile (path.join Package.fileName) = true) :
    main? d path = Package.read d (path.join Package.fileName) >>= Package.mainPath :=
  if_pos there

/-- A main module is named by a descriptor that can be read. -/
theorem main?_eq_some {main : Path} (h : main? d path = .ok (some main)) :
    d.isFile (path.join Package.fileName) = true ∧
      ∃ package, Package.read d (path.join Package.fileName) = .ok package ∧
        package.mainPath = .ok (some main) := by
  unfold main? at h
  split at h
  · next there => exact ⟨there, bind_eq_ok.1 h⟩
  · cases h

/-- Where a main module is wanted in vain, there is a descriptor, which is at fault itself or names
no path. -/
theorem main?_eq_error (h : main? d path = .error e) :
    d.isFile (path.join Package.fileName) = true ∧
      (Package.read d (path.join Package.fileName) = .error e ∨
        ∃ package, Package.read d (path.join Package.fileName) = .ok package ∧
          package.mainPath = .error e) := by
  unfold main? at h
  split at h
  · next there =>
    refine ⟨there, ?_⟩
    cases read : Package.read d (path.join Package.fileName) with
    | error e' =>
      rw [read] at h
      exact .inl (congrArg Except.error (Except.error.inj h))
    | ok package =>
      rw [read] at h
      exact .inr ⟨package, rfl, h⟩
  · cases h

/-- Without a script the main module decides, and then the index. -/
theorem locateHere_of_noScript (here : localPath url = .ok path)
    (noScript : d.isFile (withSuffix path) = false) :
    locateHere d url = main? d path >>= fun main =>
      match main with
      | some main => .ok (Url.ofFilePath? main.rewritten)
      | none => .ok ((index? d path).bind Url.ofFilePath?) := by
  rw [locateHere_eq d here, lookAt, if_neg (Bool.eq_false_iff.1 noScript)]
  cases main? d path with
  | error e => rfl
  | ok main => cases main <;> rfl

theorem locateHere_of_main?_error (here : localPath url = .ok path)
    (noScript : d.isFile (withSuffix path) = false) (failed : main? d path = .error e) :
    locateHere d url = .error e := by
  rw [locateHere_of_noScript here noScript, failed]
  rfl

/-- A main module is found whether or not it is there. -/
theorem locateHere_of_main? {main : Path} (here : localPath url = .ok path)
    (noScript : d.isFile (withSuffix path) = false) (named : main? d path = .ok (some main)) :
    ∃ found, locateHere d url = .ok (some found) ∧ isFileAt d found = d.isFile main.rewritten := by
  have absolute := isAbsolute_of_main? named
  obtain ⟨found, hfound, file, -⟩ := fileUrl_of_isAbsolute absolute
  refine ⟨found, ?_, isFileAt_of_fileUrl file⟩
  rw [locateHere_of_noScript here noScript, named, ← hfound]
  exact congrArg Except.ok (Url.ofFilePath?_rewritten absolute)

theorem endsInDrive_script (part : List UInt8) :
    Url.endsInDrive (Path.slash :: (part ++ Utf8.encode scriptSuffix)) = false := by
  have final : (Utf8.encode scriptSuffix).getLast? = some 0x73 := by decide
  have last : (Path.slash :: (part ++ Utf8.encode scriptSuffix)).getLast? = some 0x73 := by
    rw [← List.cons_append, List.getLast?_append, final, Option.some_or]
  exact Path.endsInDrive_of_getLast? last (by decide) (by decide)

/-- A script is found again at its path rewritten: the suffix is no drive. -/
theorem isFile_rewritten_withSuffix (here : localPath url = .ok path)
    (script : d.isFile (withSuffix path)) : d.isFile (withSuffix path).rewritten = true := by
  have absolute := isAbsolute_of_localPath here
  by_cases suffixed : hasModuleSuffix path.toText
  · rw [withSuffix, if_pos suffixed] at script ⊢
    exact isFile_rewritten here script
  · rw [withSuffix, if_neg suffixed] at script ⊢
    have noSlash : Path.slash ∉ Utf8.encode scriptSuffix := by decide
    refine isFile_rewritten_of_last (Path.isAbsolute_extend _ absolute) ?_ script
    rw [Path.last_extend noSlash, endsInDrive_script]

/-- A script is found first. -/
theorem locateHere_of_script (here : localPath url = .ok path) (script : d.isFile (withSuffix path)) :
    ∃ found, Url.ofFilePath? (withSuffix path) = some found ∧ locateHere d url = .ok (some found) ∧
      isFileAt d found = true := by
  have absolute := isAbsolute_withSuffix (isAbsolute_of_localPath here)
  obtain ⟨found, hfound, file, -⟩ := fileUrl_of_isAbsolute absolute
  refine ⟨found, hfound, ?_, ?_⟩
  · rw [locateHere_eq d here, lookAt, if_pos script, ← hfound]
    rfl
  · rw [isFileAt_of_fileUrl file, isFile_rewritten_withSuffix here script]

theorem load?_of_script (here : localPath url = .ok path) (script : d.isFile (withSuffix path)) :
    load? d context url base = Url.ofFilePath? (withSuffix path) := by
  obtain ⟨found, hfound, located, file⟩ := locateHere_of_script here script
  rw [load?, locateFile_eq here, locate_of_locateHere_some located, hfound]
  simp only [Except.map, Option.filter_some, file, if_true, Option.some_or]

/-- What a location itself names: a script or an index, which are files; nothing; or what becomes of
the main module. -/
inductive Outcome (d : Disk) (path : Path) : Except LookupError (Option Url) → Prop
  | file {found : Url} (file : isFileAt d found = true) : Outcome d path (.ok (some found))
  | nothing : Outcome d path (.ok none)
  | failure {e : LookupError} (noScript : d.isFile (withSuffix path) = false)
      (failed : main? d path = .error e) : Outcome d path (.error e)
  | main {main : Path} {found : Url} (noScript : d.isFile (withSuffix path) = false)
      (named : main? d path = .ok (some main))
      (file : isFileAt d found = d.isFile main.rewritten) : Outcome d path (.ok (some found))

theorem outcome_locateHere (here : localPath url = .ok path) :
    Outcome d path (locateHere d url) := by
  have absolute := isAbsolute_of_localPath here
  by_cases script : d.isFile (withSuffix path)
  · obtain ⟨found, -, located, file⟩ := locateHere_of_script here script
    rw [located]
    exact .file file
  have noScript := Bool.eq_false_iff.2 script
  cases named : main? d path with
  | error e =>
    rw [locateHere_of_main?_error here noScript named]
    exact .failure noScript named
  | ok main =>
    cases main with
    | some main =>
      obtain ⟨found, located, file⟩ := locateHere_of_main? here noScript named
      rw [located]
      exact .main noScript named file
    | none =>
      have name : indexName.isAbsolute = false := by decide
      have indexAbsolute := Path.isAbsolute_join name absolute
      obtain ⟨found, hfound, file, -⟩ := fileUrl_of_isAbsolute indexAbsolute
      have located : locateHere d url = .ok ((index? d path).bind Url.ofFilePath?) := by
        rw [locateHere_of_noScript here noScript, named]
        rfl
      rw [located, index?]
      by_cases index : d.isFile (path.join indexName)
      · rw [if_pos index, Option.bind_some, hfound]
        refine .file ?_
        rw [isFileAt_of_fileUrl file]
        refine isFile_rewritten_of_last indexAbsolute ?_ index
        rw [Path.last_join name absolute]
        decide
      · rw [if_neg index]
        exact .nothing

/-- Where a location itself names nothing, no lookup fails. -/
theorem locate_of_locateHere_none (h : locateHere d url = .ok none) :
    ∃ result, locate d context true url base = .ok result := by
  rw [locate, h]
  cases relativeName? url base <;> exact ⟨_, rfl⟩

theorem fruitless_of_load? (h : load? d context url base = none) :
    Fruitless d context url base := by
  cases here : localPath url with
  | error e => exact .remote here
  | ok path =>
    -- A lookup that succeeds has found what is no file.
    have missing {found : Url} (located : locateHere d url = .ok (some found)) :
        isFileAt d found = false :=
      ((load?_eq_none_of_locate here (locate_of_locateHere_some located)).1 h).1 found rfl
    have outcome := outcome_locateHere (d := d) here
    generalize located : locateHere d url = result at outcome
    cases outcome with
    | file file =>
      rw [missing located] at file
      cases file
    | nothing =>
      obtain ⟨result, above⟩ := locate_of_locateHere_none located
      obtain ⟨noSubmodule, noFile⟩ := (load?_eq_none_of_locate here above).1 h
      refine .nothing here located (fun found there => noSubmodule found ?_) noFile
      exact Except.ok.inj (above.symm.trans there)
    | failure noScript failed =>
      obtain ⟨there, failed | ⟨package, read, failed⟩⟩ := main?_eq_error failed
      · exact .unreadable here noScript there failed
      · exact .badMain here noScript there read failed
    | main noScript named file =>
      obtain ⟨there, package, read, named⟩ := main?_eq_some named
      exact .danglingMain here noScript there read named (file ▸ missing located)

theorem Fruitless.load?_eq_none (reason : Fruitless d context url base) :
    load? d context url base = none := by
  cases reason with
  | @remote e away => exact load?_of_locateHere_error (e := e) (by rw [locateHere, away]; rfl)
  | @unreadable path e here noScript there failed =>
    have failed : main? d path = .error e := by
      rw [main?_of_descriptor there, failed]
      rfl
    exact load?_of_locateHere_error (locateHere_of_main?_error here noScript failed)
  | @badMain path package e here noScript there read failed =>
    have failed : main? d path = .error e := by
      rw [main?_of_descriptor there, read]
      exact failed
    exact load?_of_locateHere_error (locateHere_of_main?_error here noScript failed)
  | @danglingMain path main package here noScript there read named absent =>
    have named : main? d path = .ok (some main) := by
      rw [main?_of_descriptor there, read]
      exact named
    -- What has a descriptor below it is a directory.
    have noFile := Disk.isFile_eq_false_of_join (isAbsolute_of_localPath here) (by decide) there
    obtain ⟨found, located, file⟩ := locateHere_of_main? here noScript named
    refine (load?_eq_none_of_locate here (locate_of_locateHere_some located)).2 ⟨?_, noFile⟩
    rintro _ ⟨⟩
    rw [file, absent]
  | nothing here noModule above noFile =>
    obtain ⟨result, located⟩ := locate_of_locateHere_none noModule
    refine (load?_eq_none_of_locate here located).2 ⟨fun found e => ?_, noFile⟩
    exact above found (e ▸ located)

/-- No file is found for a location if and only if there is one of the reasons. -/
theorem load?_eq_none_iff : load? d context url base = none ↔ Fruitless d context url base :=
  ⟨fruitless_of_load?, Fruitless.load?_eq_none⟩

end Module

namespace Resolver

variable {d : Disk} {context : Path} {name : List Char} {base : SearchBase} {m : ResolvedModule}

/-- The reasons for which a base does not have the module of a name. -/
inductive Miss (d : Disk) (context : Path) (name : List Char) (base : SearchBase) : Prop
  /-- The name and the base cannot be joined, neither as a URL nor as a path. -/
  | unjoined (none : location? d base name = none)
  /-- There is no file for the location. -/
  | fruitless {url : Url} (location : location? d base name = some url)
      (reason : Module.Fruitless d context url base.url)

theorem resolveAt_eq_none_iff :
    resolveAt d context name base = none ↔ Miss d context name base := by
  unfold resolveAt
  constructor
  · intro h
    cases location : location? d base name with
    | none => exact .unjoined location
    | some url =>
      rw [location] at h
      refine .fruitless location (Module.load?_eq_none_iff.1 ?_)
      refine Option.eq_none_iff_forall_ne_some.2 fun found loaded => ?_
      obtain ⟨path, file, -⟩ := Module.isFile_of_load? loaded
      simp [loaded, (Module.rewritten_of_fileUrl file).2.1] at h
  · rintro (none | ⟨location, reason⟩)
    · rw [none]
      rfl
    · rw [location, Option.bind_eq_bind, Option.bind_some, Module.load?_eq_none_iff.2 reason]
      rfl

theorem fields_of_resolveAt (h : resolveAt d context name base = some m) :
    m.id = name ∧ m.base = base := by
  have found := isFileOf_of_resolveAt h (List.mem_singleton_self base)
  exact ⟨found.id, List.mem_singleton.1 found.base⟩

variable (r : Resolver)

theorem resolve_eq_resolveIn (d : Disk) (name : List Char) :
    r.resolve d name = r.resolveIn d (r.privileged ++ r.fallback) name := by
  rw [resolve, resolveIn, resolveIn, resolveIn, List.findSome?_append]

theorem resolveIn_singleton (d : Disk) (base : SearchBase) (name : List Char) :
    r.resolveIn d [base] name = resolveAt d r.context name base := by
  rw [resolveIn, List.findSome?_cons, List.findSome?_nil]
  cases resolveAt d r.context name base <;> rfl

/-- A base that fails may stand anywhere. -/
theorem resolveIn_insert (before after : List SearchBase)
    (miss : r.resolveIn d [base] name = none) :
    r.resolveIn d (before ++ base :: after) name = r.resolveIn d (before ++ after) name := by
  rw [resolveIn_singleton] at miss
  rw [resolveIn, resolveIn, List.findSome?_append, List.findSome?_append, List.findSome?_cons, miss]

theorem resolveIn_append {bases : List SearchBase} (more : List SearchBase)
    (found : r.resolveIn d bases name = some m) : r.resolveIn d (bases ++ more) name = some m := by
  unfold resolveIn at found ⊢
  rw [List.findSome?_append, found, Option.some_or]

end Resolver

/-- Search bases are independent of each other, and no failure spreads. A resolver searches its
privileged bases and the others as one list; the module is that of the first base which has it when
it is searched alone, and the base of the module is this one. A base alone fails for one of the
reasons in `Resolver.Miss`; then it may stand anywhere in a list. Bases after one that succeeds
change nothing. -/
theorem bases_are_independent (r : Resolver) (d : Disk) (name : List Char) :
    r.resolve d name = r.resolveIn d (r.privileged ++ r.fallback) name ∧
      (∀ bases m, r.resolveIn d bases name = some m ↔
        ∃ before base after, bases = before ++ base :: after ∧
          (∀ other ∈ before, r.resolveIn d [other] name = none) ∧
          r.resolveIn d [base] name = some m) ∧
      (∀ base m, r.resolveIn d [base] name = some m → m.id = name ∧ m.base = base) ∧
      (∀ base, r.resolveIn d [base] name = none ↔ Resolver.Miss d r.context name base) ∧
      (∀ base, r.resolveIn d [base] name = none → ∀ before after,
        r.resolveIn d (before ++ base :: after) name = r.resolveIn d (before ++ after) name ∧
          { r with privileged := before ++ base :: after }.resolve d name =
            { r with privileged := before ++ after }.resolve d name ∧
          { r with fallback := before ++ base :: after }.resolve d name =
            { r with fallback := before ++ after }.resolve d name) ∧
      ∀ m more,
        (∀ bases, r.resolveIn d bases name = some m →
          r.resolveIn d (bases ++ more) name = some m) ∧
          (r.resolve d name = some m →
            { r with fallback := r.fallback ++ more }.resolve d name = some m) ∧
          (r.resolveIn d r.privileged name = some m → ∀ others,
            { r with privileged := r.privileged ++ more, fallback := others }.resolve d name =
              some m) := by
  refine ⟨r.resolve_eq_resolveIn d name, fun bases m => ?_, fun base m => ?_, fun base => ?_,
    fun base miss before after => ⟨r.resolveIn_insert before after miss, ?_, ?_⟩,
    fun m more => ⟨fun bases => r.resolveIn_append more, fun found => ?_, fun found others => ?_⟩⟩
  · simp only [r.resolveIn_singleton]
    rw [Resolver.resolveIn, List.findSome?_eq_some_iff]
    constructor
    · rintro ⟨before, base, after, rfl, found, misses⟩
      exact ⟨before, base, after, rfl, misses, found⟩
    · rintro ⟨before, base, after, rfl, misses, found⟩
      exact ⟨before, base, after, rfl, found, misses⟩
  · rw [r.resolveIn_singleton]
    exact Resolver.fields_of_resolveAt
  · rw [r.resolveIn_singleton]
    exact Resolver.resolveAt_eq_none_iff
  · rw [Resolver.resolve_eq_resolveIn, Resolver.resolve_eq_resolveIn]
    dsimp only
    rw [List.append_assoc, List.append_assoc, List.cons_append]
    exact r.resolveIn_insert before (after ++ r.fallback) miss
  · rw [Resolver.resolve_eq_resolveIn, Resolver.resolve_eq_resolveIn]
    dsimp only
    rw [← List.append_assoc, ← List.append_assoc]
    exact r.resolveIn_insert (r.privileged ++ before) after miss
  · rw [r.resolve_eq_resolveIn] at found
    rw [Resolver.resolve_eq_resolveIn]
    dsimp only
    rw [← List.append_assoc]
    exact r.resolveIn_append more found
  · rw [Resolver.resolve_eq_resolveIn]
    dsimp only
    rw [List.append_assoc]
    exact r.resolveIn_append (more ++ others) found

/-- Three directories with a package at fault, and one with a module of the same name. -/
def brokenDisk : Disk :=
  let octets (text : String) := Utf8.encode text.toList
  let package (name descriptor : String) : List UInt8 × Entry :=
    (octets name, .directory [(octets "pkg",
      .directory [(octets "package.json", .file (.ok (octets descriptor)))])])
  ⟨.directory [package "malformed" "\x7b", package "badMain" "\x7b\"main\": \"data:m\"\x7d",
    package "dangling" "\x7b\"main\": \"gone\"\x7d",
    (octets "good", .directory [(octets "pkg.js", .file (.ok []))])], ⟨[Path.slash]⟩⟩

/-- The module is found behind or before a base on another machine, a malformed descriptor, a main
module without a path, one that is not there, and a base without the package. -/
theorem good_base_found_among_broken_ones :
    let name := "pkg".toList
    let base (directory : String) : SearchBase := ⟨.ofSegments [directory.toList, []], .privileged⟩
    let remote : SearchBase :=
      ⟨⟨"http".toList, some (.ofHost "h".toList), .names [[]], none, none⟩, .fallback⟩
    let broken := [remote, base "malformed", base "badMain", base "dangling", base "empty"]
    let r : Resolver := ⟨[base "good"], [], .ofText "/".toList⟩
    ∃ m, m.base = base "good" ∧ m.path = .ofText "/good/pkg.js".toList ∧
      (∀ other ∈ broken, Resolver.Miss brokenDisk r.context name other) ∧
      r.resolveIn brokenDisk (broken ++ [base "good"]) name = some m ∧
      { r with privileged := [remote, base "good"] }.resolve brokenDisk name = some m ∧
      { r with fallback := broken }.resolve brokenDisk name = some m ∧
      { r with privileged := base "good" :: broken, fallback := broken }.resolve brokenDisk name =
        some m := by
  intro name base remote broken r
  obtain ⟨-, first, fields, miss, inserted, appended⟩ := bases_are_independent r brokenDisk name
  have misses : ∀ other ∈ broken, r.resolveIn brokenDisk [other] name = none := by decide +kernel
  let m : ResolvedModule :=
    ⟨name, .ofSegments ["good".toList, "pkg.js".toList], .ofText "/good/pkg.js".toList, base "good"⟩
  have found : r.resolveIn brokenDisk [base "good"] name = some m := by decide +kernel
  have resolved : r.resolve brokenDisk name = some m := by decide +kernel
  have remoteMisses := misses remote List.mem_cons_self
  refine ⟨m, (fields _ m found).2, rfl, fun other h => (miss other).1 (misses other h),
    (first _ m).2 ⟨broken, base "good", [], rfl, misses, found⟩, ?_,
    (appended m broken).2.1 resolved, (appended m broken).2.2 found broken⟩
  exact ((inserted remote remoteMisses [] [base "good"]).2.1).trans resolved

end ScriptTree
