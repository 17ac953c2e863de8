import ScriptTree.Module.Resolver
import ScriptTree.Proofs.RelativeTexts

/-!
# Module directories

What a search in module directories can reach. A relative name that is `Inward` (a path without
hidden slashes that never leads up) names a place below each module directory, and the files found
there, other than the main modules of packages, are below that directory. A name that only follows
the text of a base need not be inward: a way up to the parent of the base is one to the parent of
every module directory (`climbing_name_leaves_directory`).
-/
namespace ScriptTree

namespace Path

/-- The names that lead to a path from the root, where two dots take back the name before them. -/
def lexical (p : Path) : List (List UInt8) :=
  p.names.foldl (fun place name => if name = [dot, dot] then place.dropLast else place ++ [name]) []

/-- Where names lead from a place, if two dots take back the name before them. -/
def follow (place names : List (List UInt8)) : List (List UInt8) :=
  names.foldl (fun place name => if name = [dot, dot] then place.dropLast else place ++ [name]) place

theorem lexical_eq (p : Path) : p.lexical = follow [] p.names := rfl

theorem follow_append (place names others : List (List UInt8)) :
    follow place (names ++ others) = follow (follow place names) others :=
  List.foldl_append

/-- Names without two dots lead where they say. -/
theorem follow_of_notMem {place names : List (List UInt8)} (h : [dot, dot] ∉ names) :
    follow place names = place ++ names := by
  induction names generalizing place with
  | nil => exact (List.append_nil place).symm
  | cons name names ih =>
    rw [List.mem_cons, not_or] at h
    rw [follow, List.foldl_cons, if_neg (Ne.symm h.1)]
    show follow (place ++ [name]) names = place ++ name :: names
    rw [ih h.2, List.append_assoc]
    rfl

/-- Whether a path leads to something in a directory, by its names alone. -/
def IsBelow (p directory : Path) : Prop :=
  ∃ names, names ≠ [] ∧ p.lexical = directory.lexical ++ names

/-- Whether a path goes on from a directory, and never up. -/
def GoesOn (p directory : Path) : Prop :=
  ∃ names, names ≠ [] ∧ [dot, dot] ∉ names ∧ p.names = directory.names ++ names

theorem GoesOn.isBelow {p directory : Path} (h : p.GoesOn directory) : p.IsBelow directory := by
  obtain ⟨names, hne, hup, hnames⟩ := h
  refine ⟨names, hne, ?_⟩
  rw [lexical_eq, hnames, follow_append, follow_of_notMem hup]
  rfl

theorem GoesOn.join {p directory q : Path} (h : p.GoesOn directory) (hp : p.isAbsolute)
    (hq : q.isAbsolute = false) (up : [dot, dot] ∉ q.names) : (p.join q).GoesOn directory := by
  obtain ⟨names, hne, hup, hnames⟩ := h
  refine ⟨names ++ q.names, by simp [hne], ?_, ?_⟩
  · rw [List.mem_append, not_or]
    exact ⟨hup, up⟩
  · rw [names_join hq hp, hnames, List.append_assoc]

/-- What is put after the last name does not make it two dots. -/
theorem GoesOn.extend {p directory : Path} (h : p.GoesOn directory) {octets : List UInt8}
    (noSlash : slash ∉ octets) {b : UInt8} (hb : b ∈ octets) (plain : b ≠ dot) :
    (p.extend octets).GoesOn directory := by
  obtain ⟨names, hne, hup, hnames⟩ := h
  obtain ⟨init, hp, hlast⟩ := p.parts_eq
  obtain ⟨init', hp', hpe⟩ := parts_extend (p := p) noSlash
  obtain rfl := List.append_cancel_right (hp.symm.trans hp')
  have mem : b ∈ p.last ++ octets := List.mem_append_right _ hb
  have solid : p.last ++ octets ≠ [] ∧ p.last ++ octets ≠ [dot] ∧ p.last ++ octets ≠ [dot, dot] := by
    refine ⟨?_, ?_, ?_⟩ <;> intro e <;> rw [e] at mem <;> simp [plain] at mem
  have full : isVacant (p.last ++ octets) = false :=
    Bool.or_eq_false_iff.2 ⟨beq_eq_false_iff_ne.2 solid.1, beq_eq_false_iff_ne.2 solid.2.1⟩
  have before : ∃ names', [dot, dot] ∉ names' ∧
      (init.filter fun part => !isVacant part) = directory.names ++ names' := by
    rw [hnames] at hlast
    by_cases vacant : isVacant p.last
    · rw [if_pos vacant, List.append_nil] at hlast
      exact ⟨names, hup, hlast.symm⟩
    · rw [if_neg vacant] at hlast
      refine ⟨names.dropLast, fun mem => hup (names.dropLast_sublist.subset mem), ?_⟩
      have := congrArg List.dropLast hlast
      rwa [List.dropLast_append_of_ne_nil hne, List.dropLast_concat, eq_comm] at this
  obtain ⟨names', hup', before⟩ := before
  refine ⟨names' ++ [p.last ++ octets], by simp, ?_, ?_⟩
  · rw [List.mem_append, List.mem_singleton, not_or]
    exact ⟨hup', Ne.symm solid.2.2⟩
  · rw [Path.names, hpe, List.filter_append, before, List.append_assoc]
    simp [full]

/-- Only a path from the root leads to a path from the root. -/
theorem isAbsolute_of_join {base p : Path} (hp : p.isAbsolute = false)
    (h : (base.join p).isAbsolute) : base.isAbsolute := by
  unfold join at h
  rw [if_neg (by simp [hp])] at h
  obtain ⟨octets⟩ := base
  cases octets with
  | nil => simp [isAbsolute] at h hp; exact absurd h hp
  | cons b octets =>
    split at h
    · simpa [isAbsolute] using h
    · simpa [isAbsolute] using h

end Path

namespace Module

/-! ## What a location itself names -/

/-- Whether a URL is that of the main module of the package at a path. -/
def IsMain (d : Disk) (path : Path) (found : Url) : Prop :=
  ∃ package main, Package.read d (path.join Package.fileName) = .ok package ∧
    package.mainPath = .ok (some main) ∧ fileUrl main = .ok found

/-- The three ways in which a location names a module. -/
theorem locateHere_cases {d : Disk} {url found : Url} (h : locateHere d url = .ok (some found)) :
    ∃ path, localPath url = .ok path ∧
      ((d.isFile (withSuffix path) ∧ fileUrl (withSuffix path) = .ok found) ∨
        IsMain d path found ∨
        d.isFile (path.join indexName) ∧ fileUrl (path.join indexName) = .ok found) := by
  unfold locateHere at h
  cases hpath : localPath url with
  | error e => simp [hpath, bind, Except.bind] at h
  | ok path =>
    refine ⟨path, rfl, ?_⟩
    simp only [hpath, bind, Except.bind, pure, Except.pure] at h
    split at h
    · next file => exact .inl ⟨file, ok_of_bind_some h⟩
    · split at h
      · cases hread : Package.read d (path.join Package.fileName) with
        | error e => simp [hread] at h
        | ok package =>
          simp only [hread] at h
          cases hmain : package.mainPath with
          | error e => simp [hmain] at h
          | ok main =>
            simp only [hmain] at h
            cases main with
            | some main => exact .inr (.inl ⟨package, main, hread, hmain, ok_of_bind_some h⟩)
            | none =>
              dsimp only at h
              split at h
              · next index => exact .inr (.inr ⟨index, ok_of_bind_some h⟩)
              · cases h
      · split at h
        · next index => exact .inr (.inr ⟨index, ok_of_bind_some h⟩)
        · cases h

theorem goesOn_withSuffix {path directory : Path} (h : path.GoesOn directory) :
    (withSuffix path).GoesOn directory := by
  unfold Module.withSuffix
  split
  · exact h
  · exact h.extend (by decide) (b := UInt8.ofNat 'j'.toNat) (by decide) (by decide)

/-! ## Candidates -/

/-- The module directories of a path and of those above it, nearest first. -/
def moduleDirectories (d : Disk) (context : Path) : List Path :=
  (context.ancestors.map (·.join submoduleDirectory)).filter d.isDirectory

/-- The location of a relative name in a module directory. -/
def candidate? (relative : List Char) (directory : Path) : Option Url :=
  (Url.ofDirectoryPath? directory).bind fun base => (base.join relative).toOption

theorem submoduleCandidates_eq (d : Disk) (context : Path) (relative : List Char) :
    submoduleCandidates d context relative =
      (moduleDirectories d context).filterMap (candidate? relative) := by
  rw [submoduleCandidates, moduleDirectories, List.filterMap_filter]
  rfl

/-- What a lookup has found; one that fails has found nothing. -/
def answered {ε : Type} (answer : Except ε (Option Url)) : Option Url :=
  answer.toOption.join

theorem answered_eq_some {ε : Type} {answer : Except ε (Option Url)} {found : Url} :
    answered answer = some found ↔ answer = .ok (some found) := by
  cases answer with
  | error e => exact iff_of_false (fun h => nomatch h) (fun h => nomatch h)
  | ok result => exact ⟨congrArg Except.ok, Except.ok.inj⟩

/-- Lookups that change nothing find what the first of them finds that finds something. -/
theorem firstFound_pure {ε : Type} (lookup : Url → Except ε (Option Url)) (urls : List Url) :
    firstFound (fun url => (pure (lookup url) : Id _)) urls =
      urls.findSome? fun url => answered (lookup url) := by
  induction urls with
  | nil => rfl
  | cons url urls ih =>
    rw [firstFound, List.findSome?_cons]
    cases lookup url with
    | error e => exact ih
    | ok result =>
      cases result with
      | none => exact ih
      | some found => rfl

/-- What a search finds is found at one of the locations. -/
theorem mem_of_firstFound {ε : Type} {lookup : Url → Except ε (Option Url)} {urls : List Url}
    {found : Url} (h : firstFound (fun url => (pure (lookup url) : Id _)) urls = some found) :
    ∃ url ∈ urls, lookup url = .ok (some found) := by
  rw [firstFound_pure] at h
  obtain ⟨url, hurl, answer⟩ := List.exists_of_findSome?_eq_some h
  exact ⟨url, hurl, answered_eq_some.1 answer⟩

theorem isAbsolute_of_candidate? {relative : List Char} {directory : Path} {candidate : Url}
    (h : candidate? relative directory = some candidate) : directory.isAbsolute := by
  refine Decidable.byContradiction fun other => ?_
  simp [candidate?, Url.ofDirectoryPath?, Url.ofFilePath?, other] at h

/-- A module directory with a URL has a name. -/
theorem names_ne_nil_of_mem {d : Disk} {context directory : Path}
    (h : directory ∈ moduleDirectories d context) (absolute : directory.isAbsolute) :
    directory.names ≠ [] := by
  obtain ⟨above, -, rfl⟩ := List.mem_map.1 (List.mem_filter.1 h).1
  have plain : submoduleDirectory.isAbsolute = false := by decide
  rw [Path.names_join plain (Path.isAbsolute_of_join plain absolute)]
  exact List.append_ne_nil_of_right_ne_nil _ (by decide)

/-- Whether a name is a path without hidden slashes that never leads up and says something. -/
structure Inward (relative : List Char) : Prop extends Url.IsRelativePath relative where
  staysBelow : Url.staysBelow 0 (Url.innerPieces relative)
  saysSomething : ∃ name ∈ Url.descend [] [] (Url.innerPieces relative), name ≠ []
  noHiddenSlash : ∀ name ∈ Url.innerPieces relative, Path.slash ∉ Percent.decode name

section

variable {relative : List Char} (inward : Inward relative)
include inward

/-- An inward name goes on from every directory. -/
theorem candidate?_eq {directory : Path} (absolute : directory.isAbsolute)
    (named : directory.names ≠ []) :
    candidate? relative directory = some (.ofParts Url.fileScheme Url.localAuthority
      (.names (Url.fileNames directory ++ Url.descend [] [] (Url.innerPieces relative)))
      (Url.Parts.ofText (Url.clean relative))) := by
  have nonempty : Url.fileNames directory ≠ [] := by simpa [Url.fileNames] using named
  have descends : Url.descend Url.fileScheme (Url.fileNames directory ++ []) (Url.innerPieces relative) =
      Url.fileNames directory ++ Url.descend [] [] (Url.innerPieces relative) :=
    Url.descend_append nonempty (Nat.le_refl 0) inward.staysBelow
  rw [List.append_nil] at descends
  rw [candidate?, Url.ofDirectoryPath?_eq absolute, Option.bind_some,
    Url.join_directory _ inward.toIsRelativePath, descends, Url.pathOf_fileNames named]
  rfl

/-- The names to which an inward name leads, as they are read. -/
theorem inner_names : ∀ name ∈ (Url.descend [] [] (Url.innerPieces relative)).map Percent.decode,
    Path.slash ∉ name ∧ name ≠ [Path.dot, Path.dot] ∧ name ≠ [Path.dot] := by
  intro name h
  obtain ⟨segment, hsegment, rfl⟩ := List.mem_map.1 h
  refine ⟨?_, Url.decode_ne_of_mem_descend hsegment⟩
  rcases Url.mem_descend hsegment with h | rfl | ⟨piece, hpiece, -, -, rfl⟩
  · cases h
  · exact List.not_mem_nil
  · rw [Percent.decode_encode]
    exact inward.noHiddenSlash piece hpiece

/-- The location of an inward name in a directory is a path that goes on from it. -/
theorem localPath_candidate? {directory : Path} {candidate : Url} (named : directory.names ≠ [])
    (h : candidate? relative directory = some candidate) :
    ∃ path, localPath candidate = .ok path ∧ path.isAbsolute ∧ path.GoesOn directory := by
  rw [candidate?_eq inward (isAbsolute_of_candidate? h) named, Option.some.injEq] at h
  subst h
  let inner := (Url.descend [] [] (Url.innerPieces relative)).map Percent.decode
  have nonempty : Url.fileNames directory ++ Url.descend [] [] (Url.innerPieces relative) ≠ [] := by
    simp [Url.fileNames, named]
  have read : (Url.fileNames directory ++ Url.descend [] [] (Url.innerPieces relative)).map
      Percent.decode = directory.names ++ inner := by
    rw [List.map_append, Url.map_decode_fileNames]
  have toPath := Url.toFilePath?_ofSegments nonempty
  rw [read] at toPath
  refine ⟨.ofParts (directory.names ++ inner), ?_, Path.isAbsolute_ofParts (by simp [named]),
    inner.filter (fun part => !Path.isVacant part), ?_, ?_, ?_⟩
  · have toPath : Url.toFilePath? (.ofParts Url.fileScheme Url.localAuthority (.names _)
        (Url.Parts.ofText (Url.clean relative))) = _ := toPath
    simp only [localPath, toPath]
    rfl
  · obtain ⟨segment, hsegment, full⟩ := inward.saysSomething
    have mem : Percent.decode segment ∈ inner := List.mem_map_of_mem hsegment
    have solid : Path.isVacant (Percent.decode segment) = false :=
      Bool.or_eq_false_iff.2 ⟨beq_eq_false_iff_ne.2 fun e => full (Percent.decode_eq_nil e),
        beq_eq_false_iff_ne.2 (inner_names inward _ mem).2.2⟩
    exact List.ne_nil_of_mem (List.mem_filter.2 ⟨mem, by simp [solid]⟩)
  · exact fun mem => (inner_names inward _ (List.mem_filter.1 mem).1).2.1 rfl
  · have noSlash : ∀ part ∈ directory.names ++ inner, Path.slash ∉ part := by
      intro part hpart
      rcases List.mem_append.1 hpart with h | h
      · exact Path.slash_notMem_of_mem_names h
      · exact (inner_names inward _ h).1
    rw [Path.names_ofParts noSlash, List.filter_append, Path.filter_names]

/-- An inward name stays below the module directories: each location of it is a path below one, and
so is each file that is found there and is not the main module of a package. -/
theorem submodules_stay_below {d : Disk} {context : Path} {url base : Url}
    (relative_eq : relativeName? url base = some relative) :
    (∀ directory ∈ moduleDirectories d context, ∀ candidate,
      candidate? relative directory = some candidate →
        ∃ path, localPath candidate = .ok path ∧ path.IsBelow directory) ∧
    ∀ found, locateHere d url = .ok none → locate d context true url base = .ok (some found) →
      ∃ directory ∈ moduleDirectories d context, ∃ candidate path,
        candidate? relative directory = some candidate ∧ localPath candidate = .ok path ∧
          (IsMain d path found ∨
            ∃ file, d.isFile file ∧ fileUrl file = .ok found ∧ file.IsBelow directory) := by
  have located {directory : Path} (hd : directory ∈ moduleDirectories d context) {candidate : Url}
      (hc : candidate? relative directory = some candidate) :=
    localPath_candidate? inward (names_ne_nil_of_mem hd (isAbsolute_of_candidate? hc)) hc
  constructor
  · intro directory hd candidate hc
    obtain ⟨path, hpath, -, below⟩ := located hd hc
    exact ⟨path, hpath, below.isBelow⟩
  · intro found here h
    have search : firstFound (fun url => (pure (locateHere d url) : Id _))
        (submoduleCandidates d context relative) = some found := by
      simpa [locate, here, relative_eq, bind, Except.bind, pure, Except.pure] using h
    obtain ⟨candidate, hmem, hfound⟩ := mem_of_firstFound search
    rw [submoduleCandidates_eq, List.mem_filterMap] at hmem
    obtain ⟨directory, hd, hc⟩ := hmem
    obtain ⟨path, hpath, absolute, below⟩ := located hd hc
    obtain ⟨path', hpath', cases⟩ := locateHere_cases hfound
    obtain rfl : path = path' := Except.ok.inj (hpath.symm.trans hpath')
    refine ⟨directory, hd, candidate, path, hc, hpath, ?_⟩
    rcases cases with ⟨file, hurl⟩ | main | ⟨file, hurl⟩
    · exact .inr ⟨_, file, hurl, (goesOn_withSuffix below).isBelow⟩
    · exact .inl main
    · exact .inr ⟨_, file, hurl, (below.join absolute (by decide) (by decide)).isBelow⟩

end

/-! ## An application -/

/-- An application with one file and, in its module directory, one package. -/
def appDisk : Disk :=
  let octets (text : String) := Utf8.encode text.toList
  let package : Entry := .directory [(octets "index.js", .file (.ok []))]
  let modules : Entry := .directory [(octets "pkg", package)]
  ⟨.directory [(octets "app", .directory [(octets "node_modules", modules),
    (octets "x y.js", .file (.ok []))])], ⟨[Path.slash]⟩⟩

/-- The directory of the application. -/
def appDirectory : Path := .ofText "/app".toList

/-- A base that is no part of the application. -/
def libraryBase : SearchBase := ⟨.ofSegments ["lib".toList, []], .privileged⟩

/-- A name with two dots that stays below its directory finds the package. -/
theorem detour_stays_below :
    let url := Url.ofSegments ["lib".toList, "a%20b".toList, "..".toList, "pkg".toList]
    let relative := "a%20b/../pkg".toList
    let found := Url.ofSegments ["app".toList, "node_modules".toList, "pkg".toList, "index.js".toList]
    (relativeName? url libraryBase.url = some relative ∧ Inward relative ∧
      locateHere appDisk url = .ok none ∧
      locate appDisk appDirectory true url libraryBase.url = .ok (some found)) ∧
    ∃ directory ∈ moduleDirectories appDisk appDirectory, ∃ candidate path,
      candidate? relative directory = some candidate ∧ localPath candidate = .ok path ∧
        (IsMain appDisk path found ∨
          ∃ file, appDisk.isFile file ∧ fileUrl file = .ok found ∧ file.IsBelow directory) := by
  intro url relative found
  have relative_eq : relativeName? url libraryBase.url = some relative := by decide +kernel
  have inward : Inward relative :=
    { noScheme := by decide
      hasLocation := by decide
      noSlash := by decide
      noDrive := by decide
      staysBelow := by decide
      saysSomething := ⟨"pkg".toList, by decide, by decide⟩
      noHiddenSlash := by decide }
  have here : locateHere appDisk url = .ok none := eq_ok_of_toOption (by decide +kernel)
  have there : locate appDisk appDirectory true url libraryBase.url = .ok (some found) :=
    eq_ok_of_toOption (by decide +kernel)
  exact ⟨⟨relative_eq, inward, here, there⟩,
    (submodules_stay_below inward relative_eq).2 found here there⟩

/-- A name that leads up from its base leads up from a module directory too: it finds the file that
is beside it. -/
theorem climbing_name_leaves_directory :
    let url := Url.ofSegments ["lib".toList, "..".toList, "x%20y".toList]
    let relative := "../x%20y".toList
    let candidate := Url.ofSegments ["app".toList, "x%20y".toList]
    let file := Path.ofText "/app/x y.js".toList
    Resolver.location? appDisk libraryBase "../x y".toList = some url ∧
      relativeName? url libraryBase.url = some relative ∧
      (∃ directory ∈ moduleDirectories appDisk appDirectory,
        candidate? relative directory = some candidate ∧
        ∃ path, localPath candidate = .ok path ∧ ¬path.IsBelow directory ∧ ¬file.IsBelow directory) ∧
      (Resolver.mk [libraryBase] [] appDirectory).resolve appDisk "../x y".toList =
        some ⟨"../x y".toList, .ofSegments ["app".toList, "x%20y.js".toList], file, libraryBase⟩ := by
  intro url relative candidate file
  have outside {p directory : Path} (h : ¬directory.lexical.isPrefixOf p.lexical) :
      ¬p.IsBelow directory := by
    rintro ⟨names, -, e⟩
    exact h (by rw [e]; exact List.isPrefixOf_iff_prefix.2 (List.prefix_append _ _))
  refine ⟨by decide +kernel, by decide +kernel,
    ⟨.ofText "/app/node_modules".toList, by decide +kernel, by decide +kernel,
      .ofText "/app/x y".toList, rfl, outside (by decide +kernel), outside (by decide +kernel)⟩,
    by decide +kernel⟩

end Module

end ScriptTree
