import ScriptTree.Proofs.BareNames
import ScriptTree.Proofs.Lookups

/-!
# Search by paths

For a bare name the resolver, which works with URLs, finds what a plain search on the disk finds
(`resolve_eq_search`). The search looks at a path for a file, the main module of a package and an
index; then in the module directories above the context; and last for a file of the very name. The
path of a main module passes through a URL on the way and comes back written with its names alone,
so one that ends in a slash loses it (`main_with_slash_found`).
-/
namespace ScriptTree

/-! ## The search -/

namespace PathSearch

section

variable (reading : Path → Path) (d : Disk)

/-- The index of a directory, if it is there. -/
def index? (p : Path) : Option Path :=
  if d.isFile (p.join Module.indexName) then some (p.join Module.indexName) else none

/-- The path of the main module that the descriptor in a directory names, if there is one. -/
def main? (p : Path) : Except LookupError (Option Path) :=
  if d.isFile (p.join Package.fileName) then
    Package.read d (p.join Package.fileName) >>= Package.mainPath
  else .ok none

/-- What is at a path: the file of a module, a main module, there or not, or an index. -/
def lookAt (file p : Path) : Except LookupError (Option Path) := do
  if d.isFile file then return some file
  match ← main? d p with
  | some main => return some (reading main)
  | none => return index? d p

variable (n : BareName)

/-- A path as that of a script, unless the name has the suffix of a module. -/
def asFile (p : Path) : Path :=
  if hasModuleSuffix n.text then p else p.extend (Utf8.encode scriptSuffix)

/-- What a name names in a directory. -/
def lookUnder (directory : Path) : Except LookupError (Option Path) :=
  let p := directory.join n.path
  lookAt reading d (asFile n p) p

/-- What a name names in the first module directory that has it; a failure is passed over. -/
def lookAbove (context : Path) : Option Path :=
  (Module.moduleDirectories d context).findSome? fun directory =>
    (lookUnder reading d n directory).toOption.join

/-- The file of a name in a directory or, where it has none, in the module directories above the
context; else the file of the very name. -/
def fileIn (context directory : Path) : Option Path :=
  let exact := directory.join n.path
  match lookUnder reading d n directory with
  | .error _ => none
  | .ok found =>
    ((found.or (lookAbove reading d n context)).filter d.isFile).or
      (if d.isFile exact then some exact else none)

/-- The first of some directories that has the file of a name, and the file. -/
def search (context : Path) (directories : List (BaseKind × Path)) :
    Option ((BaseKind × Path) × Path) :=
  directories.findSome? fun directory =>
    (fileIn reading d n context directory.2).map (directory, ·)

end

end PathSearch

/-- Whether a module is a file that a search has found in a directory. Paths are compared by their
components. -/
structure ResolvedModule.IsAt (d : Disk) (n : BareName) (m : ResolvedModule)
    (found : (BaseKind × Path) × Path) : Prop where
  id : m.id = n.text
  base : SearchBase.ofDirectory d found.1.1 found.1.2 = .ok m.base
  url : Url.ofFilePath? found.2 = some m.url
  path : m.path.components = found.2.components

/-! ## What is at a path -/

namespace PathSearch

open ScriptTree.Module

theorem isAbsolute_of_mainPath {package : Package} {main : Path}
    (h : package.mainPath = .ok (some main)) : main.isAbsolute := by
  unfold Package.mainPath at h
  split at h
  · cases h
  · split at h
    · cases h
    · split at h
      · cases h
      · split at h
        · next path hpath =>
          obtain rfl : path = main := by simpa using h
          exact Url.isAbsolute_of_toFilePath? hpath
        · cases h

/-- The main module of a package is told from the URL of its descriptor. -/
theorem mainPath_congr {p q : Path} (hp : p.isAbsolute) (h : Url.ofFilePath? p = Url.ofFilePath? q)
    (main : Option String) : (Package.mk p main).mainPath = (Package.mk q main).mainPath := by
  have url := Url.ofFilePath?_eq hp
  cases main with
  | none => rfl
  | some main => simp only [Package.mainPath, ← h, url]

/-- Paths that are alike have one main module. -/
theorem main?_congr (d : Disk) {p q : Path} (h : p.Alike q) : main? d p = main? d q := by
  have name : Package.fileName.isAbsolute = false := by decide
  have alike := h.join name
  have url := Url.ofFilePath?_congr alike.left alike.right alike.names
  have parse (text : List Char) : (Package.parse (p.join Package.fileName) text >>= Package.mainPath) =
      Package.parse (q.join Package.fileName) text >>= Package.mainPath := by
    unfold Package.parse
    split
    · dsimp only
      split
      · exact mainPath_congr alike.left url _
      · rfl
    · rfl
  have read : (Package.read d (p.join Package.fileName) >>= Package.mainPath) =
      Package.read d (q.join Package.fileName) >>= Package.mainPath := by
    unfold Package.read
    rw [Disk.read_congr d alike]
    split
    · exact parse _
    · rfl
  rw [main?, main?, Disk.isFile_congr d alike, read]

theorem index?_congr (d : Disk) {p q : Path} (h : p.Alike q) :
    (index? d p).bind Url.ofFilePath? = (index? d q).bind Url.ofFilePath? := by
  have name : indexName.isAbsolute = false := by decide
  have alike := h.join name
  have file := Disk.isFile_congr d alike
  unfold index?
  rw [file]
  split
  · exact Url.ofFilePath?_congr alike.left alike.right alike.names
  · rfl

theorem isAbsolute_of_main? {d : Disk} {p main : Path} (h : main? d p = .ok (some main)) :
    main.isAbsolute := by
  unfold main? at h
  split at h
  · cases hread : Package.read d (p.join Package.fileName) with
    | error e => simp [hread, bind, Except.bind] at h
    | ok package =>
      rw [hread] at h
      exact isAbsolute_of_mainPath h
  · cases h

/-- Paths that are alike have modules of one URL. -/
theorem lookAt_congr (d : Disk) {file file' p p' : Path} (hf : file.Alike file') (hp : p.Alike p') :
    (lookAt Path.rewritten d file p).map (·.bind Url.ofFilePath?) =
      (lookAt Path.rewritten d file' p').map (·.bind Url.ofFilePath?) := by
  unfold lookAt
  rw [Disk.isFile_congr d hf, main?_congr d hp]
  by_cases isFile : d.isFile file'
  · rw [if_pos isFile, if_pos isFile]
    exact congrArg Except.ok (Url.ofFilePath?_congr hf.left hf.right hf.names)
  · rw [if_neg isFile, if_neg isFile]
    cases main? d p' with
    | error e => rfl
    | ok main =>
      cases main with
      | some main => rfl
      | none => exact congrArg Except.ok (index?_congr d hp)

/-- A location names what is at its path. -/
theorem locateHere_eq (d : Disk) {url : Url} {p : Path} (h : localPath url = .ok p) :
    locateHere d url =
      (lookAt Path.rewritten d (withSuffix p) p).map (·.bind Url.ofFilePath?) := by
  have absolute := isAbsolute_of_localPath h
  obtain ⟨fileLocation, hfile, file, -⟩ :=
    fileUrl_of_isAbsolute (isAbsolute_withSuffix absolute)
  have index : (if d.isFile (p.join indexName) then do return some (← fileUrl (p.join indexName))
      else return none) = Except.ok ((index? d p).bind Url.ofFilePath?) := by
    have name : indexName.isAbsolute = false := by decide
    obtain ⟨location, hindex, file, -⟩ := fileUrl_of_isAbsolute (Path.isAbsolute_join name absolute)
    unfold index?
    split
    · rw [file, Option.bind_some, hindex]
      rfl
    · rfl
  have here : locateHere d url =
      if d.isFile (withSuffix p) then fileUrl (withSuffix p) >>= fun url => pure (some url)
      else main? d p >>= fun main =>
        match main with
        | some main => fileUrl main >>= fun url => pure (some url)
        | none => .ok ((index? d p).bind Url.ofFilePath?) := by
    unfold locateHere main?
    rw [h, ← index]
    by_cases descriptor : d.isFile (p.join Package.fileName)
    · rw [if_pos descriptor, bind_assoc]
      exact ite_congr rfl (fun _ => rfl) fun _ => (if_pos descriptor).trans rfl
    · rw [if_neg descriptor]
      exact ite_congr rfl (fun _ => rfl) fun _ => (if_neg descriptor).trans rfl
  rw [here, file, lookAt]
  by_cases isFile : d.isFile (withSuffix p)
  · rw [if_pos isFile, if_pos isFile]
    exact congrArg Except.ok hfile.symm
  · rw [if_neg isFile, if_neg isFile]
    cases hmain : main? d p with
    | error e => rfl
    | ok main =>
      cases main with
      | none => rfl
      | some main =>
        have mainAbsolute := isAbsolute_of_main? hmain
        obtain ⟨location, hlocation, found, -⟩ := fileUrl_of_isAbsolute mainAbsolute
        have again := (Url.ofFilePath?_rewritten mainAbsolute).trans hlocation
        simp only [bind, Except.bind, found]
        exact congrArg Except.ok again.symm

/-! ## What a name names in a directory -/

/-- A path that names the same file when it has passed through a URL. -/
def Settled (d : Disk) (p : Path) : Prop :=
  p.isAbsolute ∧ d.isFile p.rewritten = d.isFile p

/-- A path is settled if plain characters are at its end. -/
theorem settled_of_last (d : Disk) {p : Path} (absolute : p.isAbsolute) {text : List Char}
    (bare : ∀ c ∈ text, isBareChar c) (full : text ≠ []) (dot : text ≠ ['.'])
    (last : p.last = Utf8.encode text) : Settled d p := by
  have solid : Path.isVacant p.last = false := by
    rw [last, Path.isVacant, Bool.or_eq_false_iff, beq_eq_false_iff_ne, beq_eq_false_iff_ne]
    exact ⟨fun e => full (Utf8.encode_injective e), fun e => dot (Utf8.encode_injective e)⟩
  have colon : ':' ∈ marks := by decide
  have bar : '|' ∈ marks := by decide
  have noDrive : Url.endsInDrive (Path.slash :: p.last) = false := by
    refine Bool.eq_false_iff.2 fun drive => ?_
    have final : (Path.slash :: p.last).getLast? = p.last.getLast? := by
      obtain ⟨b, rest, hb⟩ := List.exists_cons_of_ne_nil fun e : p.last = [] => by
        rw [e] at solid
        cases solid
      rw [hb, List.getLast?_cons_cons]
    rcases Path.getLast?_of_endsInDrive drive with e | e <;> rw [final, last] at e
    · exact BareName.mark_notMem_encode bare colon (List.mem_of_getLast? e)
    · exact BareName.mark_notMem_encode bare bar (List.mem_of_getLast? e)
  exact ⟨absolute, (Disk.isFile_congr d (Path.alike_rewritten absolute solid noDrive)).symm⟩

section

variable (d : Disk) (n : BareName) {directory : Path} (absolute : directory.isAbsolute)
include absolute

theorem settled_asFile : Settled d (asFile n (directory.join n.path)) := by
  have bare := (n.plain _ n.lastSegment_mem).1
  have path := Path.isAbsolute_join n.isAbsolute_path absolute
  have last := (Path.last_join n.isAbsolute_path absolute).trans n.last_path
  unfold asFile
  split
  · next suffix =>
    rw [BareName.hasModuleSuffix_text] at suffix
    refine settled_of_last d path bare ?_ ?_ last
    · intro e
      rw [e] at suffix
      cases suffix
    · intro e
      rw [e] at suffix
      cases suffix
  · have noSlash : Path.slash ∉ Utf8.encode scriptSuffix := by decide
    have extended := Path.last_extend (p := directory.join n.path) noSlash
    rw [last, Utf8.encode, Utf8.encode, ← List.flatMap_append] at extended
    refine settled_of_last d (Path.isAbsolute_extend _ path) ?_ ?_ ?_ extended
    · intro c hc
      rcases List.mem_append.1 hc with hc | hc
      · exact bare c hc
      · have suffix : ∀ c ∈ scriptSuffix, isBareChar c := List.all_eq_true.1 (by decide)
        exact suffix c hc
    · exact List.append_ne_nil_of_right_ne_nil _ (by decide)
    · intro e
      have := congrArg List.length e
      simp [scriptSuffix] at this

/-- What a name names in a directory is settled. -/
theorem settled_lookUnder {p : Path} (h : lookUnder Path.rewritten d n directory = .ok (some p)) :
    Settled d p := by
  have path := Path.isAbsolute_join n.isAbsolute_path absolute
  unfold lookUnder lookAt at h
  dsimp only at h
  split at h
  · obtain rfl := Option.some.inj (Except.ok.inj h)
    exact settled_asFile d n absolute
  · cases hmain : main? d (directory.join n.path) with
    | error e => simp [hmain, bind, Except.bind] at h
    | ok main =>
      rw [hmain] at h
      cases main with
      | some main =>
        obtain rfl := Option.some.inj (Except.ok.inj h)
        exact ⟨main.isAbsolute_rewritten, by rw [Path.rewritten_rewritten]⟩
      | none =>
        have index : index? d (directory.join n.path) = some p := Except.ok.inj h
        unfold index? at index
        split at index
        · obtain rfl := Option.some.inj index
          have name : indexName.isAbsolute = false := by decide
          have last := Path.last_join name path
          have text : indexName.last = Utf8.encode "index.js".toList := by decide
          exact settled_of_last d (Path.isAbsolute_join name path)
            (List.all_eq_true.1 (by decide)) (by decide) (by decide) (last.trans text)
        · cases index

/-- A name as a location is what it is on the disk. -/
theorem locateHere_name :
    locateHere d (.ofSegments (Url.fileNames directory ++ n.segments)) =
      (lookUnder Path.rewritten d n directory).map (·.bind Url.ofFilePath?) := by
  have alike := n.alike absolute
  have file : (asFile n (directory.join n.path)).Alike (withSuffix (n.pathIn directory)) := by
    unfold asFile withSuffix
    rw [n.hasModuleSuffix_pathIn directory]
    split
    · exact alike
    · exact alike.extend (by decide)
  rw [locateHere_eq d (n.localPath_eq directory), lookUnder]
  exact (lookAt_congr d file alike).symm

end

/-! ## What a name names -/

/-- The base of a directory that is given from the root. -/
theorem ofDirectory_eq (d : Disk) (kind : BaseKind) {directory : Path} (h : directory.isAbsolute) :
    SearchBase.ofDirectory d kind directory =
      .ok ⟨.ofSegments (Url.fileNames directory ++ [[]]), kind⟩ := by
  have same : d.absolute directory = directory := by simp [Disk.absolute, Path.join, h]
  rw [SearchBase.ofDirectory, same, Url.ofDirectoryPath?_eq h]

theorem isAbsolute_of_mem_ancestors {p above : Path} (h : p.isAbsolute) (ha : above ∈ p.ancestors) :
    above.isAbsolute := by
  obtain ⟨rest, hrest⟩ := Path.octets_of_isAbsolute h
  unfold Path.ancestors at ha
  rw [hrest, Text.pieces_cons_self] at ha
  simp only [h, if_true, List.mem_cons, List.mem_map] at ha
  rcases ha with rfl | ⟨reversed, -, rfl⟩
  · exact h
  · rfl

theorem isAbsolute_of_mem_moduleDirectories {d : Disk} {context directory : Path}
    (hc : context.isAbsolute) (h : directory ∈ moduleDirectories d context) :
    directory.isAbsolute := by
  obtain ⟨above, ha, rfl⟩ := List.mem_map.1 (List.mem_filter.1 h).1
  exact Path.isAbsolute_join (by decide) (isAbsolute_of_mem_ancestors hc ha)

section

variable (d : Disk) (n : BareName) {context : Path} (hc : context.isAbsolute)
include hc

/-- A search of locations is one of module directories. -/
theorem firstFound_eq :
    (firstFound fun url => (pure (locateHere d url) : Id _))
        (submoduleCandidates d context n.undotted.text) =
      (lookAbove Path.rewritten d n context).bind Url.ofFilePath? := by
  have all : ∀ directory ∈ moduleDirectories d context, directory.isAbsolute := fun directory =>
    isAbsolute_of_mem_moduleDirectories hc
  rw [submoduleCandidates_eq, lookAbove]
  generalize moduleDirectories d context = directories at all ⊢
  induction directories with
  | nil => rfl
  | cons directory directories ih =>
    have absolute := all directory List.mem_cons_self
    have ih := ih fun directory hd => all directory (List.mem_cons_of_mem _ hd)
    have candidate : candidate? n.undotted.text directory =
        some (.ofSegments (Url.fileNames directory ++ n.segments)) := by
      rw [candidate?, Url.ofDirectoryPath?_eq absolute, Option.bind_some, n.undotted.join_eq,
        n.segments_undotted]
      rfl
    rw [List.filterMap_cons, candidate]
    dsimp only
    rw [firstFound, List.findSome?_cons, locateHere_name d n absolute]
    cases hlook : lookUnder Path.rewritten d n directory with
    | error e => exact ih
    | ok found =>
      cases found with
      | none => exact ih
      | some p =>
        obtain ⟨url, hurl, -⟩ :=
          fileUrl_of_isAbsolute (settled_lookUnder d n absolute hlook).1
        simp only [pure_bind, Except.map, Option.bind_some, hurl]
        exact hurl.symm

theorem settled_lookAbove {p : Path} (h : lookAbove Path.rewritten d n context = some p) :
    Settled d p := by
  obtain ⟨directory, hd, hlook⟩ := List.exists_of_findSome?_eq_some h
  cases hfound : lookUnder Path.rewritten d n directory with
  | error e => simp [hfound, Except.toOption] at hlook
  | ok found =>
    have absolute := isAbsolute_of_mem_moduleDirectories hc hd
    refine settled_lookUnder d n absolute (hfound.trans ?_)
    simpa [hfound, Except.toOption] using hlook

variable {directory : Path} (absolute : directory.isAbsolute)
include absolute

theorem settled_found {found : Option Path} {p : Path}
    (hlook : lookUnder Path.rewritten d n directory = .ok found)
    (h : found.or (lookAbove Path.rewritten d n context) = some p) : Settled d p := by
  cases found with
  | none => exact settled_lookAbove d n hc h
  | some q => exact settled_lookUnder d n absolute (hlook.trans (congrArg Except.ok h))

theorem isAbsolute_of_fileIn {p : Path} (h : fileIn Path.rewritten d n context directory = some p) :
    p.isAbsolute := by
  unfold fileIn at h
  cases hlook : lookUnder Path.rewritten d n directory with
  | error e =>
    rw [hlook] at h
    cases h
  | ok found =>
    rw [hlook] at h
    rcases Option.or_eq_some_iff.1 h with h | ⟨-, h⟩
    · exact (settled_found d n hc absolute hlook (Option.filter_eq_some_iff.1 h).1).1
    · split at h
      · obtain rfl := Option.some.inj h
        exact Path.isAbsolute_join n.isAbsolute_path absolute
      · cases h

/-- A name as a location is what it is in a directory or in the module directories. -/
theorem locate_name :
    locate d context true (.ofSegments (Url.fileNames directory ++ n.segments))
        (.ofSegments (Url.fileNames directory ++ [[]])) =
      (lookUnder Path.rewritten d n directory).map fun found =>
        (found.or (lookAbove Path.rewritten d n context)).bind Url.ofFilePath? := by
  rw [locate, locateHere_name d n absolute, n.relativeName?_eq]
  cases hlook : lookUnder Path.rewritten d n directory with
  | error e => rfl
  | ok found =>
    cases found with
    | none => exact congrArg Except.ok (firstFound_eq d n hc)
    | some p =>
      obtain ⟨url, hurl, -⟩ := fileUrl_of_isAbsolute (settled_lookUnder d n absolute hlook).1
      simp only [Except.map, Option.bind_some, Option.some_or, hurl]
      rfl

/-- The file of a name, as a location and on the disk. -/
theorem load?_eq :
    load? d context (.ofSegments (Url.fileNames directory ++ n.segments))
        (.ofSegments (Url.fileNames directory ++ [[]])) =
      (fileIn Path.rewritten d n context directory).bind Url.ofFilePath? := by
  have alike := n.alike absolute
  have exact : (if d.isFile (n.pathIn directory) then Url.ofFilePath? (n.pathIn directory)
      else none) = (if d.isFile (directory.join n.path) then some (directory.join n.path)
        else none).bind Url.ofFilePath? := by
    rw [Disk.isFile_congr d alike]
    split
    · exact (Url.ofFilePath?_congr alike.left alike.right alike.names).symm
    · rfl
  unfold load?
  rw [locateFile_eq (n.localPath_eq directory), locate_name d n hc absolute, fileIn, exact]
  cases hlook : lookUnder Path.rewritten d n directory with
  | error e => rfl
  | ok found =>
    simp only [Except.map]
    cases hresult : found.or (lookAbove Path.rewritten d n context) with
    | none => rfl
    | some p =>
      obtain ⟨pathAbsolute, same⟩ := settled_found d n hc absolute hlook hresult
      obtain ⟨url, hurl, file, -⟩ := fileUrl_of_isAbsolute pathAbsolute
      rw [Option.bind_some, hurl, Option.filter_some, Option.filter_some, isFileAt_of_fileUrl file,
        same]
      split
      · exact hurl.symm
      · rfl

/-- The module of a name under the base of a directory. -/
theorem resolveAt_rel (kind : BaseKind) {base : SearchBase}
    (hb : SearchBase.ofDirectory d kind directory = .ok base) :
    Option.Rel (ResolvedModule.IsAt d n) (Resolver.resolveAt d context n.text base)
      ((fileIn Path.rewritten d n context directory).map ((kind, directory), ·)) := by
  have url : base.url = .ofSegments (Url.fileNames directory ++ [[]]) := by
    rw [ofDirectory_eq d kind absolute] at hb
    exact congrArg SearchBase.url (Except.ok.inj hb).symm
  have location : Resolver.location? d base n.text =
      some (.ofSegments (Url.fileNames directory ++ n.segments)) := by
    rw [Resolver.location?, if_pos n.isReference_text, url, n.join_eq directory]
    rfl
  rw [Resolver.resolveAt, location, Option.bind_eq_bind, Option.bind_some, url,
    load?_eq d n hc absolute]
  cases hfile : fileIn Path.rewritten d n context directory with
  | none => exact .none
  | some p =>
    have pathAbsolute := isAbsolute_of_fileIn d n hc absolute hfile
    obtain ⟨found, hfound, -⟩ := fileUrl_of_isAbsolute pathAbsolute
    have back := Url.toFilePath?_ofFilePath? pathAbsolute
    rw [hfound, Option.bind_some] at back
    simp only [Option.bind_eq_bind, Option.bind_some, hfound, back]
    exact .some ⟨rfl, hb, hfound, Path.components_rewritten pathAbsolute⟩

omit absolute in
/-- The module of a name under the bases of some directories. -/
theorem findSome?_rel (kind : BaseKind) {directories : List Path}
    (absolute : ∀ directory ∈ directories, directory.isAbsolute) :
    ∃ bases, directories.mapM (SearchBase.ofDirectory d kind) = .ok bases ∧
      Option.Rel (ResolvedModule.IsAt d n) (bases.findSome? (Resolver.resolveAt d context n.text))
        (search Path.rewritten d n context (directories.map (kind, ·))) := by
  induction directories with
  | nil => exact ⟨[], rfl, .none⟩
  | cons directory directories ih =>
    have first := absolute directory List.mem_cons_self
    obtain ⟨bases, hbases, rel⟩ := ih fun directory hd => absolute directory (List.mem_cons_of_mem _ hd)
    have hb := ofDirectory_eq d kind first
    have here := resolveAt_rel d n hc first kind hb
    refine ⟨_ :: bases, by rw [List.mapM_cons, hb, hbases]; rfl, ?_⟩
    unfold search at rel ⊢
    rw [List.map_cons, List.findSome?_cons, List.findSome?_cons]
    generalize Resolver.resolveAt d context n.text _ = left at here ⊢
    generalize (fileIn Path.rewritten d n context directory).map _ = right at here ⊢
    cases here with
    | none => exact rel
    | some h => exact .some h

end

end PathSearch

open PathSearch in
/-- For bare names the resolver finds what the search by paths finds: the same file in the same
directory, or nothing. -/
theorem resolve_eq_search (d : Disk) (n : BareName) {context : Path} {privileged fallback : List Path}
    (context_absolute : context.isAbsolute)
    (absolute : ∀ directory ∈ privileged ++ fallback, directory.isAbsolute) :
    ∃ first last, privileged.mapM (SearchBase.ofDirectory d .privileged) = .ok first ∧
      fallback.mapM (SearchBase.ofDirectory d .fallback) = .ok last ∧
      Option.Rel (ResolvedModule.IsAt d n) ((Resolver.mk first last context).resolve d n.text)
        (search Path.rewritten d n context
          (privileged.map (.privileged, ·) ++ fallback.map (.fallback, ·))) := by
  obtain ⟨first, hfirst, before⟩ := findSome?_rel d n context_absolute .privileged
    fun directory hd => absolute directory (List.mem_append_left _ hd)
  obtain ⟨last, hlast, after⟩ := findSome?_rel d n context_absolute .fallback
    fun directory hd => absolute directory (List.mem_append_right _ hd)
  refine ⟨first, last, hfirst, hlast, ?_⟩
  unfold Resolver.resolve Resolver.resolveIn
  unfold search at before after ⊢
  rw [List.findSome?_append]
  dsimp only
  generalize first.findSome? _ = left at before ⊢
  generalize (privileged.map (BaseKind.privileged, ·)).findSome? _ = right at before ⊢
  cases before with
  | none => exact after
  | some h => exact .some h

/-- The name of a package. -/
def packageName : BareName where
  dotted := false
  first := "pkg".toList
  others := []
  plain := by decide
  named := by decide

open PathSearch in
/-- A name that is not in a directory of an odd name is found in a module directory. -/
theorem package_found_above :
    let directory := Path.ofText "/a b/#1?/%2e%/\u00E9".toList
    let file := Path.ofText "/app/node_modules/pkg/index.js".toList
    (Module.appDirectory.isAbsolute ∧ ∀ p ∈ [directory] ++ [], p.isAbsolute) ∧
    search Path.rewritten Module.appDisk packageName Module.appDirectory
        ([directory].map (.privileged, ·) ++ [].map (.fallback, ·)) =
      some ((.privileged, directory), file) ∧
    ∃ first last, [directory].mapM (SearchBase.ofDirectory Module.appDisk .privileged) = .ok first ∧
      [].mapM (SearchBase.ofDirectory Module.appDisk .fallback) = .ok last ∧
      Option.Rel (ResolvedModule.IsAt Module.appDisk packageName)
        ((Resolver.mk first last Module.appDirectory).resolve Module.appDisk packageName.text)
        (search Path.rewritten Module.appDisk packageName Module.appDirectory
          ([directory].map (.privileged, ·) ++ [].map (.fallback, ·))) := by
  intro directory file
  have context_absolute : Module.appDirectory.isAbsolute := by decide
  have absolute : ∀ p ∈ [directory] ++ [], p.isAbsolute := by decide
  exact ⟨⟨context_absolute, absolute⟩, by decide +kernel,
    resolve_eq_search Module.appDisk packageName context_absolute absolute⟩

/-- A package whose main module is told by a URL with a slash at the end of its path. -/
def slashDisk : Disk :=
  let octets (text : String) := Utf8.encode text.toList
  let descriptor : Entry := .file (.ok (octets "\x7b\"main\": \"lib/?.js\"\x7d"))
  let package : Entry :=
    .directory [(octets "package.json", descriptor), (octets "lib", .file (.ok []))]
  ⟨.directory [(octets "w", .directory [(octets "pkg", package)])], ⟨[Path.slash]⟩⟩

open PathSearch in
/-- The main path ends in a slash and is no file, but its URL, without the slash, is that of one. A
search that takes the path as it is finds nothing; the resolver finds the file. -/
theorem main_with_slash_found :
    let root := Path.ofText "/".toList
    let directory := Path.ofText "/w".toList
    let base : SearchBase := ⟨.ofSegments ["w".toList, []], .privileged⟩
    [directory].mapM (SearchBase.ofDirectory slashDisk .privileged) = .ok [base] ∧
    main? slashDisk (directory.join packageName.path) = .ok (some (.ofText "/w/pkg/lib/".toList)) ∧
    search id slashDisk packageName root [(.privileged, directory)] = none ∧
    ((Resolver.mk [base] [] root).resolve slashDisk packageName.text).map (·.path) =
      some (.ofText "/w/pkg/lib".toList) ∧
    ¬Option.Rel (ResolvedModule.IsAt slashDisk packageName)
      ((Resolver.mk [base] [] root).resolve slashDisk packageName.text)
      (search id slashDisk packageName root [(.privileged, directory)]) := by
  intro root directory base
  have nothing : search id slashDisk packageName root [(.privileged, directory)] = none := by
    decide +kernel
  have found : ((Resolver.mk [base] [] root).resolve slashDisk packageName.text).map (·.path) =
      some (.ofText "/w/pkg/lib".toList) := by decide +kernel
  refine ⟨rfl, eq_ok_of_toOption (by decide +kernel), nothing, found, fun rel => ?_⟩
  rw [nothing] at rel
  cases hresolve : (Resolver.mk [base] [] root).resolve slashDisk packageName.text with
  | none =>
    rw [hresolve] at found
    cases found
  | some m =>
    rw [hresolve] at rel
    cases rel

end ScriptTree
