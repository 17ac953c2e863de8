import ScriptTree.Proofs.Bases

/-!
# Files at the very location

If there is a file at the path of a location, a file is found for the location
(`existing_file_is_found`). Nothing lies below a file, so the location itself is no package and has no
index, and the lookup cannot fail there (`locateHere_of_isFile`); a failure in a module directory is
passed over, and what is found in one is taken only if it is a file. So the only files that come before
the one at the location are a script of its name and what a module directory has.
-/
namespace ScriptTree

open PathSearch

namespace Module

variable {d : Disk} {context path : Path} {url base found : Url}

/-- What the search in the module directories above a context finds for a location below a base. -/
def foundAbove (d : Disk) (context : Path) (url base : Url) : Option Url :=
  (relativeName? url base).bind fun relative =>
    firstFound (fun url => (pure (locateHere d url) : Id _)) (submoduleCandidates d context relative)

/-- Where a location itself names nothing, what is found above decides. -/
theorem locate_of_foundAbove (here : locateHere d url = .ok none) :
    locate d context true url base = .ok (foundAbove d context url base) := by
  rw [locate, here, foundAbove]
  cases relativeName? url base <;> rfl

/-- A file is neither a package nor a directory with an index. -/
theorem locateHere_of_isFile (here : localPath url = .ok path) (file : d.isFile path)
    (noScript : d.isFile (withSuffix path) = false) : locateHere d url = .ok none := by
  have absolute := isAbsolute_of_localPath here
  have nothing (name : Path) (relative : name.isAbsolute = false) :
      d.isFile (path.join name) = false := by
    refine Bool.eq_false_iff.2 fun below => ?_
    rw [Disk.isFile_eq_false_of_join absolute relative below] at file
    cases file
  have noPackage : main? d path = .ok none := by
    simp [main?, nothing Package.fileName (by decide)]
  have noIndex : index? d path = none := by
    simp [index?, nothing indexName (by decide)]
  rw [locateHere_of_noScript here noScript, noPackage]
  simp only [noIndex, Option.bind_none]
  rfl

/-- For a location with a file at its path, the lookup takes a script of its name, then a file of the
module directories above, and then the file itself. -/
theorem load?_of_isFile (context : Path) (base : Url) (here : localPath url = .ok path)
    (file : d.isFile path) :
    load? d context url base =
      if d.isFile (withSuffix path) then Url.ofFilePath? (withSuffix path)
      else ((foundAbove d context url base).filter (isFileAt d)).or (Url.ofFilePath? path) := by
  by_cases script : d.isFile (withSuffix path)
  · rw [if_pos script, load?_of_script here script]
  · rw [if_neg script]
    have nothing := locateHere_of_isFile here file (Bool.eq_false_iff.2 script)
    rw [load?, locateFile_eq here, locate_of_foundAbove nothing, if_pos file]
    rfl

/-- The path of a location that is a file names the same file when it has passed through a URL. -/
theorem alike_rewritten_of_isFile (here : localPath url = .ok path) (file : d.isFile path) :
    path.Alike path.rewritten := by
  have absolute := isAbsolute_of_localPath here
  exact Path.alike_rewritten absolute (Disk.isVacant_last_of_isFile absolute file)
    (noDrive_of_localPath here)

end Module

open ScriptTree.Module in
/-- A location at whose path there is a file is never reported missing, whatever is met on the way: a
file is found for it. That file is the one at the path, under a path with the same components, unless
there is a script of that name with the suffix added, or the search in the module directories finds
another file. -/
theorem existing_file_is_found {d : Disk} {path : Path} {url : Url} (context : Path) (base : Url)
    (here : localPath url = .ok path) (file : d.isFile path) :
    ∃ found other, load? d context url base = some found ∧ localPath found = .ok other ∧
      d.isFile other ∧
      (hasModuleSuffix path.toText ∨ d.isFile (path.extend (Utf8.encode scriptSuffix)) = false ∧
          (∀ above, foundAbove d context url base = some above → isFileAt d above = false) →
        d.locate other = d.locate path ∧ other.components = path.components) := by
  have alike := alike_rewritten_of_isFile here file
  obtain ⟨own, hown, ownUrl, ownPath⟩ := fileUrl_of_isAbsolute alike.left
  have same : d.locate path.rewritten = d.locate path ∧
      path.rewritten.components = path.components :=
    ⟨(Disk.locate_congr d alike).symm, Path.components_rewritten alike.left⟩
  have loaded := load?_of_isFile context base here file
  by_cases suffixed : hasModuleSuffix path.toText
  · -- The path is that of a script already, so it comes first.
    have script : withSuffix path = path := if_pos suffixed
    rw [script, if_pos file, hown] at loaded
    exact ⟨own, path.rewritten, loaded, ownPath, isFile_rewritten here file, fun _ => same⟩
  have script : withSuffix path = path.extend (Utf8.encode scriptSuffix) := if_neg suffixed
  cases there : d.isFile (withSuffix path) with
  | true =>
    obtain ⟨found, hfound, scriptUrl, scriptPath⟩ :=
      fileUrl_of_isAbsolute (isAbsolute_withSuffix (isAbsolute_of_localPath here))
    rw [there, if_pos rfl, hfound] at loaded
    refine ⟨found, _, loaded, scriptPath, isFile_rewritten_withSuffix here there, ?_⟩
    rintro (h | ⟨noScript, -⟩)
    · exact absurd h suffixed
    · rw [← script, there] at noScript
      cases noScript
  | false =>
    rw [there, if_neg Bool.false_ne_true, hown] at loaded
    cases taken : (foundAbove d context url base).filter (isFileAt d) with
    | some found =>
      rw [taken, Option.some_or] at loaded
      obtain ⟨written, writtenUrl, isFile⟩ := isFile_of_load? loaded
      refine ⟨found, _, loaded, (rewritten_of_fileUrl writtenUrl).2.2, isFile, ?_⟩
      obtain ⟨above, fileAt⟩ := Option.filter_eq_some_iff.1 taken
      rintro (h | ⟨-, noFile⟩)
      · exact absurd h suffixed
      · rw [noFile found above] at fileAt
        cases fileAt
    | none =>
      rw [taken, Option.none_or] at loaded
      exact ⟨own, path.rewritten, loaded, ownPath, isFile_rewritten here file, fun _ => same⟩

/-- A library with a file without an extension. In the module directory of the application is a package
of the same name with a main module that is not there, and in the one above it a malformed package. -/
def bareFileDisk : Disk :=
  let octets (text : String) := Utf8.encode text.toList
  let modules (descriptor : String) : List UInt8 × Entry :=
    (octets "node_modules", .directory [(octets "pkg",
      .directory [(octets "package.json", .file (.ok (octets descriptor)))])])
  ⟨.directory [(octets "lib", .directory [(octets "pkg", .file (.ok []))]), modules "\x7b",
    (octets "app", .directory [modules "\x7b\"main\": \"gone\"\x7d"])], ⟨[Path.slash]⟩⟩

open ScriptTree.Module in
/-- The file is found although the search ends at the main module that is not there. -/
theorem bare_file_is_found :
    let url := Url.ofSegments ["lib".toList, "pkg".toList]
    let path := Path.ofText "/lib/pkg".toList
    let gone := Url.ofSegments ["app".toList, "node_modules".toList, "pkg".toList, "gone.js".toList]
    (localPath url = .ok path ∧ bareFileDisk.isFile path ∧
      foundAbove bareFileDisk appDirectory url libraryBase.url = some gone) ∧
    ∃ found other, load? bareFileDisk appDirectory url libraryBase.url = some found ∧
      localPath found = .ok other ∧ bareFileDisk.isFile other ∧
      other.components = path.components := by
  intro url path gone
  have here : localPath url = .ok path := eq_ok_of_toOption (by decide +kernel)
  have file : bareFileDisk.isFile path := by decide +kernel
  have above : foundAbove bareFileDisk appDirectory url libraryBase.url = some gone := by
    decide +kernel
  have noScript : bareFileDisk.isFile (path.extend (Utf8.encode scriptSuffix)) = false := by
    decide +kernel
  have absent : isFileAt bareFileDisk gone = false := by decide +kernel
  obtain ⟨found, other, loaded, local', isFile, same⟩ :=
    existing_file_is_found appDirectory libraryBase.url here file
  refine ⟨⟨here, file, above⟩, found, other, loaded, local', isFile, ?_⟩
  refine (same (.inr ⟨noScript, fun candidate taken => ?_⟩)).2
  obtain rfl := Option.some.inj (above.symm.trans taken)
  exact absent

end ScriptTree
