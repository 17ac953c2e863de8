import ScriptTree.Proofs.ModuleDirectories

/-!
# What a lookup finds

Whatever a lookup finds is the URL of a path on this machine (`fileUrl_of_locate`), and it is taken
only if there is a file at that path; otherwise there must be one at the location itself
(`locateFile_eq`). The path of a location may have parts that say nothing, but not at its end if it
leads to a file, so it leads there as well when it has passed through a URL (`isFile_rewritten`).
Either way a file that is found is there (`isFile_of_load?`).
-/
namespace ScriptTree.Module

variable {d : Disk} {context path : Path} {url base found : Url} {submodules : Bool}

/-! ## URLs of paths -/

/-- An absolute path has a URL, which leads back to the path rewritten. -/
theorem fileUrl_of_isAbsolute (h : path.isAbsolute) :
    ∃ url, Url.ofFilePath? path = some url ∧ fileUrl path = .ok url ∧
      localPath url = .ok path.rewritten := by
  have url := Url.ofFilePath?_eq h
  have back := Url.toFilePath?_ofFilePath? h
  rw [url, Option.bind_some] at back
  refine ⟨_, url, by rw [fileUrl, url], ?_⟩
  simp only [localPath, back]
  rfl

theorem isAbsolute_of_localPath (h : localPath url = .ok path) : path.isAbsolute := by
  unfold localPath at h
  split at h
  · next hpath _ =>
    obtain rfl := Except.ok.inj h
    exact Url.isAbsolute_of_toFilePath? hpath
  · cases h

theorem isAbsolute_withSuffix (absolute : path.isAbsolute) : (withSuffix path).isAbsolute := by
  unfold withSuffix
  split
  · exact absolute
  · exact Path.isAbsolute_extend _ absolute

theorem isAbsolute_of_fileUrl (h : fileUrl path = .ok url) : path.isAbsolute := by
  unfold fileUrl Url.ofFilePath? at h
  by_cases absolute : path.isAbsolute
  · exact absolute
  · rw [if_neg absolute] at h
    cases h

/-- The URL of a path is also that of the path to which it leads back. -/
theorem rewritten_of_fileUrl (h : fileUrl path = .ok url) :
    Url.ofFilePath? path.rewritten = some url ∧ url.toFilePath? = some path.rewritten ∧
      localPath url = .ok path.rewritten := by
  have absolute := isAbsolute_of_fileUrl h
  obtain ⟨_, hurl, file, back⟩ := fileUrl_of_isAbsolute absolute
  obtain rfl := Except.ok.inj (file.symm.trans h)
  have again := Url.toFilePath?_ofFilePath? absolute
  rw [hurl, Option.bind_some] at again
  exact ⟨(Url.ofFilePath?_rewritten absolute).trans hurl, again, back⟩

/-- The URL of a path has nothing behind the path. -/
theorem bare_of_ofFilePath? (h : Url.ofFilePath? path = some url) :
    url.query = none ∧ url.fragment = none := by
  unfold Url.ofFilePath? at h
  split at h
  · cases h
    exact ⟨rfl, rfl⟩
  · cases h

/-! ## What a lookup finds -/

theorem fileUrl_of_locateHere (h : locateHere d url = .ok (some found)) :
    ∃ path, fileUrl path = .ok found := by
  obtain ⟨path, -, ⟨-, file⟩ | ⟨_, main, -, -, file⟩ | ⟨-, file⟩⟩ := locateHere_cases h
  · exact ⟨_, file⟩
  · exact ⟨main, file⟩
  · exact ⟨_, file⟩

/-- Whatever a lookup finds is the URL of a path, whether or not there is anything at it. -/
theorem fileUrl_of_locate (h : locate d context submodules url base = .ok (some found)) :
    ∃ path, fileUrl path = .ok found := by
  unfold locate at h
  obtain ⟨here, located, h⟩ := bind_eq_ok.1 h
  split at h
  · obtain ⟨candidate, -, h⟩ := mem_of_firstFound (Except.ok.inj h)
    exact fileUrl_of_locateHere h
  · rw [Except.ok.inj h] at located
    exact fileUrl_of_locateHere located

theorem locate_of_localPath_error {e : LookupError} (h : localPath url = .error e) :
    locate d context submodules url base = .error e := by
  rw [locate, locateHere, h]
  rfl

/-- Whether there is a file at the path of a URL. -/
def isFileAt (d : Disk) (url : Url) : Bool :=
  (url.toFilePath?.map d.isFile).getD false

theorem isFileAt_of_fileUrl (h : fileUrl path = .ok url) :
    isFileAt d url = d.isFile path.rewritten := by
  rw [isFileAt, (rewritten_of_fileUrl h).2.1]
  rfl

/-- What a lookup finds is the file of a location if it is one; else the location may itself be
one. -/
theorem locateFile_eq (h : localPath url = .ok path) :
    locateFile d context url base =
      (locate d context true url base).map fun found =>
        (found.filter (isFileAt d)).or (if d.isFile path then Url.ofFilePath? path else none) := by
  have exact : (do
      let exact ← localPath url
      if d.isFile exact then return some (← fileUrl exact)
      return none) = Except.ok (if d.isFile path then Url.ofFilePath? path else none) := by
    obtain ⟨location, hlocation, file, -⟩ := fileUrl_of_isAbsolute (isAbsolute_of_localPath h)
    rw [h, hlocation]
    simp only [bind, Except.bind, file]
    split <;> rfl
  unfold locateFile
  cases located : locate d context true url base with
  | error e => rfl
  | ok result =>
    simp only [bind, Except.bind] at exact ⊢
    cases result with
    | none =>
      simp only [pure, Except.pure, Bool.false_eq_true, if_false] at exact ⊢
      exact exact
    | some found =>
      obtain ⟨_, file⟩ := fileUrl_of_locate located
      simp only [Except.map, (rewritten_of_fileUrl file).2.2, Option.filter_some,
        isFileAt_of_fileUrl file]
      split
      · rfl
      · exact exact

/-- A path that leads to a file, and does not end like a drive, does so as it is rewritten. -/
theorem isFile_rewritten_of_last (absolute : path.isAbsolute)
    (noDrive : Url.endsInDrive (Path.slash :: path.last) = false) (file : d.isFile path) :
    d.isFile path.rewritten = true := by
  have solid := Disk.isVacant_last_of_isFile absolute file
  rw [← Disk.isFile_congr d (Path.alike_rewritten absolute solid noDrive), file]

/-- The path of a location does not end like a drive. -/
theorem noDrive_of_localPath (h : localPath url = .ok path) :
    Url.endsInDrive (Path.slash :: path.last) = false := by
  obtain ⟨front, octets⟩ := Path.octets_eq_append_last (isAbsolute_of_localPath h)
  unfold localPath at h
  split at h
  · next p hp _ =>
    obtain rfl := Except.ok.inj h
    rw [← Path.endsInDrive_append front, ← octets]
    exact Url.endsInDrive_of_toFilePath? hp
  · cases h

/-- A location that is a file is one under its path rewritten. -/
theorem isFile_rewritten (h : localPath url = .ok path) (file : d.isFile path) :
    d.isFile path.rewritten = true :=
  isFile_rewritten_of_last (isAbsolute_of_localPath h) (noDrive_of_localPath h) file

/-- A file that is found for a location is there. -/
theorem isFile_of_load? (h : load? d context url base = some found) :
    ∃ path, fileUrl path = .ok found ∧ d.isFile path.rewritten = true := by
  unfold load? at h
  cases local' : localPath url with
  | error e =>
    rw [locateFile, locate_of_localPath_error local'] at h
    cases h
  | ok path =>
    rw [locateFile_eq local'] at h
    cases located : locate d context true url base with
    | error e =>
      rw [located] at h
      cases h
    | ok result =>
      rw [located] at h
      rcases Option.or_eq_some_iff.1 h with taken | ⟨-, exact⟩
      · obtain ⟨rfl, there⟩ := Option.filter_eq_some_iff.1 taken
        obtain ⟨path, file⟩ := fileUrl_of_locate located
        exact ⟨path, file, isFileAt_of_fileUrl file ▸ there⟩
      · rw [Option.ite_none_right_eq_some] at exact
        exact ⟨path, by rw [fileUrl, exact.2], isFile_rewritten local' exact.1⟩

end ScriptTree.Module
