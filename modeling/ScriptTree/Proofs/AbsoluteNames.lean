import ScriptTree.Proofs.NameRoutes

/-!
# Absolute names

An absolute path as the name of a module. Taken as a path it is itself; but a path that may stand in
a URL is joined to the URL of a base, and there a number sign, a question mark and a percent code
have their own meaning, and the drive of a base stays in front. Without these (`Url.IsLiteral`) the
path of a file with the suffix of a module resolves to that file, below every base that is on this
machine and below none to another one (`absolute_name_resolves_to_itself`).
-/
namespace ScriptTree

/-! ## Paths written by their names -/

/-- Whether a path is written with its names alone, each after a slash, and leads up nowhere. -/
structure Path.IsNormal (p : Path) : Prop where
  absolute : p.isAbsolute
  parts : p.parts = [] :: p.names
  noUp : [Path.dot, Path.dot] ∉ p.names

instance (p : Path) : Decidable p.IsNormal :=
  decidable_of_iff (p.isAbsolute ∧ p.parts = [] :: p.names ∧ [Path.dot, Path.dot] ∉ p.names)
    ⟨fun ⟨absolute, parts, noUp⟩ => ⟨absolute, parts, noUp⟩,
      fun normal => ⟨normal.absolute, normal.parts, normal.noUp⟩⟩

namespace Path.IsNormal

variable {p : Path} (h : p.IsNormal)
include h

theorem names_ne_nil : p.names ≠ [] := fun e => by
  obtain ⟨rest, hrest⟩ := octets_of_isAbsolute h.absolute
  have parts := h.parts
  rw [e, Path.parts, hrest, Text.pieces_cons_self] at parts
  exact Text.pieces_ne_nil _ _ (List.cons.inj parts).2

theorem octets_eq : p.octets = p.names.flatMap (slash :: ·) := by
  have joined := Text.join_pieces slash p.octets
  rw [← Path.parts, h.parts, Text.join_eq_flatMap, List.nil_append] at joined
  exact joined.symm

theorem ofParts_names (noDrive : Url.endsInDrive p.octets = false) : ofParts p.names = p := by
  have octets := h.octets_eq
  rw [octets] at noDrive
  rw [ofParts, noDrive, if_neg Bool.false_ne_true, ← octets]

/-- Such a path comes back from its URL as it is, unless it ends like a drive. -/
theorem rewritten_eq (noDrive : Url.endsInDrive p.octets = false) : p.rewritten = p := by
  rw [Path.rewritten, if_neg h.names_ne_nil, h.ofParts_names noDrive]

end Path.IsNormal

/-- What ends in the suffix of a module does not end like a drive. -/
theorem Path.endsInDrive_of_hasModuleSuffix {name : List Char} (suffixed : hasModuleSuffix name) :
    Url.endsInDrive (ofText name).octets = false := by
  have final {suffix : List Char} (h : suffix.isSuffixOf name) {b : UInt8}
      (hb : (Utf8.encode suffix).getLast? = some b) : (ofText name).octets.getLast? = some b := by
    obtain ⟨front, rfl⟩ := List.isSuffixOf_iff_suffix.1 h
    rw [ofText, Utf8.encode_append, List.getLast?_append, hb, Option.some_or]
  rcases Bool.or_eq_true_iff.1 suffixed with h | h
  · exact endsInDrive_of_getLast? (final h (b := 0x73) (by decide)) (by decide) (by decide)
  · exact endsInDrive_of_getLast? (final h (b := 0x6E) (by decide)) (by decide) (by decide)

/-! ## Names joined to a URL -/

namespace Url

/-- Whether nothing in a text means more in a URL than itself. -/
structure IsLiteral (text : List Char) : Prop where
  noFragment : '#' ∉ text
  noQuery : '?' ∉ text
  noCode : ¬Percent.HasCode text

/-- Whether the path of a URL starts with a drive, which stays in front of what is joined to it. -/
def startsAtDrive (u : Url) : Bool :=
  match u.path with
  | .names (first :: _) => isDrive first && first.getLast? == some ':'
  | _ => false

/-- Whether the host of a URL is this machine. -/
def isHere (u : Url) : Bool :=
  let host := (u.authority.map Authority.host).getD []
  decide (host = [] ∨ host = "localhost".toList)

variable {base : Url} {rest : List Char}

theorem toFilePath?_of_elsewhere {u : Url} (h : u.isHere = false) : u.toFilePath? = none := by
  have elsewhere := of_decide_eq_false h
  unfold toFilePath?
  split
  · rfl
  · rfl
  · exact if_neg elsewhere

/-- What characters may stand in a reference. -/
theorem char_of_isReference {text : List Char} (reference : Resolver.isReference text) :
    ∀ c ∈ text, c.toNat < 0x80 ∧ isPadding c = false ∧ c ∉ ['\t', '\n', '\r', '\\', '|'] ∧
      (Percent.inPath c = true → c ∈ ['#', '?']) :=
  Resolver.forall_of_isReference (by decide +kernel) reference

theorem infix_of_mem_pieces {segment : List Char} (h : segment ∈ Text.pieces '/' rest) :
    segment <:+: '/' :: rest := by
  have inside := Text.infix_join_of_mem '/' h
  rw [Text.join_pieces] at inside
  exact inside.trans (List.suffix_cons _ _).isInfix

/-- Without a drive of the base, a text with one slash at its start is read at the root. -/
theorem fileRoot_of_drive (drive : startsWithDrive rest ∨ base.startsAtDrive = false) :
    ∃ authority, (base.isHere → authority.host = [] ∨ authority.host = "localhost".toList) ∧
      fileRoot (some base) rest = ([], authority) := by
  have own (here : base.isHere) : (base.authority.getD localAuthority).host = [] ∨
      (base.authority.getD localAuthority).host = "localhost".toList := by
    cases authority : base.authority with
    | none => exact .inl rfl
    | some a =>
      have here := of_decide_eq_true here
      rw [authority] at here
      exact here
  unfold fileRoot
  dsimp only
  split
  · exact ⟨_, fun _ => .inl rfl, rfl⟩
  · next noDrive =>
    have free := drive.resolve_left noDrive
    unfold startsAtDrive at free
    split
    · next first others e =>
      rw [e, Bool.and_eq_false_iff, beq_eq_false_iff_ne] at free
      refine ⟨_, own, if_neg fun ⟨isDrive, colon⟩ => ?_⟩
      rcases free with free | free
      · rw [isDrive] at free
        cases free
      · exact free colon
    · exact ⟨_, own, rfl⟩

section

variable (normal : (Path.ofText ('/' :: rest)).IsNormal)
include normal

theorem map_encode_pieces :
    (Text.pieces '/' rest).map Utf8.encode = (Path.ofText ('/' :: rest)).names := by
  have parts := normal.parts
  rw [Path.parts_ofText, Text.pieces_cons_self, List.map_cons] at parts
  exact (List.cons.inj parts).2

/-- The segments of a normal path are names. -/
theorem segment_ne {segment : List Char} (h : segment ∈ Text.pieces '/' rest) :
    segment ≠ [] ∧ segment ≠ ['.'] ∧ segment ≠ ['.', '.'] := by
  have mem : Utf8.encode segment ∈ (Path.ofText ('/' :: rest)).names :=
    map_encode_pieces normal ▸ List.mem_map_of_mem h
  have full := Path.isVacant_of_mem_names mem
  refine ⟨?_, ?_, ?_⟩
  · rintro rfl
    exact absurd full (by decide)
  · rintro rfl
    exact absurd full (by decide)
  · rintro rfl
    exact normal.noUp mem

/-- A normal path has one slash at its start. -/
theorem exists_cons_of_isNormal : ∃ c others, rest = c :: others ∧ c ≠ '/' := by
  cases rest with
  | nil => exact absurd rfl (segment_ne normal List.mem_cons_self).1
  | cons c others =>
    refine ⟨c, others, rfl, ?_⟩
    rintro rfl
    have mem : [] ∈ Text.pieces '/' ('/' :: others) := by
      rw [Text.pieces_cons_self]
      exact List.mem_cons_self
    exact (segment_ne normal mem).1 rfl

end

section

variable (reference : Resolver.isReference ('/' :: rest)) (literal : IsLiteral ('/' :: rest))
include reference literal

/-- In a URL the segments of a literal path are written as they are. -/
theorem writeName_literal {segment : List Char} (h : segment ∈ Text.pieces '/' rest)
    (directory : List (List Char)) : writeName fileScheme directory segment = segment := by
  have inside := (infix_of_mem_pieces h).subset
  have char (c : Char) (hc : c ∈ segment) := char_of_isReference reference c (inside hc)
  unfold writeName
  split
  · next drive =>
    obtain ⟨-, -, drive⟩ := drive
    unfold isDrive at drive
    split at drive
    · next c mark =>
      rw [Bool.and_eq_true, Bool.or_eq_true, beq_iff_eq, beq_iff_eq] at drive
      rcases drive.2 with rfl | rfl
      · rfl
      · exact absurd (char '|' (by simp)).2.2.1 (by decide)
    · cases drive
  · refine Percent.encode_eq_self fun c hc => ⟨(char c hc).1, Bool.eq_false_iff.2 fun coded => ?_⟩
    have mark := (char c hc).2.2.2 coded
    rw [List.mem_cons, List.mem_singleton] at mark
    rcases mark with rfl | rfl
    · exact literal.noFragment (inside hc)
    · exact literal.noQuery (inside hc)

/-- A literal path has no scheme and no tail. -/
theorem join_rooted (base : Url) : base.join ('/' :: rest) =
    if base.isPlain then .error .opaqueBase
    else if base.isFile then readFile (some base) ⟨'/' :: rest, none, none⟩
    else readRelative base ⟨'/' :: rest, none, none⟩ := by
  have clean : clean ('/' :: rest) = '/' :: rest := by
    refine clean_eq_self fun c hc => ?_
    obtain ⟨-, padding, marks, -⟩ := char_of_isReference reference c hc
    simp only [List.mem_cons, not_or] at marks
    exact ⟨padding, marks.1, marks.2.1, marks.2.2.1⟩
  have scheme : scheme? ('/' :: rest) = none := by
    have start : cut ':' ('/' :: rest) = ('/' :: (cut ':' rest).1, (cut ':' rest).2) :=
      if_neg (by decide)
    have noLetter : Char.isAlpha '/' = false := by decide
    rw [scheme?, start]
    cases (cut ':' rest).2 with
    | none => rfl
    | some _ => simp [noLetter]
  have parts : Parts.ofText ('/' :: rest) = ⟨'/' :: rest, none, none⟩ := by
    simp only [Parts.ofText, cut_of_notMem literal.noFragment, cut_of_notMem literal.noQuery]
  unfold join read
  simp only [clean, scheme, parts]
  rfl

variable (normal : (Path.ofText ('/' :: rest)).IsNormal)
include normal

/-- At the root of files a literal path has its own segments. -/
theorem pathBelow_literal : pathBelow fileScheme [] rest = .names (Text.pieces '/' rest) := by
  have straight : straighten fileScheme rest = rest := by
    rw [straighten, if_pos (by decide)]
    refine (List.map_congr_left fun c hc => if_neg ?_).trans (List.map_id _)
    rintro rfl
    exact absurd (char_of_isReference reference _ (List.mem_cons_of_mem _ hc)).2.2.1 (by decide)
  have below : namesBelow fileScheme [] rest = Text.pieces '/' rest := by
    rw [namesBelow, straight, descend_written id, List.map_id, List.nil_append]
    intro segment h
    have noCode : ¬Percent.HasCode segment := fun code =>
      literal.noCode (code.of_infix (infix_of_mem_pieces h))
    obtain ⟨-, here, up⟩ := segment_ne normal h
    rw [plainDots_eq_self noCode]
    exact ⟨up, here, writeName_literal reference literal h⟩
  obtain ⟨first, others, split⟩ := List.exists_cons_of_ne_nil (Text.pieces_ne_nil '/' rest)
  have full : first ≠ [] := (segment_ne normal (split ▸ List.mem_cons_self)).1
  simp [pathBelow, below, pathOf, split, full]

omit literal in
theorem slashes_rooted : (('/' :: rest).takeWhile isSlash).length = 1 := by
  obtain ⟨c, others, rfl, noSlash⟩ := exists_cons_of_isNormal normal
  have mem : c ∈ '/' :: c :: others := by simp
  have marks := (char_of_isReference reference c mem).2.2.1
  have noBackslash : c ≠ '\\' := fun e => marks (by rw [e]; decide)
  simp [isSlash, noSlash, noBackslash]

/-- Joined to the URL of a file, a literal path stays itself, unless it goes below a drive or is on
another machine. -/
theorem join_file (structured : base.isPlain = false) (file : base.isFile)
    (drive : startsWithDrive rest ∨ base.startsAtDrive = false) :
    ∃ url, base.join ('/' :: rest) = .ok url ∧ (base.isHere → url.isHere) ∧
      (url.isHere → url.toFilePath? = some (.ofParts (Path.ofText ('/' :: rest)).names)) ∧
      url.isFile := by
  have slashes := slashes_rooted reference normal
  have path := pathBelow_literal reference literal normal
  obtain ⟨authority, here, root⟩ := fileRoot_of_drive drive
  have read : (Text.pieces '/' rest).map Percent.decode = (Path.ofText ('/' :: rest)).names := by
    rw [← map_encode_pieces normal]
    exact List.map_congr_left fun segment hs => Percent.decode_eq_encode fun code =>
      literal.noCode (code.of_infix (infix_of_mem_pieces hs))
  refine ⟨⟨fileScheme, some authority, .names (Text.pieces '/' rest), none, none⟩, ?_,
    fun isHere => decide_eq_true (here isHere), fun isHere => ?_, rfl⟩
  · rw [join_rooted reference literal, if_neg (Bool.eq_false_iff.1 structured), if_pos file]
    unfold readFile
    simp only [slashes, List.drop_succ_cons, List.drop_zero, root, path]
    rfl
  · rw [← read]
    exact (toFilePath?_names (Text.pieces_ne_nil '/' rest) _ _ _ _).trans
      (if_pos (of_decide_eq_true isHere))

/-- Joined to any other URL, it leads to no file. -/
theorem join_remote (structured : base.isPlain = false) (remote : base.isFile = false) :
    ∃ url, base.join ('/' :: rest) = .ok url ∧ url.isFile = false := by
  have slashes := slashes_rooted reference normal
  rw [join_rooted reference literal, if_neg (Bool.eq_false_iff.1 structured),
    if_neg (Bool.eq_false_iff.1 remote)]
  unfold readRelative
  simp only [slashes]
  exact ⟨_, rfl, remote⟩

end

end Url

/-! ## Names that are absolute paths -/

namespace Resolver

open ScriptTree.Module

variable {d : Disk} {name : List Char} {base : SearchBase} {url : Url}

/-- Whether a name is read as a path below every base: it may not stand in a URL at all, or it means
itself there and stays free of drives. -/
def IsPathName (bases : List SearchBase) (name : List Char) : Prop :=
  isReference name → Url.IsLiteral name ∧
    (Url.startsWithDrive (name.drop 1) ∨
      ∀ base ∈ bases, base.url.isFile → base.url.startsAtDrive = false)

theorem IsPathName.of_mem {bases : List SearchBase} (h : IsPathName bases name)
    (hb : base ∈ bases) : IsPathName [base] name := fun reference =>
  ⟨(h reference).1, (h reference).2.imp_right fun free other ho =>
    free other (List.mem_singleton.1 ho ▸ hb)⟩

theorem resolveAt_of_localPath (context : Path) {p : Path}
    (location : location? d base name = some url) (here : localPath url = .ok p)
    (again : p.rewritten = p) (suffixed : hasModuleSuffix p.toText) (file : d.isFile p) :
    ∃ m, resolveAt d context name base = some m ∧ m.path = p := by
  have same : withSuffix p = p := if_pos suffixed
  have absolute := isAbsolute_of_localPath here
  obtain ⟨found, hfound, -⟩ := fileUrl_of_isAbsolute absolute
  have loaded : load? d context url base.url = some found := by
    rw [load?_of_script here (same.symm ▸ file), same, hfound]
  have back := Url.toFilePath?_ofFilePath? absolute
  rw [hfound, Option.bind_some, again] at back
  refine ⟨⟨name, found, p, base⟩, ?_, rfl⟩
  unfold resolveAt
  rw [location, Option.bind_eq_bind, Option.bind_some, loaded, Option.bind_eq_bind,
    Option.bind_some, back]
  rfl

theorem exists_rest_of_isAbsolute (absolute : (Path.ofText name).isAbsolute) :
    ∃ rest, name = '/' :: rest := by
  rw [Path.isAbsolute_ofText, beq_iff_eq] at absolute
  exact List.head?_eq_some_iff.1 absolute

theorem location?_of_join (reference : isReference name) (joined : base.url.join name = .ok url) :
    location? d base name = some url := by
  rw [location?, if_pos reference, joined]
  rfl

theorem localPath_of_remote (remote : url.isFile = false) : ∃ e, localPath url = .error e := by
  unfold localPath
  split
  · next file =>
    rw [remote] at file
    cases file
  · exact ⟨_, rfl⟩

theorem resolveAt_of_remote (context : Path) {e : LookupError}
    (location : location? d base name = some url) (away : localPath url = .error e) :
    resolveAt d context name base = none := by
  have nothing : load? d context url base.url = none := by
    rw [load?, locateFile, locate_of_localPath_error away]
    rfl
  unfold resolveAt
  rw [location, Option.bind_eq_bind, Option.bind_some, nothing]
  rfl

/-- Taken as a path, the absolute path of a file is itself. -/
theorem pathLocation?_absolute {name : List Char} (absolute : (Path.ofText name).isAbsolute)
    (file : d.isFile (Path.ofText name)) :
    pathLocation? d base name = Url.ofFilePath? (.ofText name) := by
  have noDirectory : d.isDirectory (.ofText name) = false :=
    Bool.eq_false_iff.2 fun directory => by
      rw [Disk.isFile_eq_false_of_isDirectory directory] at file
      cases file
  unfold pathLocation?
  simp [absolute, noDirectory]

section

variable (context : Path) (normal : (Path.ofText name).IsNormal) (suffixed : hasModuleSuffix name)
  (file : d.isFile (Path.ofText name))
include normal suffixed file

/-- Where the location of a name is its own path, the name finds its own file. -/
theorem resolveAt_of_itself (location : location? d base name = some url)
    (here : localPath url = .ok (.ofText name)) :
    ∃ m, resolveAt d context name base = some m ∧ m.path = .ofText name := by
  have again := normal.rewritten_eq (Path.endsInDrive_of_hasModuleSuffix suffixed)
  have text : (Path.ofText name).toText = name := Utf8.decodeLossy_encode name
  exact resolveAt_of_localPath context location here again (text.symm ▸ suffixed) file

theorem resolveAt_of_pathLocation (location : location? d base name = pathLocation? d base name) :
    ∃ m, resolveAt d context name base = some m ∧ m.path = .ofText name := by
  obtain ⟨url, hurl, -, here⟩ := fileUrl_of_isAbsolute normal.absolute
  rw [normal.rewritten_eq (Path.endsInDrive_of_hasModuleSuffix suffixed)] at here
  have own : location? d base name = some url :=
    location.trans ((pathLocation?_absolute normal.absolute file).trans hurl)
  exact resolveAt_of_itself context normal suffixed file own here

/-- Joined to the URL of a file, a literal path finds its own file, or nothing if that URL is on
another machine. -/
theorem resolveAt_of_join_file (reference : isReference name) (literal : Url.IsLiteral name)
    (structured : base.url.isPlain = false) (isFile : base.url.isFile)
    (drive : Url.startsWithDrive (name.drop 1) ∨ base.url.startsAtDrive = false) :
    (∃ m, resolveAt d context name base = some m ∧ m.path = .ofText name) ∨
      resolveAt d context name base = none ∧ base.directory? = none := by
  obtain ⟨rest, rfl⟩ := exists_rest_of_isAbsolute normal.absolute
  obtain ⟨url, joined, stays, read, local'⟩ :=
    Url.join_file reference literal normal structured isFile drive
  have location : location? d base ('/' :: rest) = some url := location?_of_join reference joined
  cases here : url.isHere with
  | true =>
    refine .inl (resolveAt_of_itself context normal suffixed file location ?_)
    have noDrive := Path.endsInDrive_of_hasModuleSuffix suffixed
    rw [localPath, read here, local', normal.ofParts_names noDrive]
  | false =>
    have away : localPath url = .error (.notLocal url.toText) := by
      rw [localPath, Url.toFilePath?_of_elsewhere here]
    have baseAway : base.url.isHere = false :=
      Bool.eq_false_iff.2 fun baseHere => by
        rw [stays baseHere] at here
        cases here
    refine .inr ⟨resolveAt_of_remote context location away, ?_⟩
    rw [SearchBase.directory?, isFile, if_pos rfl, Url.toFilePath?_of_elsewhere baseAway]

/-- Below one base an absolute path is its own file, or nothing if the base is not on this
machine. -/
theorem resolveAt_absolute (path : IsPathName [base] name) :
    (∃ m, resolveAt d context name base = some m ∧ m.path = .ofText name) ∨
      resolveAt d context name base = none ∧ base.directory? = none := by
  by_cases reference : isReference name
  · obtain ⟨literal, drive⟩ := path reference
    cases structured : base.url.isPlain with
    | true =>
      -- Nothing can be joined to such a base, so the name is taken as a path after all.
      refine .inl (resolveAt_of_pathLocation context normal suffixed file ?_)
      obtain ⟨rest, rfl⟩ := exists_rest_of_isAbsolute normal.absolute
      rw [location?, if_pos reference, Url.join_rooted reference literal, if_pos structured]
      rfl
    | false =>
      cases isFile : base.url.isFile with
      | true =>
        have drive := drive.imp_right fun free => free base (List.mem_singleton_self base) isFile
        exact resolveAt_of_join_file context normal suffixed file reference literal structured
          isFile drive
      | false =>
        obtain ⟨rest, rfl⟩ := exists_rest_of_isAbsolute normal.absolute
        obtain ⟨url, joined, remote⟩ := Url.join_remote reference literal normal structured isFile
        obtain ⟨e, away⟩ := localPath_of_remote remote
        refine .inr ⟨resolveAt_of_remote context (location?_of_join reference joined) away, ?_⟩
        rw [SearchBase.directory?, isFile]
        rfl
  · exact .inl (resolveAt_of_pathLocation context normal suffixed file
      (by rw [location?, if_neg reference]))

end

end Resolver

/-- An absolute path of an existing module resolves to itself. The path is normal and ends in the
suffix of a module, and some base is on this machine. If the path may stand in a URL, it has no mark
of a query or a fragment there and no percent code, and no base starts at a drive, unless the path
does. If there is a file at the path, the name is resolved to it, whatever the other bases are; so
is the path of a module that has been resolved. -/
theorem absolute_name_resolves_to_itself {r : Resolver} {d : Disk} {name : List Char}
    (normal : (Path.ofText name).IsNormal) (suffixed : hasModuleSuffix name)
    (located : ∃ base ∈ r.privileged ++ r.fallback, base.directory?.isSome)
    (path : Resolver.IsPathName (r.privileged ++ r.fallback) name) :
    (d.isFile (.ofText name) → ∃ m, r.resolve d name = some m ∧ m.path = .ofText name) ∧
      ∀ other m, r.resolve d other = some m → m.path = .ofText name →
        ∃ again, r.resolve d name = some again ∧ again.path = m.path := by
  have resolved (file : d.isFile (.ofText name)) :
      ∃ m, r.resolve d name = some m ∧ m.path = .ofText name := by
    have below (base : SearchBase) (hb : base ∈ r.privileged ++ r.fallback) :=
      Resolver.resolveAt_absolute r.context normal suffixed file (path.of_mem hb)
    obtain ⟨base, hb, here⟩ := located
    obtain ⟨found, hfound, -⟩ := (below base hb).resolve_right fun ⟨_, away⟩ => by
      rw [away] at here
      cases here
    have some : (r.resolveIn d (r.privileged ++ r.fallback) name).isSome :=
      List.findSome?_isSome_iff.2 ⟨base, hb, by rw [hfound]; rfl⟩
    obtain ⟨m, hm⟩ := Option.isSome_iff_exists.1 some
    obtain ⟨first, hf, own⟩ := List.exists_of_findSome?_eq_some hm
    refine ⟨m, (r.resolve_eq_resolveIn d name).trans hm, ?_⟩
    rcases below first hf with ⟨m', hm', same⟩ | ⟨nothing, -⟩
    · obtain rfl := Option.some.inj (own.symm.trans hm')
      exact same
    · rw [nothing] at own
      cases own
  refine ⟨resolved, fun other m found same => ?_⟩
  have file := (Resolver.isFileOf_of_resolve found).file
  rw [same] at file ⊢
  exact resolved file

/-- The path of a package is found past a base on another machine. -/
theorem package_path_resolves :
    let remote : SearchBase :=
      ⟨⟨"http".toList, some (.ofHost "h".toList), .names [[]], none, none⟩, .privileged⟩
    let r : Resolver := ⟨[remote], [Module.libraryBase], .ofText "/".toList⟩
    let name := "/app/node_modules/pkg/index.js".toList
    ((Path.ofText name).IsNormal ∧ hasModuleSuffix name ∧ Module.libraryBase.directory?.isSome ∧
      Resolver.isReference name ∧ Resolver.IsPathName [remote, Module.libraryBase] name ∧
      Module.appDisk.isFile (.ofText name)) ∧
    ∃ m, r.resolve Module.appDisk name = some m ∧ m.path = .ofText name := by
  intro remote r name
  have normal : (Path.ofText name).IsNormal := by decide +kernel
  have suffixed : hasModuleSuffix name := by decide
  have located : Module.libraryBase.directory?.isSome := by decide +kernel
  have literal : Url.IsLiteral name :=
    ⟨by decide, by decide, Percent.not_hasCode_of_notMem (by decide)⟩
  have path : Resolver.IsPathName [remote, Module.libraryBase] name := fun _ =>
    ⟨literal, .inr (by decide)⟩
  have file : Module.appDisk.isFile (.ofText name) := by decide +kernel
  refine ⟨⟨normal, suffixed, located, by decide, path, file⟩, ?_⟩
  exact (absolute_name_resolves_to_itself (r := r) normal suffixed
    ⟨Module.libraryBase, by simp [r], located⟩ path).1 file

/-- Files with the marks of a URL in their names, and a module below a directory with one. -/
def marksDisk : Disk :=
  let octets (text : String) := Utf8.encode text.toList
  let modules : List UInt8 × Entry :=
    (octets "node_modules", .directory [(octets "y.js", .file (.ok []))])
  let directory : Entry :=
    .directory [modules, (octets "b", .directory []), (octets "x.js", .file (.ok []))]
  ⟨.directory [(octets "a#b.js", .file (.ok [])), (octets "a?b.js", .file (.ok [])),
    (octets "%41.js", .file (.ok [])), (octets "A.js", .file (.ok [])), (octets "a", directory),
    (octets "a#", directory)], ⟨[Path.slash]⟩⟩

/-- A mark or a code in a path makes it a reference to something else, and so does the drive of a
base. The path of a resolved module can have a mark of its base in it, or two dots of the context,
and is then not found again, or as another path. -/
theorem marked_path_resolves_otherwise :
    let base (directory : String) : SearchBase := ⟨.ofSegments [directory.toList, []], .privileged⟩
    let path (context directory name : String) :=
      ((Resolver.mk [base directory] [] (.ofText context.toList)).resolve marksDisk
        name.toList).map fun m => String.ofList m.path.toText
    (∀ name ∈ ["/a#b.js", "/a?b.js", "/%41.js", "/a/x.js"],
      (Path.ofText name.toList).IsNormal ∧ hasModuleSuffix name.toList ∧
        marksDisk.isFile (.ofText name.toList)) ∧
    path "/" "lib" "/a#b.js" = none ∧ path "/" "lib" "/a?b.js" = none ∧
      path "/" "lib" "/%41.js" = some "/A.js" ∧ path "/" "C:" "/a/x.js" = none ∧
      path "/" "a%23" "x" = some "/a#/x.js" ∧ path "/" "a%23" "/a#/x.js" = none ∧
      path "/a/b/.." "lib" "y" = some "/a/b/../node_modules/y.js" ∧
      path "/a/b/.." "lib" "/a/b/../node_modules/y.js" = some "/a/node_modules/y.js" := by
  decide +kernel

end ScriptTree
