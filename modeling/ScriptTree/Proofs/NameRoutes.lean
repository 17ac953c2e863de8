import ScriptTree.Proofs.Bases
import ScriptTree.Proofs.RelativeNames

/-!
# Two routes to a name

A name can be joined to the URL of a base, or taken as a path in its directory. For a bare name both
give the same location, unless there is a directory of the name with a script beside it: then the
name taken as a path is that of the script. A lookup finds this script from the URL as well, unless
the name is one of data, to which it adds no suffix; with this exception the routes lead to the same
file (`routes_agree`). The directory of a base must have a path in UTF-8, as the script beside a
path is looked for by the text of the path.
-/
namespace ScriptTree

namespace Path

/-! ## Paths that are texts -/

/-- Whether a path is written by a text. -/
def IsText (p : Path) : Prop :=
  ∃ text, p = ofText text

namespace IsText

variable {p q : Path}

theorem ofText_toText (h : p.IsText) : ofText p.toText = p := by
  obtain ⟨text, rfl⟩ := h
  rw [toText, ofText, ofText, Utf8.decodeLossy_encode]

theorem names (h : p.IsText) : ∀ name ∈ p.names, ∃ text, name = Utf8.encode text := by
  obtain ⟨text, rfl⟩ := h
  intro name hn
  have mem : name ∈ (ofText text).parts := (List.mem_filter.1 hn).1
  rw [parts_ofText] at mem
  obtain ⟨piece, -, rfl⟩ := List.mem_map.1 mem
  exact ⟨piece, rfl⟩

theorem ofParts {parts : List (List UInt8)} (h : ∀ part ∈ parts, ∃ text, part = Utf8.encode text) :
    (ofParts parts).IsText := by
  have code : Utf8.encode ['/'] = [slash] := by decide
  have closed {octets : List UInt8} {text : List Char} (e : octets = Utf8.encode text) :
      octets ++ [slash] = Utf8.encode (text ++ ['/']) := by
    rw [Utf8.encode_append, code, e]
  obtain ⟨text, e⟩ : ∃ text, parts.flatMap (slash :: ·) = Utf8.encode text := by
    induction parts with
    | nil => exact ⟨[], rfl⟩
    | cons part parts ih =>
      obtain ⟨rest, hrest⟩ := ih fun part hp => h part (List.mem_cons_of_mem _ hp)
      obtain ⟨text, rfl⟩ := h part List.mem_cons_self
      refine ⟨['/'] ++ text ++ rest, ?_⟩
      rw [List.flatMap_cons, hrest, Utf8.encode_append, Utf8.encode_append, code]
      rfl
  unfold Path.ofParts
  dsimp only
  split
  · exact ⟨_, congrArg Path.mk (closed e)⟩
  · exact ⟨text, congrArg Path.mk e⟩

theorem join (h : p.IsText) (h' : q.IsText) : (p.join q).IsText := by
  obtain ⟨text, rfl⟩ := h
  obtain ⟨other, rfl⟩ := h'
  have code : Utf8.encode ['/'] = [slash] := by decide
  unfold Path.join
  split
  · exact ⟨other, rfl⟩
  · split
    · exact ⟨text ++ other, congrArg Path.mk (Utf8.encode_append _ _).symm⟩
    · refine ⟨text ++ ['/'] ++ other, congrArg Path.mk ?_⟩
      rw [Utf8.encode_append, Utf8.encode_append, code, List.append_assoc]
      rfl

/-- The script beside a path, by its octets. -/
theorem ofText_withScriptSuffix (h : p.IsText) (plain : scriptSuffix.isSuffixOf p.toText = false) :
    ofText (withScriptSuffix p.toText) = p.extend (Utf8.encode scriptSuffix) := by
  rw [withScriptSuffix, plain, if_neg Bool.false_ne_true, ofText, Utf8.encode_append]
  exact congrArg (extend · (Utf8.encode scriptSuffix)) h.ofText_toText

end IsText

end Path

theorem Disk.isFile_eq_false_of_isDirectory {d : Disk} {p : Path} (h : d.isDirectory p) :
    d.isFile p = false := by
  unfold isDirectory at h
  split at h
  · next entries e => rw [isFile, e]
  · cases h

namespace BareName

variable (n : BareName) {directory : Path}

/-! ## A name in a directory -/

theorem inFileName_bare {c : Char} (h : isBareChar c) : Percent.inFileName c = false := by
  obtain ⟨path, -, marks⟩ := isBareChar_plain h
  have slash : c ≠ '/' := fun e => marks (by rw [e]; decide)
  have percent : c ≠ '%' := fun e => marks (by rw [e]; decide)
  have backslash : c ≠ '\\' := fun e => marks (by rw [e]; decide)
  simp [Percent.inFileName, path, slash, percent, backslash]

theorem head?_text : n.text.head? ≠ some '/' := by
  obtain ⟨c, rest, hc, bare⟩ := n.exists_cons
  rw [hc, List.head?_cons]
  rintro ⟨⟩
  exact absurd bare (by decide)

/-- The URL of a name in a directory, taken as a path, has its segments. -/
theorem fileNames_join (absolute : directory.isAbsolute)
    (solid : ∀ segment ∈ n.segments, segment ≠ []) :
    Url.fileNames (directory.join n.path) = Url.fileNames directory ++ n.segments := by
  have names : n.path.names = n.segmentParts := by
    rw [n.names_path]
    refine List.filter_eq_self.2 fun part hp => ?_
    obtain ⟨segment, hs, rfl⟩ := List.mem_map.1 hp
    have dot : segment ≠ ['.'] := (n.plain segment hs).2.1
    have code : Utf8.encode ['.'] = [Path.dot] := by decide
    have full : Path.isVacant (Utf8.encode segment) = false := by
      rw [Path.isVacant, Bool.or_eq_false_iff, beq_eq_false_iff_ne, beq_eq_false_iff_ne]
      exact ⟨fun e => solid segment hs (Utf8.encode_injective e),
        fun e => dot (Utf8.encode_injective (e.trans code.symm))⟩
    rw [full]
    rfl
  rw [Url.fileNames, Path.names_join n.isAbsolute_path absolute, names, List.map_append,
    segmentParts, List.map_map]
  refine congrArg _ ((List.map_congr_left fun segment hs => ?_).trans (List.map_id _))
  exact Percent.encode_eq_self fun c hc =>
    ⟨isBareChar_ascii ((n.plain segment hs).1 c hc), inFileName_bare ((n.plain segment hs).1 c hc)⟩

theorem ofFilePath?_join (absolute : directory.isAbsolute)
    (solid : ∀ segment ∈ n.segments, segment ≠ []) :
    Url.ofFilePath? (directory.join n.path) =
      some (.ofSegments (Url.fileNames directory ++ n.segments)) := by
  have nonempty : (directory.join n.path).names ≠ [] := fun e => by
    have names := n.fileNames_join absolute solid
    rw [Url.fileNames, e] at names
    simp [segments] at names
  rw [Url.ofFilePath?_eq (Path.isAbsolute_join n.isAbsolute_path absolute), if_neg nonempty,
    n.fileNames_join absolute solid]

end BareName

/-- What ends in the octets of the suffix is a script, whatever stands before them. -/
theorem hasModuleSuffix_script (part : List UInt8) :
    hasModuleSuffix (Utf8.decodeLossy (part ++ Utf8.encode scriptSuffix)) = true := by
  have ascii : Path.dot.toNat < 0x80 := by decide
  have code : Utf8.encode scriptSuffix = Path.dot :: Utf8.encode "js".toList := by decide
  have char : Char.ofNat Path.dot.toNat :: "js".toList = scriptSuffix := by decide
  rw [code, Utf8.decodeLossy_append ascii, Utf8.decodeLossy_encode, char, hasModuleSuffix,
    Bool.or_eq_true]
  exact .inl (List.isSuffixOf_iff_suffix.2 (List.suffix_append _ _))

section

open ScriptTree.Module

variable {d : Disk} {context directory : Path} {base : Url} (n : BareName)
  (absolute : directory.isAbsolute)
include absolute

/-- From its URL a name that gets a suffix finds the script there. -/
theorem load?_of_name_script (plain : hasModuleSuffix n.text = false)
    (script : d.isFile ((directory.join n.path).extend (Utf8.encode scriptSuffix))) :
    load? d context (.ofSegments (Url.fileNames directory ++ n.segments)) base =
      Url.ofFilePath? ((directory.join n.path).extend (Utf8.encode scriptSuffix)) := by
  have noSlash : Path.slash ∉ Utf8.encode scriptSuffix := by decide
  have alike := (n.alike absolute).extend noSlash
  have suffixed : withSuffix (n.pathIn directory) =
      (n.pathIn directory).extend (Utf8.encode scriptSuffix) := by
    rw [withSuffix, n.hasModuleSuffix_pathIn, plain, if_neg Bool.false_ne_true]
  rw [load?_of_script (n.localPath_eq directory), suffixed]
  · exact (Url.ofFilePath?_congr alike.left alike.right alike.names).symm
  · rw [suffixed, ← Disk.isFile_congr d alike]
    exact script

omit absolute in
/-- The URL of a script finds the script. -/
theorem load?_of_script_url {p : Path} {url : Url} (h : p.isAbsolute)
    (file : d.isFile (p.extend (Utf8.encode scriptSuffix)))
    (hurl : Url.ofFilePath? (p.extend (Utf8.encode scriptSuffix)) = some url) :
    load? d context url base = some url := by
  have extended := Path.isAbsolute_extend (Utf8.encode scriptSuffix) h
  have noSlash : Path.slash ∉ Utf8.encode scriptSuffix := by decide
  have last := Path.last_extend (p := p) noSlash
  have alike := Path.alike_rewritten extended (Disk.isVacant_last_of_isFile extended file)
    (last ▸ endsInDrive_script p.last)
  obtain ⟨again, hagain, -, here⟩ := fileUrl_of_isAbsolute extended
  obtain rfl := Option.some.inj (hurl.symm.trans hagain)
  have suffixed : hasModuleSuffix (p.extend (Utf8.encode scriptSuffix)).rewritten.toText := by
    rw [Path.hasModuleSuffix_toText alike.right, ← alike.last, last]
    exact hasModuleSuffix_script p.last
  have same : withSuffix (p.extend (Utf8.encode scriptSuffix)).rewritten =
      (p.extend (Utf8.encode scriptSuffix)).rewritten := if_pos suffixed
  rw [load?_of_script here, same, Url.ofFilePath?_rewritten extended, hurl]
  rw [same, ← Disk.isFile_congr d alike]
  exact file

end

open ScriptTree.Module in
/-- The two ways of locating a bare name without empty segments, below the base of a directory whose
path is in UTF-8. Both always give a location. It is the same one, unless the name is a directory
with a script beside it; then the name taken as a path finds this script, and so does the name
joined to the URL of the base, unless it is the name of data. So with this exception both find the
same file, or none. -/
theorem routes_agree {d : Disk} {kind : BaseKind} {p : Path} {base : SearchBase}
    (made : SearchBase.ofDirectory d kind p = .ok base) (utf8 : (d.absolute p).IsText)
    (n : BareName) (solid : ∀ segment ∈ n.segments, segment ≠ []) (context : Path) :
    ∃ directory url other, base.directory? = some directory ∧ base.url.join n.text = .ok url ∧
      Resolver.pathLocation? d base n.text = some other ∧
      let joined := directory.join n.path
      let script := Path.ofText (withScriptSuffix joined.toText)
      let contested := d.isDirectory joined && d.isFile script
      (contested = false → other = url) ∧
        (contested = true → load? d context other base.url = Url.ofFilePath? script) ∧
        (contested = false ∨ dataSuffix.isSuffixOf n.text = false →
          load? d context url base.url = load? d context other base.url) := by
  obtain ⟨directory, located, absolute, names⟩ := SearchBase.directory?_of_ofDirectory made
  have directoryText : directory.IsText := by
    obtain rfl := Option.some.inj ((SearchBase.directory?_eq made).symm.trans located)
    refine Path.IsText.ofParts fun part hp => ?_
    rcases List.mem_append.1 hp with hp | hp
    · exact utf8.names part hp
    · exact ⟨[], List.mem_singleton.1 hp⟩
  have fileNames : Url.fileNames (d.absolute p) = Url.fileNames directory := by
    rw [Url.fileNames, Url.fileNames, names]
  have url : base.url.join n.text = .ok (.ofSegments (Url.fileNames directory ++ n.segments)) := by
    obtain ⟨-, rfl⟩ := SearchBase.of_ofDirectory made
    rw [← fileNames]
    exact n.join_eq (d.absolute p)
  let joined := directory.join n.path
  let script := Path.ofText (withScriptSuffix joined.toText)
  have joinedText : joined.IsText := directoryText.join ⟨n.text, rfl⟩
  have joinedAbsolute : joined.isAbsolute := Path.isAbsolute_join n.isAbsolute_path absolute
  have route : Resolver.pathLocation? d base n.text =
      Url.ofFilePath? (if d.isDirectory joined && d.isFile script then script else joined) :=
    Resolver.pathLocation?_of_directory located n.head?_text
  cases contested : d.isDirectory joined && d.isFile script with
  | false =>
    rw [contested, if_neg Bool.false_ne_true, n.ofFilePath?_join absolute solid] at route
    exact ⟨directory, _, _, located, url, route, by simp [joined, script, contested]⟩
  | true =>
    rw [contested, if_pos rfl] at route
    obtain ⟨isDirectory, isFile⟩ := Bool.and_eq_true_iff.1 contested
    -- A directory is no script itself.
    have plain : scriptSuffix.isSuffixOf joined.toText = false := by
      refine Bool.eq_false_iff.2 fun suffixed => ?_
      have same : script = joined :=
        (congrArg Path.ofText (if_pos suffixed)).trans joinedText.ofText_toText
      rw [same, Disk.isFile_eq_false_of_isDirectory isDirectory] at isFile
      cases isFile
    have extended : script = joined.extend (Utf8.encode scriptSuffix) :=
      joinedText.ofText_withScriptSuffix plain
    rw [extended] at route isFile
    obtain ⟨other, hother, -⟩ :=
      fileUrl_of_isAbsolute (Path.isAbsolute_extend (Utf8.encode scriptSuffix) joinedAbsolute)
    have found : load? d context other base.url = some other :=
      load?_of_script_url joinedAbsolute isFile hother
    refine ⟨directory, _, other, located, url, route.trans hother,
      fun free => absurd (free.symm.trans contested) Bool.false_ne_true,
      fun _ => (found.trans hother.symm).trans (congrArg _ extended.symm), fun code => ?_⟩
    have noData : dataSuffix.isSuffixOf n.text = false :=
      code.resolve_left fun free => Bool.false_ne_true (free.symm.trans contested)
    have noScript : scriptSuffix.isSuffixOf n.text = false := by
      rw [n.isSuffixOf_text slash_notMem_scriptSuffix, ← plain,
        Path.isSuffixOf_toText joinedAbsolute slash_notMem_scriptSuffix,
        Path.last_join n.isAbsolute_path absolute, n.last_path, Utf8.decodeLossy_encode]
    rw [found, ← hother]
    exact load?_of_name_script n absolute (Bool.or_eq_false_iff.2 ⟨noScript, noData⟩) isFile

/-- A library with a package of a given name and a script beside it. -/
def contestedDisk (name : String) : Disk :=
  let octets (text : String) := Utf8.encode text.toList
  let package : Entry := .directory [(octets "index.js", .file (.ok []))]
  let library : Entry :=
    .directory [(octets name, package), (octets (name ++ ".js"), .file (.ok []))]
  ⟨.directory [(octets "lib", library)], ⟨[Path.slash]⟩⟩

open ScriptTree.Module in
/-- By both routes a script wins over the package beside it. -/
theorem script_wins_on_both_routes :
    let d := contestedDisk "pkg"
    let url := Url.ofSegments ["lib".toList, "pkg".toList]
    let script := Url.ofSegments ["lib".toList, "pkg.js".toList]
    (SearchBase.ofDirectory d .privileged (.ofText "lib".toList) = .ok libraryBase ∧
      (d.absolute (.ofText "lib".toList)).IsText ∧
      ∀ segment ∈ packageName.segments, segment ≠ []) ∧
    libraryBase.url.join packageName.text = .ok url ∧
      Resolver.pathLocation? d libraryBase packageName.text = some script ∧
      load? d appDirectory url libraryBase.url = some script ∧
      load? d appDirectory script libraryBase.url = some script := by
  intro d url script
  have made : SearchBase.ofDirectory d .privileged (.ofText "lib".toList) = .ok libraryBase := rfl
  have utf8 : (d.absolute (.ofText "lib".toList)).IsText := ⟨"/lib".toList, by decide⟩
  have solid : ∀ segment ∈ packageName.segments, segment ≠ [] := by decide
  have place : libraryBase.directory? = some (.ofText "/lib/".toList) := by decide +kernel
  have joined : libraryBase.url.join packageName.text = .ok url :=
    eq_ok_of_toOption (by decide +kernel)
  have there : Resolver.pathLocation? d libraryBase packageName.text = some script := by
    decide +kernel
  obtain ⟨directory, _, _, located, joined', there', -, wins, agree⟩ :=
    routes_agree made utf8 packageName solid appDirectory
  cases place.symm.trans located
  cases joined.symm.trans joined'
  cases there.symm.trans there'
  have found : load? d appDirectory script libraryBase.url = some script :=
    (wins (by decide +kernel)).trans (by decide +kernel)
  have same := agree (.inr (by decide))
  exact ⟨⟨made, utf8, solid⟩, joined, there, same.trans found, found⟩

/-- Below the base of a directory, the routes to a name lead to different files. -/
def RoutesPart (d : Disk) (p : Path) (name : List Char) : Prop :=
  ∃ base url other found script, SearchBase.ofDirectory d .privileged p = .ok base ∧
    base.url.join name = .ok url ∧ Resolver.pathLocation? d base name = some other ∧
    Module.load? d Module.appDirectory url base.url = some found ∧
    Module.load? d Module.appDirectory other base.url = some script ∧ found ≠ script

/-- Two libraries: one in a directory whose name is no text, with a package, and one in a directory
with the name that is shown for it, with a script. -/
def lossyDisk : Disk :=
  let octets (text : String) := Utf8.encode text.toList
  let package : Entry := .directory [(octets "index.js", .file (.ok []))]
  ⟨.directory [([0xFF], .directory [(octets "pkg", package)]),
    (octets "\uFFFD", .directory [(octets "pkg.js", .file (.ok []))])], ⟨[Path.slash]⟩⟩

/-- The name of data leads to the package from the URL, and to the script beside it as a path, so a
space in it changes what is found. A directory whose name is no text is taken for another one when a
name in it is taken as a path. -/
theorem routes_part :
    RoutesPart (contestedDisk "xy.json") (.ofText "/lib".toList)
      "xy.json".toList ∧
    (let found (name : String) :=
      ((Resolver.mk [Module.libraryBase] [] Module.appDirectory).resolve
        (contestedDisk name) name.toList).map (·.path)
     found "xy.json" = some (.ofText "/lib/xy.json/index.js".toList) ∧
      found "x y.json" = some (.ofText "/lib/x y.json.js".toList)) ∧
    RoutesPart lossyDisk ⟨[Path.slash, 0xFF]⟩ "pkg".toList := by
  refine ⟨?_, by decide +kernel, ?_⟩
  · exact ⟨Module.libraryBase, .ofSegments ["lib".toList, "xy.json".toList],
      .ofSegments ["lib".toList, "xy.json.js".toList],
      .ofSegments ["lib".toList, "xy.json".toList, "index.js".toList],
      .ofSegments ["lib".toList, "xy.json.js".toList], rfl, eq_ok_of_toOption (by decide +kernel),
      by decide +kernel, by decide +kernel, by decide +kernel, by decide +kernel⟩
  · exact ⟨⟨.ofSegments ["%FF".toList, []], .privileged⟩,
      .ofSegments ["%FF".toList, "pkg".toList], .ofSegments ["%EF%BF%BD".toList, "pkg.js".toList],
      .ofSegments ["%FF".toList, "pkg".toList, "index.js".toList],
      .ofSegments ["%EF%BF%BD".toList, "pkg.js".toList], rfl, eq_ok_of_toOption (by decide +kernel),
      by decide +kernel, by decide +kernel, by decide +kernel, by decide +kernel⟩

end ScriptTree
