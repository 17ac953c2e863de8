import ScriptTree.Config.File
import ScriptTree.Proofs.Serialization
import ScriptTree.Proofs.TomlDocuments
import ScriptTree.Proofs.WrittenFiles

/-!
# Saved configurations

A configuration is saved in TOML, whatever the file is called, and read from there in the format of
its name. So it loads back from a file that is not called as one of YAML is (`saved_config_loads`):
the document is read as the tree it was written from, the tree describes the configuration, and its
bases, which are taken from the working directory, are those that could be read before. In YAML the
first header would be a list, and a list describes no configuration.
-/
namespace ScriptTree

/-! ## Settings -/

namespace Toml

theorem settingsOf_map_string (texts : List (List Char)) :
    settingsOf (texts.map .string) = texts.map (.text false) := by
  induction texts with
  | nil => rfl
  | cons text texts ih => rw [List.map_cons, settingsOf, ih, toSetting, List.map_cons]

theorem asTexts_ofTexts (texts : List (List Char)) :
    (toSetting (ofTexts texts)).asTexts = some texts := by
  rw [ofTexts, toSetting, settingsOf_map_string]
  exact mapM_map_of_reads texts fun _ _ => rfl

end Toml

theorem CatchStyle.ofName?_name (style : CatchStyle) :
    CatchStyle.ofName? (String.ofList style.name.toList) = some style := by
  cases style <;> decide

/-- Settings of the search are read field by field. -/
theorem SearchSettings.ofSetting?_of_fields {format : ConfigFormat} {s : Setting}
    {first second third : Option Setting} {privileged fallback : List (List Char)}
    {context : Option Path}
    (fields : s.fields format ["privileged", "fallback", "context_dir"] =
      some [first, second, third])
    (hp : Setting.fieldOr [] Setting.asTexts first = some privileged)
    (hf : Setting.fieldOr [] Setting.asTexts second = some fallback)
    (hc : Setting.fieldOr none Setting.asPath third = some context) :
    SearchSettings.ofSetting? format s = some ⟨privileged, fallback, context⟩ := by
  rw [SearchSettings.ofSetting?, fields]
  simp only [Option.bind_eq_bind, Option.bind_some, hp, hf, hc]
  rfl

/-- A configuration is read part by part. -/
theorem Config.ofSetting?_of_fields {format : ConfigFormat} {s search tree : Setting}
    {settings : SearchSettings} {style : CatchStyle}
    (fields : s.fields format ["resolver", "ast"] = some [some search, some tree])
    (hs : SearchSettings.ofSetting? format search = some settings)
    (ht : CatchStyle.ofSetting? format tree = some style) :
    Config.ofSetting? format s = some ⟨settings, style⟩ := by
  rw [Config.ofSetting?, fields]
  simp only [Option.bind_eq_bind, Option.bind_some, Setting.fieldOr, hs, ht]
  rfl

/-- The tree of a configuration describes it. -/
theorem Config.ofSetting?_ofConfig {c : Config} {context : Option (List Char)}
    (path : c.search.context = context.map Path.ofText) :
    Config.ofSetting? .toml (Toml.ofConfig c context).toSetting = some c := by
  obtain ⟨⟨privileged, fallback, directory⟩, style⟩ := c
  cases path
  have texts (texts : List (List Char)) : Setting.fieldOr [] Setting.asTexts
      (some (Toml.ofTexts texts).toSetting) = some texts := Toml.asTexts_ofTexts texts
  have style' : CatchStyle.ofSetting? .toml (.table [("catch_handlers".toList,
      .text false style.name.toList)]) = some style := style.ofName?_name
  cases context with
  | none =>
    refine Config.ofSetting?_of_fields rfl ?_ style'
    exact SearchSettings.ofSetting?_of_fields rfl (texts privileged) (texts fallback) rfl
  | some text =>
    refine Config.ofSetting?_of_fields rfl ?_ style'
    exact SearchSettings.ofSetting?_of_fields rfl (texts privileged) (texts fallback) rfl

/-! ## The same text in YAML -/

namespace Yaml

theorem unifyBreaks_bracket (rest : List Char) :
    unifyBreaks ('[' :: rest) = '[' :: unifyBreaks rest := by
  rw [unifyBreaks] <;> simp

/-- The first line of a document that starts with a bracket is neither a directive nor a marker. -/
theorem document?_bracket {rest : List Char} {start : List Char} {lines : List (List Char)}
    (h : document? ('[' :: rest) = some (start, lines)) :
    start = [] ∧ ∃ first more, lines = ('[' :: first) :: more := by
  have cut : '[' ≠ '\n' := by decide
  obtain ⟨first, others, -, pieces⟩ := Text.pieces_cons_of_ne cut rest
  have speaks : isVacantLine ('[' :: first) = false := rfl
  have plain : isMarker '-' ('[' :: first) = false := rfl
  have plain' : isMarker '.' ('[' :: first) = false := rfl
  unfold document? at h
  rw [pieces, List.dropWhile_cons_of_neg (by simp [speaks])] at h
  dsimp only at h
  rw [List.dropWhile_cons_of_neg (by simp [speaks])] at h
  dsimp only at h
  rw [plain, if_neg Bool.false_ne_true] at h
  split at h
  · cases h
  · obtain ⟨read, found, h⟩ := Option.bind_eq_some_iff.1 h
    cases h
    rw [untilEnd?, plain, plain', if_neg Bool.false_ne_true, if_neg Bool.false_ne_true] at found
    obtain ⟨more, -, rfl⟩ := Option.map_eq_some_iff.1 found
    exact ⟨rfl, first, more, rfl⟩

/-- A node that starts with a bracket is read up to the other one, as a list. -/
theorem readNode_bracket {fuel : Nat} {rest : List Char} {s : Setting} {after : Cursor}
    (h : readNode 0 (fuel + 1) ⟨0, '[' :: rest⟩ = some (s, after)) : ∃ items, s = .list items := by
  have notItem : isItem ('[' :: rest) = false := rfl
  have notKey : key? ('[' :: rest) = none := by
    rw [key?, List.takeWhile_cons_of_pos (by decide)]
    rfl
  rw [readNode] at h
  simp only [notItem, notKey, Option.isSome_none, Bool.false_eq_true, if_false] at h
  rw [if_neg (by simp), readInline] at h
  · obtain ⟨⟨flow, behind⟩, read, h⟩ := Option.bind_eq_some_iff.1 h
    obtain ⟨next, -, h⟩ := Option.bind_eq_some_iff.1 h
    cases h
    rw [readFlow] at read
    obtain ⟨⟨items, tail⟩, -, read⟩ := Option.map_eq_some_iff.1 read
    cases read
    exact ⟨items, rfl⟩

theorem cursor_bracket (rest : List Char) : cursor ('[' :: rest) = ⟨0, '[' :: rest⟩ := by
  have body : ('[' :: rest).dropWhile (· == ' ') = '[' :: rest :=
    List.dropWhile_cons_of_neg (by decide)
  have line : ('[' :: rest).dropWhile isGap = '[' :: rest :=
    List.dropWhile_cons_of_neg (by decide)
  simp [cursor, next, body, line]

/-- A document that starts with a bracket is a list, if it is one at all. -/
theorem parse?_bracket {rest : List Char} {s : Setting} (h : parse? ('[' :: rest) = some s) :
    ∃ items, s = .list items := by
  have unmarked : ('[' :: rest).head? ≠ some '\uFEFF' := by simp
  unfold parse? at h
  rw [if_neg unmarked] at h
  dsimp only at h
  split at h
  · cases h
  · rw [unifyBreaks_bracket] at h
    obtain ⟨⟨start, lines⟩, document, h⟩ := Option.bind_eq_some_iff.1 h
    obtain ⟨rfl, first, more, rfl⟩ := document?_bracket document
    have body : ∃ rest, Text.join '\n' (('[' :: first) :: more) = '[' :: rest :=
      ⟨_, Text.join_eq_flatMap _ _ _⟩
    obtain ⟨rest, body⟩ := body
    have blank : isVacantLine [] = true := rfl
    dsimp only at h
    rw [blank, if_pos rfl, body, cursor_bracket] at h
    obtain ⟨⟨setting, after⟩, node, h⟩ := Option.bind_eq_some_iff.1 h
    dsimp only at h
    split at h
    · cases h
      exact readNode_bracket node
    · cases h

end Yaml

/-- What is saved is no configuration in YAML: lists describe none. -/
theorem Config.ofText?_yaml {c : Config} {written : List Char}
    (h : Toml.renderConfig? c = some written) : Config.ofText? .yaml written = none := by
  obtain ⟨line, -, rfl⟩ := Option.map_eq_some_iff.1 h
  rw [ofText?, ConfigFormat.parse?]
  cases read : Yaml.parse? _ with
  | none => rfl
  | some s =>
    obtain ⟨items, rfl⟩ := Yaml.parse?_bracket read
    rfl

/-- What is saved is the configuration in TOML. -/
theorem Config.ofText?_toml {c : Config} {written : List Char}
    (h : Toml.renderConfig? c = some written) : Config.ofText? .toml written = some c := by
  obtain ⟨context, path, parsed⟩ := Toml.parse?_renderConfig? h
  rw [ofText?, ConfigFormat.parse?, parsed]
  exact ofSetting?_ofConfig path

/-! ## Bases -/

namespace SearchSettings

/-- Bases are taken from the working directory; what else is on the disk does not matter. -/
theorem bases_congr {d d' : Disk} (same : d'.workingDirectory = d.workingDirectory)
    (s : SearchSettings) : s.bases d' = s.bases d := by
  have own (kind : BaseKind) (location : List Char) :
      SearchBase.ofLocation d' kind location = SearchBase.ofLocation d kind location := by
    rw [SearchBase.ofLocation, SearchBase.ofLocation, SearchBase.ofDirectory,
      SearchBase.ofDirectory, Disk.absolute, Disk.absolute, same]
  simp only [bases, parseBases, own]

end SearchSettings

/-- A configuration whose bases can be read gets warnings at worst. -/
theorem Config.warnings_eq_ok {c : Config} {d : Disk}
    {bases : List SearchBase × List SearchBase} (h : c.search.bases d = .ok bases) :
    ∃ warnings, c.warnings d = .ok warnings := by
  rw [Config.warnings, h]
  exact ⟨_, rfl⟩

/-! ## Saving and loading -/

namespace Config

/-- Whether the path of the context directory, if there is one, is a text. -/
def IsSpeakable (c : Config) : Prop :=
  ∀ path, c.search.context = some path → ∃ text, path = .ofText text

theorem renderConfig?_isSome {c : Config} :
    (Toml.renderConfig? c).isSome ↔ c.IsSpeakable := by
  rw [Toml.renderConfig?, Option.isSome_map, IsSpeakable]
  cases c.search.context with
  | none => simp [Toml.renderContext?]
  | some path =>
    rw [Toml.renderContext?, Option.isSome_map, Option.isSome_iff_exists]
    constructor
    · rintro ⟨text, decoded⟩ path ⟨⟩
      exact ⟨text, congrArg Path.mk (Utf8.decode?_eq_some.1 decoded)⟩
    · intro texts
      obtain ⟨text, rfl⟩ := texts path rfl
      exact ⟨text, Utf8.decode?_eq_some.2 rfl⟩

variable {c : Config} {d : Disk} {p : Path} {bases : List SearchBase × List SearchBase}

/-- What is loaded from a file with a text in it. -/
theorem loadAs_of_read {written : List Char} (read : d.read p = .ok (Utf8.encode written))
    (format : ConfigFormat) : loadAs d format p =
      match ofText? format written with
      | none => .error (.malformed format p)
      | some c => (c.warnings d).map fun _ => c := by
  have decoded : Utf8.decode? (Utf8.encode written) = some written := Utf8.decode?_eq_some.2 rfl
  simp only [loadAs, read, Except.mapError, bind, Except.bind, decoded]
  cases ofText? format written with
  | none => rfl
  | some c =>
    show (c.warnings d >>= fun _ => pure c) = (c.warnings d).map fun _ => c
    cases c.warnings d <;> rfl

/-- A configuration is saved in TOML and loaded in the format of the file's name. If its bases can
be read, its context directory is a text, and the file can be written, it is saved. From a file that
is not called as one of YAML it then loads back, equal to what it was, and so it does from any file
that is read as TOML. From a file that is called as one of YAML it does not: what was saved is
malformed there. Without a text for its context directory it is not saved at all. -/
theorem saved_config_loads (located : c.search.bases d = .ok bases)
    (writable : ∃ content d', d.write p content = .ok d') :
    (c.IsSpeakable → ∃ d', c.save d p = .ok d' ∧ loadAs d' .toml p = .ok c ∧
      load d' p = match ConfigFormat.ofPath p with
        | .toml => .ok c
        | .yaml => .error (.malformed .yaml p)) ∧
      (¬c.IsSpeakable → c.save d p = .error .unspeakable) := by
  constructor
  · intro speakable
    obtain ⟨written, rendered⟩ := Option.isSome_iff_exists.1 (renderConfig?_isSome.2 speakable)
    obtain ⟨content, before, write⟩ := writable
    obtain ⟨d', write⟩ := Disk.write_of_write write (Utf8.encode written)
    obtain ⟨read, same⟩ := Disk.read_of_write write
    have saved : c.save d p = .ok d' := by
      rw [save, rendered]
      exact mapError_eq_ok.2 write
    have toml : loadAs d' .toml p = .ok c := by
      have bases := (SearchSettings.bases_congr same c.search).trans located
      obtain ⟨warnings, warned⟩ := warnings_eq_ok bases
      rw [loadAs_of_read read, ofText?_toml rendered]
      dsimp only
      rw [warned]
      rfl
    refine ⟨d', saved, toml, ?_⟩
    rw [load]
    cases ConfigFormat.ofPath p with
    | toml => exact toml
    | yaml => rw [loadAs_of_read read, ofText?_yaml rendered]
  · intro unspeakable
    rw [save, Option.not_isSome_iff_eq_none.1 fun some => unspeakable (renderConfig?_isSome.1 some)]
    rfl

/-- A configuration with bases of several kinds and texts in quotes. -/
def quotedConfig : Config :=
  ⟨⟨["it's \"here\"".toList, "/lib".toList], ["a\nb".toList], some (.ofText "/app".toList)⟩, .list⟩

theorem quotedConfig_loads :
    let p : Path := .ofText "/bridge.conf".toList
    (∃ bases, quotedConfig.search.bases .empty = .ok bases) ∧
      (∃ content d', Disk.empty.write p content = .ok d') ∧
      ∃ d', quotedConfig.save .empty p = .ok d' ∧ load d' p = .ok quotedConfig := by
  intro p
  obtain ⟨bases, located⟩ : ∃ bases, quotedConfig.search.bases .empty = .ok bases := ⟨_, rfl⟩
  have writable : ∃ content d', Disk.empty.write p content = .ok d' := ⟨[], _, rfl⟩
  have speakable : quotedConfig.IsSpeakable := by
    rintro path ⟨⟩
    exact ⟨_, rfl⟩
  have toml : ConfigFormat.ofPath p = .toml := by decide +kernel
  obtain ⟨d', saved, -, loaded⟩ := (saved_config_loads located writable).1 speakable
  rw [toml] at loaded
  exact ⟨⟨bases, located⟩, writable, d', saved, loaded⟩

/-- The empty configuration, saved under a name of YAML, does not load back. -/
theorem default_lost_in_yaml :
    let p : Path := .ofText "/bridge.yaml".toList
    default.search.bases .empty = .ok ([], []) ∧
      ∃ d', default.save .empty p = .ok d' ∧ load d' p = .error (.malformed .yaml p) := by
  intro p
  obtain ⟨written, rendered⟩ : ∃ written, Toml.renderConfig? default = some written := ⟨_, rfl⟩
  obtain ⟨d', write⟩ : ∃ d', Disk.empty.write p (Utf8.encode written) = .ok d' := ⟨_, rfl⟩
  have saved : default.save .empty p = .ok d' := by
    rw [save, rendered]
    exact mapError_eq_ok.2 write
  have yaml : ConfigFormat.ofPath p = .yaml := by decide +kernel
  refine ⟨rfl, d', saved, ?_⟩
  rw [load, yaml, loadAs_of_read (Disk.read_of_write write).1, ofText?_yaml rendered]

end Config

end ScriptTree
