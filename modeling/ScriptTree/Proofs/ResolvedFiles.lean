import ScriptTree.Proofs.Lookups

/-!
# The files of resolved modules

A resolver takes what a lookup has found below a base, with the path to which its URL leads. As that
is a file on the disk, the fields of a resolved module agree, and it can be loaded
(`resolved_module_is_file`).
-/
namespace ScriptTree

/-- A resolved module that is a file on the disk, with fields that agree: its URL and its path lead
to each other, it has the name that was asked for, and its base is one of those searched. -/
structure ResolvedModule.IsFileOf (d : Disk) (name : List Char) (bases : List SearchBase)
    (m : ResolvedModule) : Prop where
  file : d.isFile m.path = true
  url : Url.ofFilePath? m.path = some m.url
  bare : m.url.query = none ∧ m.url.fragment = none
  path : m.url.toFilePath? = some m.path
  id : m.id = name
  base : m.base ∈ bases

namespace Resolver

variable {r : Resolver} {d : Disk} {context : Path} {name : List Char} {base : SearchBase}
  {bases : List SearchBase} {m : ResolvedModule}

theorem isFileOf_of_resolveAt (h : resolveAt d context name base = some m) (hb : base ∈ bases) :
    m.IsFileOf d name bases := by
  unfold resolveAt at h
  obtain ⟨location, -, h⟩ := Option.bind_eq_some_iff.1 h
  obtain ⟨found, loaded, h⟩ := Option.bind_eq_some_iff.1 h
  obtain ⟨path, back, h⟩ := Option.bind_eq_some_iff.1 h
  obtain rfl := Option.some.inj h
  obtain ⟨written, file, there⟩ := Module.isFile_of_load? loaded
  obtain ⟨url, again, -⟩ := Module.rewritten_of_fileUrl file
  obtain rfl := Option.some.inj (back.symm.trans again)
  exact ⟨there, url, Module.bare_of_ofFilePath? url, again, rfl, hb⟩

theorem isFileOf_of_resolveIn (h : r.resolveIn d bases name = some m) :
    m.IsFileOf d name bases := by
  obtain ⟨base, hb, found⟩ := List.exists_of_findSome?_eq_some h
  exact isFileOf_of_resolveAt found hb

theorem isFileOf_of_resolve (h : r.resolve d name = some m) :
    m.IsFileOf d name (r.privileged ++ r.fallback) := by
  rcases Option.or_eq_some_iff.1 h with h | ⟨-, h⟩
  · have found := isFileOf_of_resolveIn h
    exact { found with base := List.mem_append_left _ found.base }
  · have found := isFileOf_of_resolveIn h
    exact { found with base := List.mem_append_right _ found.base }

end Resolver

/-- A module that is resolved, below the bases of the resolver or below any others, is a file that
is there, and its fields agree. It is loaded with the decoded text of that file, unless the file
cannot be opened; a name is not found if and only if it is not resolved. -/
theorem resolved_module_is_file (r : Resolver) (d : Disk) (name : List Char) :
    (∀ bases m, r.resolveIn d bases name = some m → m.IsFileOf d name bases) ∧
      (∀ m, r.resolve d name = some m →
        m.IsFileOf d name (r.privileged ++ r.fallback) ∧
          ∃ content, d.entry m.path = .ok (.file content) ∧
            r.load d name = match content with
              | .ok bytes => .ok (m, decodeSource bytes)
              | .error cause => .error (.unreadable m.path cause)) ∧
      ∀ missing, r.load d name = .error (.notFound missing) ↔
        r.resolve d name = none ∧ missing = name := by
  refine ⟨fun bases m => Resolver.isFileOf_of_resolveIn, fun m h => ?_, fun missing => ?_⟩
  · have found := Resolver.isFileOf_of_resolve h
    obtain ⟨content, file⟩ := Disk.isFile_iff.1 found.file
    refine ⟨found, content, file, ?_⟩
    have read := Disk.read_of_entry file
    unfold Resolver.load
    cases content <;> simp only [h, read]
  · unfold Resolver.load
    cases h : r.resolve d name with
    | none => exact ⟨fun e => ⟨rfl, by cases e; rfl⟩, fun e => by rw [e.2]⟩
    | some m =>
      refine iff_of_false (fun e => ?_) fun e => nomatch e.1
      dsimp only at e
      split at e <;> cases e

/-- A name with an escape and a query is the file of the name without them in the second base. -/
theorem escaped_name_is_file :
    let name := "x%20y.js?v=1".toList
    let base : SearchBase := ⟨.ofSegments ["app".toList, []], .fallback⟩
    let r : Resolver := ⟨[Module.libraryBase], [base], .ofText "/".toList⟩
    ∃ m, r.resolve Module.appDisk name = some m ∧ r.resolveIn Module.appDisk [base] name = some m ∧
      m.path = .ofText "/app/x y.js".toList ∧ m.base = base ∧
      m.IsFileOf Module.appDisk name [base] ∧ r.load Module.appDisk name = .ok (m, []) := by
  intro name base r
  let m : ResolvedModule :=
    ⟨name, .ofSegments ["app".toList, "x%20y.js".toList], .ofText "/app/x y.js".toList, base⟩
  have resolved : r.resolve Module.appDisk name = some m := by decide +kernel
  have resolvedIn : r.resolveIn Module.appDisk [base] name = some m := by decide +kernel
  obtain ⟨below, here, -⟩ := resolved_module_is_file r Module.appDisk name
  obtain ⟨-, content, file, loaded⟩ := here m resolved
  have empty : Module.appDisk.read m.path = .ok [] := eq_ok_of_toOption (by decide +kernel)
  obtain rfl := (Disk.read_of_entry file).symm.trans empty
  have text : decodeSource [] = [] := by decide +kernel
  dsimp only at loaded
  rw [text] at loaded
  exact ⟨m, resolved, resolvedIn, rfl, rfl, below [base] m resolvedIn, loaded⟩

end ScriptTree
