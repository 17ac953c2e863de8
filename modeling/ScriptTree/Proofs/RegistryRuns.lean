import Mathlib.Data.List.DropRight
import Mathlib.Data.List.Nodup
import ScriptTree.Proofs.Registry

/-!
# Whole runs of the comment registry

A registry can be called in any order, with any identities. What it answers depends on what has been
asked since it was last cleared: the first recording of each identity and the identities whose
comment has been handed out determine all its entries (`Run.logged`). The registry can also be kept
in three columns, comments, marks and a map of places, which are updated one by one and read by
place; no place is ever outside its column (`CommentColumns.run_agrees`).
-/
namespace ScriptTree

namespace CommentRegistry

/-- A call of a registry. -/
inductive Call where
  | record (id : Nat) (comment : Comment)
  | attach (id : Nat)
  | unattached (start : Option Nat)
  | clear
  deriving DecidableEq, Repr

/-- What a call gives. -/
inductive Answer where
  | place (index : Nat)
  | handed (comment : Option Comment)
  | split (leading trailing : List Comment)
  | done
  deriving DecidableEq, Repr

/-- Performs a call: its answer, and the registry after it. -/
def perform (r : CommentRegistry) : Call → Answer × CommentRegistry
  | .record id comment => (.place (r.record id comment).1, (r.record id comment).2)
  | .attach id => (.handed (r.attach id).1, (r.attach id).2)
  | .unattached start => (.split (r.unattached start).1 (r.unattached start).2, r)
  | .clear => (.done, .empty)

/-- The calls so far with their answers, in order. -/
abbrev History := List (Call × Answer)

/-- A registry in use, and its history. -/
structure Run where
  past : History
  registry : CommentRegistry
  deriving DecidableEq, Repr

/-- Performs a call and notes it. -/
def Run.step (run : Run) (call : Call) : Run :=
  ⟨run.past ++ [(call, (run.registry.perform call).1)], (run.registry.perform call).2⟩

/-- Performs calls on a new registry. -/
def Run.of (calls : List Call) : Run :=
  calls.foldl Run.step ⟨[], .empty⟩

theorem Run.of_concat (calls : List Call) (call : Call) :
    Run.of (calls ++ [call]) = (Run.of calls).step call := by
  rw [Run.of, List.foldl_append]
  rfl

end CommentRegistry

open CommentRegistry (Call Answer History Run)

/-- A registry as three columns: the comments, whether each has been taken, and the place of each
identity. -/
structure CommentColumns where
  comments : List Comment
  seen : List Bool
  places : Std.HashMap Nat Nat

namespace CommentColumns

/-- The columns of a new registry. -/
def empty : CommentColumns := ⟨[], [], ∅⟩

/-- Records a comment at the end of both lists, unless its identity has a place. -/
def record (s : CommentColumns) (id : Nat) (comment : Comment) : Nat × CommentColumns :=
  match s.places[id]? with
  | some index => (index, s)
  | none => (s.comments.length,
      ⟨s.comments ++ [comment], s.seen ++ [false], s.places.insert id s.comments.length⟩)

/-- Hands out the comment at the place of an identity; there is no result if the place is outside a
column. -/
def attach (s : CommentColumns) (id : Nat) : Option (Option Comment × CommentColumns) :=
  match s.places[id]? with
  | none => some (none, s)
  | some index => do
    let seen ← s.seen[index]?
    let comment ← s.comments[index]?
    if seen || !comment.isDoc then some (none, s)
    else some (some comment, { s with seen := s.seen.set index true })

/-- The documentation comments without a mark. -/
def free (s : CommentColumns) : List Comment :=
  ((s.comments.zip s.seen).filter fun (comment, seen) => comment.isDoc && !seen).map (·.1)

/-- Performs a call; there is no result if it reads outside a column. -/
def perform (s : CommentColumns) : Call → Option (Answer × CommentColumns)
  | .record id comment => some (.place (s.record id comment).1, (s.record id comment).2)
  | .attach id => (s.attach id).map fun (comment, s) => (.handed comment, s)
  | .unattached start =>
    let parts := s.free.partition (CommentRegistry.leads start)
    some (.split parts.1 parts.2, s)
  | .clear => some (.done, empty)

/-- Performs a call and notes it. -/
def step (run : History × CommentColumns) (call : Call) : Option (History × CommentColumns) :=
  (run.2.perform call).map fun (answer, s) => (run.1 ++ [(call, answer)], s)

/-- Performs calls on new columns. -/
def run (calls : List Call) : Option (History × CommentColumns) :=
  calls.foldlM step ([], empty)

/-- The columns have one size, and every identity has a place of its own in them. -/
structure Sound (s : CommentColumns) : Prop where
  seen_length : s.seen.length = s.comments.length
  places_size : s.places.size = s.comments.length
  inside : ∀ id index : Nat, s.places[id]? = some index → index < s.comments.length
  apart : ∀ id id' index : Nat, s.places[id]? = some index → s.places[id']? = some index → id = id'

end CommentColumns

/-! ## Places -/

namespace CommentRegistry

variable {r : CommentRegistry}

theorem index?_eq_none {id : Nat} : r.index? id = none ↔ id ∉ r.ids := by
  simp [index?, ids, List.findIdx?_eq_none_iff]

theorem ids_of_index? {id index : Nat} (h : r.index? id = some index) :
    r.ids[index]? = some id := by
  obtain ⟨hi, hid, -⟩ := List.findIdx?_eq_some_iff_getElem.1 h
  rw [ids, List.getElem?_map, List.getElem?_eq_getElem hi, Option.map_some]
  exact congrArg some (by simpa using hid)

theorem find?_eq_index? (r : CommentRegistry) (id : Nat) :
    r.find? id = (r.index? id).bind (r.entries[·]?) :=
  List.find?_eq_bind_findIdx?_getElem?

/-- A new entry has the last place. -/
theorem index?_append (r : CommentRegistry) {id : Nat} (new : id ∉ r.ids) (comment : Comment)
    (id' : Nat) : (CommentRegistry.mk (r.entries ++ [⟨id, comment, false⟩])).index? id' =
      if id = id' then some r.size else r.index? id' := by
  rw [index?, List.findIdx?_append, ← index?]
  by_cases h : id = id'
  · subst h
    rw [if_pos rfl, index?_eq_none.2 new]
    simp [List.findIdx?_cons, size]
  · rw [if_neg h]
    simp [List.findIdx?_cons, h]

/-- A registry changes only when it hands out a comment, and then by a mark. -/
theorem attach_leaves (r : CommentRegistry) (id : Nat) :
    (r.attach id).2 = if (r.attach id).1.isSome then r.mark id else r := by
  rw [attach]
  cases r.find? id with
  | none => rfl
  | some e =>
    dsimp only
    split <;> rfl

/-- A mark leaves all places as they are. -/
theorem index?_mark (r : CommentRegistry) (id id' : Nat) :
    (r.mark id).index? id' = r.index? id' := by
  have ids := r.mark_map (f := (·.id)) (fun _ => rfl) id
  have entries (r : CommentRegistry) :
      r.index? id' = (r.entries.map (·.id)).findIdx? (· == id') := by
    rw [List.findIdx?_map]
    rfl
  rw [entries, ids, ← entries]

/-- A mark is put at the place of its identity. -/
theorem seen_mark (distinct : r.ids.Nodup) {id index : Nat} (h : r.index? id = some index) :
    (r.mark id).entries.map (·.attached) = (r.entries.map (·.attached)).set index true := by
  have place := ids_of_index? h
  refine List.ext_getElem? fun i => ?_
  rw [mark, List.map_map, List.getElem?_map, List.getElem?_set, List.length_map]
  cases hi : r.entries[i]? with
  | none =>
    have : r.entries.length ≤ i := List.getElem?_eq_none_iff.1 hi
    rw [Option.map_none, List.getElem?_map, hi]
    split <;> first | rfl | (rw [if_neg (by omega)])
  | some e =>
    have inside : i < r.entries.length := (List.getElem?_eq_some_iff.1 hi).1
    have hid : r.ids[i]? = some e.id := by rw [ids, List.getElem?_map, hi, Option.map_some]
    by_cases same : index = i
    · subst same
      have : e.id = id := by simpa [hid] using place
      simp [this, inside]
    · have other : e.id ≠ id := by
        intro he
        have at_both : r.ids[i]? = r.ids[index]? := by rw [hid, place, he]
        exact same ((List.getElem?_inj (by simpa [ids] using inside) distinct).1 at_both).symm
      simp [same, other, hi]

end CommentRegistry

/-! ## Columns and entries -/

namespace CommentColumns

/-- The columns and the entries of one registry. -/
structure Agrees (s : CommentColumns) (r : CommentRegistry) : Prop where
  comments : s.comments = r.all
  seen : s.seen = r.entries.map (·.attached)
  places : ∀ id : Nat, s.places[id]? = r.index? id
  places_size : s.places.size = r.size

theorem agrees_empty : Agrees empty .empty where
  comments := rfl
  seen := rfl
  places _ := Std.HashMap.getElem?_empty
  places_size := Std.HashMap.size_empty

namespace Agrees

variable {s : CommentColumns} {r : CommentRegistry}

theorem size_eq (h : Agrees s r) : s.comments.length = r.size := by
  rw [h.comments, CommentRegistry.all, List.length_map, CommentRegistry.size]

theorem sound (h : Agrees s r) : Sound s where
  seen_length := by rw [h.size_eq, h.seen, List.length_map, CommentRegistry.size]
  places_size := by rw [h.places_size, h.size_eq]
  inside id index hi := by
    rw [h.places] at hi
    rw [h.size_eq]
    exact (List.findIdx?_eq_some_iff_getElem.1 hi).1
  apart id id' index hi hi' := by
    rw [h.places] at hi hi'
    have := (CommentRegistry.ids_of_index? hi).symm.trans (CommentRegistry.ids_of_index? hi')
    exact Option.some.inj this

theorem record (h : Agrees s r) (id : Nat) (comment : Comment) :
    (s.record id comment).1 = (r.record id comment).1 ∧
      Agrees (s.record id comment).2 (r.record id comment).2 := by
  rw [CommentColumns.record, CommentRegistry.record, h.places]
  cases hi : r.index? id with
  | some index => exact ⟨rfl, h⟩
  | none =>
    have new : id ∉ r.ids := CommentRegistry.index?_eq_none.1 hi
    refine ⟨h.size_eq, ?_, ?_, fun id' => ?_, ?_⟩
    · rw [h.comments, CommentRegistry.all, CommentRegistry.all, List.map_append, List.map_singleton]
    · rw [h.seen, List.map_append, List.map_singleton]
    · rw [Std.HashMap.getElem?_insert, r.index?_append new, h.places, h.size_eq]
      simp only [beq_iff_eq]
    · have missing : id ∉ s.places := by
        rw [Std.HashMap.mem_iff_isSome_getElem?, h.places, hi]
        exact Bool.false_ne_true
      rw [Std.HashMap.size_insert, if_neg missing, h.places_size, CommentRegistry.size,
        CommentRegistry.size, List.length_append, List.length_singleton]

/-- The place of an identity is inside both columns, so a comment can always be asked for. -/
theorem attach (h : Agrees s r) (distinct : r.ids.Nodup) (id : Nat) :
    ∃ s', s.attach id = some ((r.attach id).1, s') ∧ Agrees s' (r.attach id).2 := by
  rw [CommentColumns.attach, CommentRegistry.attach, h.places, r.find?_eq_index?]
  cases hi : r.index? id with
  | none => exact ⟨s, rfl, h⟩
  | some index =>
    have inside := (List.findIdx?_eq_some_iff_getElem.1 hi).1
    have place : r.entries[index]? = some r.entries[index] := List.getElem?_eq_getElem inside
    have refused : ((r.entries[index]).attached || !(r.entries[index]).comment.isDoc) =
        !(r.entries[index]).isFree := by
      rw [CommentEntry.isFree, Bool.not_and, Bool.not_not, Bool.or_comm]
    simp only [h.seen, h.comments, CommentRegistry.all, List.getElem?_map, place, Option.map_some,
      Option.bind_some, Option.bind_eq_bind, refused]
    cases hf : (r.entries[index]).isFree with
    | false => exact ⟨s, rfl, h⟩
    | true =>
      refine ⟨_, rfl, ⟨?_, ?_, fun id' => ?_, h.places_size.trans ?_⟩⟩
      · exact (r.mark_map (f := (·.comment)) (fun _ => rfl) id).symm
      · exact (CommentRegistry.seen_mark distinct hi).symm
      · exact (h.places id').trans (CommentRegistry.index?_mark r id id').symm
      · exact (List.length_map _).symm

theorem free (h : Agrees s r) : s.free = r.free := by
  have zipped : s.comments.zip s.seen = r.entries.map fun e => (e.comment, e.attached) := by
    rw [h.comments, h.seen, CommentRegistry.all, List.zip_map']
  rw [CommentColumns.free, zipped, List.filter_map, List.map_map]
  rfl

/-- One call: the columns can perform it, give the same answer and still agree. -/
theorem perform (h : Agrees s r) (distinct : r.ids.Nodup) (call : Call) :
    ∃ s', s.perform call = some ((r.perform call).1, s') ∧ Agrees s' (r.perform call).2 := by
  cases call with
  | record id comment =>
    obtain ⟨place, agrees⟩ := h.record id comment
    exact ⟨_, by rw [CommentColumns.perform, CommentRegistry.perform, place], agrees⟩
  | attach id =>
    obtain ⟨s', handed, agrees⟩ := h.attach distinct id
    exact ⟨s', by rw [CommentColumns.perform, handed]; rfl, agrees⟩
  | unattached start =>
    exact ⟨s, by rw [CommentColumns.perform, h.free]; rfl, h⟩
  | clear => exact ⟨_, rfl, agrees_empty⟩

end Agrees
end CommentColumns

/-! ## What the history says -/

namespace CommentRegistry

/-- What has been asked since a registry was last cleared. -/
def sinceClear (past : History) : History :=
  past.rtakeWhile fun event => event.1 != .clear

/-- The identity and the comment that a call records. -/
def Call.recording? : Call → Option (Nat × Comment)
  | .record id comment => some (id, comment)
  | _ => none

/-- The identity whose comment an answer has handed out. -/
def handed? : Call × Answer → Option Nat
  | (.attach id, .handed (some _)) => some id
  | _ => none

/-- The first pair of each identity. -/
def firsts : List (Nat × Comment) → List (Nat × Comment)
  | [] => []
  | first :: rest => first :: (firsts rest).filter (·.1 != first.1)

/-- The recorded comments in the order of recording, each under its identity. -/
def recorded (past : History) : List (Nat × Comment) :=
  firsts ((sinceClear past).filterMap (·.1.recording?))

/-- The identities whose comment has been handed out. -/
def handedOut (past : History) : List Nat :=
  (sinceClear past).filterMap handed?

/-- The recorded documentation comments that have not been handed out. -/
def waiting (past : History) : List Comment :=
  ((recorded past).filter fun (id, comment) =>
    comment.isDoc && !(handedOut past).contains id).map (·.2)

theorem sinceClear_concat (past : History) (call : Call) (answer : Answer) (h : call ≠ .clear) :
    sinceClear (past ++ [(call, answer)]) = sinceClear past ++ [(call, answer)] := by
  rw [sinceClear, List.rtakeWhile_concat, if_pos (by simpa using h), sinceClear]

theorem sinceClear_clear (past : History) (answer : Answer) :
    sinceClear (past ++ [(.clear, answer)]) = [] := by
  rw [sinceClear, List.rtakeWhile_concat, if_neg (by simp)]

theorem mem_firsts_ids {pairs : List (Nat × Comment)} {id : Nat} :
    id ∈ (firsts pairs).map (·.1) ↔ id ∈ pairs.map (·.1) := by
  induction pairs with
  | nil => rfl
  | cons first rest ih =>
    by_cases h : id = first.1
    · simp [firsts, h]
    · rw [firsts, List.map_cons, List.map_cons, List.mem_cons, List.mem_cons, ← ih]
      simp only [h, false_or, List.mem_map, List.mem_filter, bne_iff_ne]
      constructor
      · rintro ⟨pair, ⟨hp, -⟩, hid⟩
        exact ⟨pair, hp, hid⟩
      · rintro ⟨pair, hp, hid⟩
        exact ⟨pair, ⟨hp, fun he => h (hid.symm.trans he)⟩, hid⟩

theorem firsts_concat (pairs : List (Nat × Comment)) (id : Nat) (comment : Comment) :
    firsts (pairs ++ [(id, comment)]) =
      if id ∈ pairs.map (·.1) then firsts pairs else firsts pairs ++ [(id, comment)] := by
  induction pairs with
  | nil => rfl
  | cons first rest ih =>
    rw [List.cons_append, firsts, ih, firsts]
    by_cases h : id = first.1
    · have known : id ∈ (first :: rest).map (·.1) := h ▸ List.mem_cons_self
      rw [if_pos known]
      split
      · rfl
      · rw [List.filter_append, List.filter_cons_of_neg (by simp [h]), List.filter_nil,
          List.append_nil]
    · simp only [List.map_cons, List.mem_cons, h, false_or]
      split
      · rfl
      · rw [List.filter_append, List.filter_cons_of_pos (by simp [h]), List.filter_nil,
          List.cons_append]

theorem firsts_nodup (pairs : List (Nat × Comment)) : ((firsts pairs).map (·.1)).Nodup := by
  induction pairs with
  | nil => exact List.nodup_nil
  | cons first rest ih =>
    rw [firsts, List.map_cons, List.nodup_cons]
    refine ⟨?_, ih.sublist (List.filter_sublist.map _)⟩
    simp [List.mem_map, List.mem_filter]

section Events

variable (past : History)

theorem recorded_concat (call : Call) (answer : Answer) (h : call ≠ .clear) :
    recorded (past ++ [(call, answer)]) =
      firsts ((sinceClear past).filterMap (·.1.recording?) ++ call.recording?.toList) := by
  rw [recorded, sinceClear_concat past call answer h, List.filterMap_append]
  cases hc : call.recording? <;> simp [hc]

theorem handedOut_concat (call : Call) (answer : Answer) (h : call ≠ .clear) :
    handedOut (past ++ [(call, answer)]) = handedOut past ++ (handed? (call, answer)).toList := by
  rw [handedOut, sinceClear_concat past call answer h, List.filterMap_append, handedOut]
  cases hc : handed? (call, answer) <;> simp [hc]

theorem handed?_eq_some {event : Call × Answer} {id : Nat} :
    handed? event = some id ↔ ∃ comment, event = (.attach id, .handed (some comment)) := by
  constructor
  · intro given
    unfold handed? at given
    split at given
    next comment => exact ⟨comment, by rw [Option.some.inj given]⟩
    next => cases given
  · rintro ⟨comment, rfl⟩
    rfl

theorem recorded_ids (id : Nat) :
    id ∈ (recorded past).map (·.1) ↔
      id ∈ ((sinceClear past).filterMap (·.1.recording?)).map (·.1) :=
  mem_firsts_ids

/-- A call that records nothing leaves the recorded comments as they are. -/
theorem recorded_of_none {call : Call} (answer : Answer) (h : call ≠ .clear)
    (hr : call.recording? = none) : recorded (past ++ [(call, answer)]) = recorded past := by
  rw [recorded_concat past call answer h, hr, Option.toList_none, List.append_nil, recorded]

/-- An identity is recorded once. -/
theorem recorded_record (id : Nat) (comment : Comment) (answer : Answer) :
    recorded (past ++ [(.record id comment, answer)]) =
      if id ∈ (recorded past).map (·.1) then recorded past
      else recorded past ++ [(id, comment)] := by
  simp only [recorded_concat past _ answer (Call.noConfusion : Call.record id comment ≠ .clear),
    recorded_ids]
  exact firsts_concat _ id comment

end Events

/-- The entry that a history gives a recorded comment. -/
def entryIn (past : History) (pair : Nat × Comment) : CommentEntry :=
  ⟨pair.1, pair.2, (handedOut past).contains pair.1⟩

theorem entryIn_concat {past : History} {call : Call} {answer : Answer} (h : call ≠ .clear) :
    entryIn (past ++ [(call, answer)]) = fun pair => ⟨pair.1, pair.2,
      (handedOut past ++ (handed? (call, answer)).toList).contains pair.1⟩ := by
  funext pair
  rw [entryIn, handedOut_concat past call answer h]

/-- The history of a run says all about its registry. -/
structure Run.Logged (run : Run) : Prop where
  entries : run.registry.entries = (recorded run.past).map (entryIn run.past)
  once : (handedOut run.past).Nodup
  known : ∀ id ∈ handedOut run.past, id ∈ (recorded run.past).map (·.1)
  placed : ∀ id comment index, (.record id comment, .place index) ∈ sinceClear run.past →
    run.registry.index? id = some index
  handed : ∀ id comment, (.attach id, .handed (some comment)) ∈ sinceClear run.past →
    (id, comment) ∈ recorded run.past ∧ comment.isDoc = true

namespace Run.Logged

variable {run : Run} (h : run.Logged)
include h

theorem ids : run.registry.ids = (recorded run.past).map (·.1) := by
  rw [CommentRegistry.ids, h.entries, List.map_map]
  rfl

theorem distinct : run.registry.ids.Nodup := by
  rw [h.ids]
  exact firsts_nodup _

theorem all : run.registry.all = (recorded run.past).map (·.2) := by
  rw [CommentRegistry.all, h.entries, List.map_map]
  rfl

theorem find?_eq_some {id : Nat} {e : CommentEntry} :
    run.registry.find? id = some e ↔
      ∃ comment, (id, comment) ∈ recorded run.past ∧ e = entryIn run.past (id, comment) := by
  constructor
  · intro he
    have hid : e.id = id := by simpa using List.find?_some he
    have mem : e ∈ (recorded run.past).map (entryIn run.past) :=
      h.entries ▸ List.mem_of_find?_eq_some he
    obtain ⟨⟨id', comment⟩, hm, rfl⟩ := List.mem_map.1 mem
    cases hid
    exact ⟨comment, hm, rfl⟩
  · rintro ⟨comment, hm, rfl⟩
    have mem : entryIn run.past (id, comment) ∈ run.registry.entries :=
      h.entries ▸ List.mem_map_of_mem hm
    exact find?_of_mem h.distinct mem

/-- What is handed out is a recorded documentation comment that has not been handed out. -/
theorem attach_eq_some {id : Nat} {comment : Comment} :
    (run.registry.attach id).1 = some comment ↔
      (id, comment) ∈ recorded run.past ∧ comment.isDoc = true ∧ id ∉ handedOut run.past := by
  have free (comment : Comment) : (entryIn run.past (id, comment)).isFree = true ↔
      comment.isDoc = true ∧ id ∉ handedOut run.past := by
    simp [entryIn, CommentEntry.isFree]
  rw [CommentRegistry.attach]
  constructor
  · intro ha
    cases he : run.registry.find? id with
    | none => simp [he] at ha
    | some e =>
      obtain ⟨comment', hm, rfl⟩ := h.find?_eq_some.1 he
      rw [he] at ha
      dsimp only at ha
      split at ha
      case isTrue hf =>
        cases ha
        exact ⟨hm, (free _).1 hf⟩
      case isFalse => cases ha
  · rintro ⟨hm, hf⟩
    rw [h.find?_eq_some.2 ⟨comment, hm, rfl⟩]
    dsimp only
    rw [if_pos ((free comment).2 hf)]
    rfl

theorem free : run.registry.free = waiting run.past := by
  rw [CommentRegistry.free, h.entries, List.filter_map, List.map_map, waiting]
  rfl

/-- A recording of a known identity gives its first place and changes nothing. -/
theorem record_again {id : Nat} {comment : Comment} {index : Nat}
    (logged : (.record id comment, .place index) ∈ sinceClear run.past) (again : Comment) :
    run.registry.record id again = (index, run.registry) := by
  rw [CommentRegistry.record, h.placed id comment index logged]

omit h in
theorem start : Run.Logged ⟨[], .empty⟩ where
  entries := rfl
  once := List.nodup_nil
  known _ hid := absurd hid List.not_mem_nil
  placed _ _ _ hp := absurd hp List.not_mem_nil
  handed _ _ hp := absurd hp List.not_mem_nil

/-- What a call must leave behind for the history to go on telling: the entries it tells of, all
recorded comments and places, and a right answer. -/
theorem extend {call : Call} {answer : Answer} {registry : CommentRegistry} (going : call ≠ .clear)
    (entries : registry.entries = (recorded (run.past ++ [(call, answer)])).map
      (entryIn (run.past ++ [(call, answer)])))
    (grows : recorded run.past ⊆ recorded (run.past ++ [(call, answer)]))
    (keeps : ∀ id index, run.registry.index? id = some index → registry.index? id = some index)
    (place : ∀ id comment index, (call, answer) = (.record id comment, .place index) →
      registry.index? id = some index)
    (hand : ∀ id comment, (call, answer) = (.attach id, .handed (some comment)) →
      (id, comment) ∈ recorded run.past ∧ comment.isDoc = true ∧ id ∉ handedOut run.past) :
    Run.Logged ⟨run.past ++ [(call, answer)], registry⟩ := by
  have event {e : Call × Answer} (he : e ∈ sinceClear (run.past ++ [(call, answer)])) :
      e ∈ sinceClear run.past ∨ (call, answer) = e := by
    rw [sinceClear_concat _ _ _ going, List.mem_append, List.mem_singleton] at he
    exact he.imp_right Eq.symm
  have out := handedOut_concat run.past call answer going
  have known (id : Nat) (hid : id ∈ handedOut run.past) :
      id ∈ (recorded (run.past ++ [(call, answer)])).map (·.1) :=
    List.map_subset _ grows (h.known id hid)
  refine ⟨entries, ?_, ?_, fun id comment index hp => ?_, fun id comment hp => ?_⟩
  · rw [out]
    cases given : handed? (call, answer) with
    | none => simpa using h.once
    | some id =>
      obtain ⟨comment, he⟩ := handed?_eq_some.1 given
      rw [Option.toList_some, ← List.concat_eq_append]
      exact List.Nodup.concat (hand id comment he).2.2 h.once
  · intro id hid
    rw [out, List.mem_append, Option.mem_toList] at hid
    rcases hid with hid | given
    · exact known id hid
    · obtain ⟨comment, he⟩ := handed?_eq_some.1 given
      exact List.mem_map_of_mem (grows (hand id comment he).1)
  · rcases event hp with hp | he
    · exact keeps id index (h.placed id comment index hp)
    · exact place id comment index he
  · rcases event hp with hp | he
    · exact (h.handed id comment hp).imp_left fun hm => grows hm
    · exact (hand id comment he).imp (fun hm => grows hm) And.left

/-- A call that records and hands out nothing new. -/
theorem idle {call : Call} {answer : Answer} (going : call ≠ .clear)
    (same : recorded (run.past ++ [(call, answer)]) = recorded run.past)
    (nothing : handed? (call, answer) = none)
    (place : ∀ id comment index, (call, answer) = (.record id comment, .place index) →
      run.registry.index? id = some index) :
    Run.Logged ⟨run.past ++ [(call, answer)], run.registry⟩ := by
  refine h.extend going ?_ (same ▸ List.Subset.refl _) (fun _ _ hi => hi) place ?_
  · rw [same, entryIn_concat going, nothing, Option.toList_none, List.append_nil]
    exact h.entries
  · intro id comment he
    rw [handed?_eq_some.2 ⟨comment, he⟩] at nothing
    cases nothing

theorem step_record (id : Nat) (comment : Comment) : (run.step (.record id comment)).Logged := by
  have going : Call.record id comment ≠ .clear := Call.noConfusion
  cases hi : run.registry.index? id with
  | some index =>
    have known : id ∈ (recorded run.past).map (·.1) := by
      rw [← h.ids]
      exact List.mem_of_getElem? (ids_of_index? hi)
    have step : run.step (.record id comment) =
        ⟨run.past ++ [(.record id comment, .place index)], run.registry⟩ := by
      rw [Run.step, perform, record, hi]
    rw [step]
    refine h.idle going (by rw [recorded_record, if_pos known]) rfl ?_
    rintro id' comment' index' ⟨⟩
    exact hi
  | none =>
    have absent : id ∉ run.registry.ids := index?_eq_none.1 hi
    have new : id ∉ (recorded run.past).map (·.1) := h.ids ▸ absent
    have kept : id ∉ handedOut run.past := fun hm => new (h.known id hm)
    have step : run.step (.record id comment) =
        ⟨run.past ++ [(.record id comment, .place run.registry.size)],
          ⟨run.registry.entries ++ [⟨id, comment, false⟩]⟩⟩ := by
      rw [Run.step, perform, record, hi]
    rw [step]
    refine h.extend going ?_ ?_ (fun id' index hi' => ?_) ?_ (by rintro _ _ ⟨⟩)
    · rw [recorded_record, if_neg new, entryIn_concat going, h.entries]
      simp [entryIn, handed?, kept]
    · rw [recorded_record, if_neg new]
      exact List.subset_append_left _ _
    · have other : id ≠ id' := by
        rintro rfl
        rw [hi] at hi'
        cases hi'
      rw [index?_append _ absent, if_neg other, hi']
    · rintro id' comment' index ⟨⟩
      rw [index?_append _ absent, if_pos rfl]

theorem step_attach (id : Nat) : (run.step (.attach id)).Logged := by
  have going : Call.attach id ≠ .clear := Call.noConfusion
  have same (answer : Answer) :
      recorded (run.past ++ [(.attach id, answer)]) = recorded run.past :=
    recorded_of_none _ _ going rfl
  cases ha : (run.registry.attach id).1 with
  | none =>
    have step : run.step (.attach id) =
        ⟨run.past ++ [(.attach id, .handed none)], run.registry⟩ := by
      rw [Run.step, perform, attach_leaves, ha]
      rfl
    rw [step]
    exact h.idle going (same _) rfl (by rintro _ _ _ ⟨⟩)
  | some comment =>
    have step : run.step (.attach id) =
        ⟨run.past ++ [(.attach id, .handed (some comment))], run.registry.mark id⟩ := by
      rw [Run.step, perform, attach_leaves, ha]
      rfl
    rw [step]
    refine h.extend going ?_ (same _ ▸ List.Subset.refl _) ?_ (by rintro _ _ _ ⟨⟩) ?_
    · rw [same, entryIn_concat going, mark, h.entries, List.map_map]
      refine List.map_congr_left fun pair _ => ?_
      by_cases hid : pair.1 = id <;> simp [entryIn, handed?, hid]
    · intro id' index hi
      rw [index?_mark, hi]
    · rintro id' comment' ⟨⟩
      exact h.attach_eq_some.1 ha

omit h in
theorem step_clear (run : Run) : (run.step .clear).Logged := by
  have since : sinceClear (run.step .clear).past = [] := sinceClear_clear _ _
  have none : recorded (run.step .clear).past = [] := by rw [recorded, since]; rfl
  have nothing : handedOut (run.step .clear).past = [] := by rw [handedOut, since]; rfl
  refine ⟨?_, ?_, ?_, ?_, ?_⟩
  · rw [none]
    rfl
  · rw [nothing]
    exact List.nodup_nil
  · rw [nothing]
    exact fun _ hid => absurd hid List.not_mem_nil
  · rw [since]
    exact fun _ _ _ hp => absurd hp List.not_mem_nil
  · rw [since]
    exact fun _ _ hp => absurd hp List.not_mem_nil

/-- Every call keeps the history telling. -/
theorem step (call : Call) : (run.step call).Logged := by
  cases call with
  | record id comment => exact h.step_record id comment
  | attach id => exact h.step_attach id
  | unattached start =>
    have going : Call.unattached start ≠ .clear := Call.noConfusion
    exact h.idle going (recorded_of_none _ _ going rfl) rfl (by rintro _ _ _ ⟨⟩)
  | clear => exact step_clear run

end Run.Logged

/-- The history of every run says all about its registry. -/
theorem Run.logged (calls : List Call) : (Run.of calls).Logged := by
  induction calls using List.reverseRecOn with
  | nil => exact Run.Logged.start
  | append_singleton calls call ih =>
    rw [Run.of_concat]
    exact ih.step call

end CommentRegistry

/-! ## All runs -/

namespace CommentColumns

/-- Columns can perform all calls; they answer as the entries do and agree with them. -/
theorem run_agrees (calls : List Call) :
    ∃ s, run calls = some ((Run.of calls).past, s) ∧ Agrees s (Run.of calls).registry := by
  induction calls using List.reverseRecOn with
  | nil => exact ⟨empty, rfl, agrees_empty⟩
  | append_singleton calls call ih =>
    obtain ⟨s, hrun, agrees⟩ := ih
    obtain ⟨s', hstep, agrees'⟩ := agrees.perform (Run.logged calls).distinct call
    refine ⟨s', ?_, by rw [Run.of_concat]; exact agrees'⟩
    have stepped : step ((Run.of calls).past, s) call =
        some ((Run.of (calls ++ [call])).past, s') := by
      rw [step, hstep, Run.of_concat]
      rfl
    rw [run] at hrun
    rw [run, List.foldlM_append, hrun]
    simp only [Option.bind_eq_bind, Option.bind_some, List.foldlM_cons, List.foldlM_nil, stepped]
    rfl

end CommentColumns

/-- After any calls, in any order and with any identities: the three columns have one size, no call
has read outside them, and they hold what the entries hold. A recorded identity keeps its first
place. Since the last clear, an identity has been handed out once at most, and it is handed out
exactly if its recorded comment is documentation that still waits. Those that wait are what is left
over, in the order of recording, before and after any place. -/
theorem registry_runs (calls : List Call) :
    let past := (Run.of calls).past
    let r := (Run.of calls).registry
    (∃ s, CommentColumns.run calls = some (past, s) ∧ s.Sound ∧ s.Agrees r ∧
      ∀ id comment index, (.record id comment, .place index) ∈ CommentRegistry.sinceClear past →
        ∀ again, s.record id again = (index, s) ∧ r.record id again = (index, r)) ∧
    r.all = (CommentRegistry.recorded past).map (·.2) ∧
    (CommentRegistry.handedOut past).Nodup ∧
    (∀ id comment, (.attach id, .handed (some comment)) ∈ CommentRegistry.sinceClear past →
      (id, comment) ∈ CommentRegistry.recorded past ∧ comment.isDoc = true) ∧
    (∀ id comment, (r.attach id).1 = some comment ↔ (id, comment) ∈ CommentRegistry.recorded past ∧
      comment.isDoc = true ∧ id ∉ CommentRegistry.handedOut past) ∧
    r.unattached none = ([], CommentRegistry.waiting past) ∧
    (∀ start, r.unattached (some start) =
      ((CommentRegistry.waiting past).filter fun c => decide (c.span.start < start),
        (CommentRegistry.waiting past).filter fun c => decide (start ≤ c.span.start))) ∧
    ∀ start, ((r.unattached start).1 ++ (r.unattached start).2).Perm
      (CommentRegistry.waiting past) := by
  have logged := Run.logged calls
  refine ⟨?_, logged.all, logged.once, logged.handed, fun _ _ => logged.attach_eq_some, ?_,
    fun start => ?_, fun start => ?_⟩
  · obtain ⟨s, hrun, agrees⟩ := CommentColumns.run_agrees calls
    refine ⟨s, hrun, agrees.sound, agrees, fun id comment index hp again => ⟨?_, ?_⟩⟩
    · rw [CommentColumns.record, agrees.places, logged.placed id comment index hp]
    · exact logged.record_again hp again
  · rw [CommentRegistry.unattached, List.partition_eq_filter_filter, logged.free]
    refine Prod.ext ?_ ?_
    · exact List.filter_eq_nil_iff.2 fun _ _ => Bool.false_ne_true
    · exact List.filter_eq_self.2 fun _ _ => rfl
  · rw [CommentRegistry.unattached, List.partition_eq_filter_filter, logged.free]
    refine Prod.ext rfl (List.filter_congr fun c _ => ?_)
    rw [Function.comp_apply, CommentRegistry.leads, Option.any_some, ← decide_not]
    exact decide_eq_decide.2 Nat.not_lt
  · rw [CommentRegistry.unattached, List.partition_eq_filter_filter, logged.free]
    exact List.filter_append_perm _ _

end ScriptTree
