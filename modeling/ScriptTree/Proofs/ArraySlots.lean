import ScriptTree.Proofs.Converts
import ScriptTree.Proofs.Levels

/-!
# The slots of an array

An array is written as a list of slots: each is an element or a hole, and a comma follows each of
them but, where it is an element, the last one. The conversion of an array goes through its tokens
and keeps one flag to tell separators from holes. It reads the slots back one by one
(`elements_eq_mapM`): a list of the same length, with nothing at the holes and the converted
elements at the other places, or the error of the first element that fails.
-/
namespace ScriptTree

open ParseTree (Site)

/-! ## Slots as they are written -/

namespace ParseTree.Site

/-- A fixed token with a text. -/
def IsToken (text : String) (c : Site) : Prop :=
  c.label.named = false ∧ c.kind = text

/-- The tokens of slots between the brackets. The comma after the last slot may be left out if the
slot is an element. -/
inductive Slots : List (Option Site) → List Site → Prop
  | nil : Slots [] []
  | last {c : Site} (element : c.label.named = true) : Slots [some c] [c]
  | hole {comma : Site} {slots : List (Option Site)} {tokens : List Site}
      (separator : comma.IsToken ",") (rest : Slots slots tokens) :
      Slots (none :: slots) (comma :: tokens)
  | element {c comma : Site} {slots : List (Option Site)} {tokens : List Site}
      (element : c.label.named = true) (separator : comma.IsToken ",") (rest : Slots slots tokens) :
      Slots (some c :: slots) (c :: comma :: tokens)

/-- A node is an array with slots: apart from extra nodes, which may stand anywhere, its children
are the tokens of the slots in brackets. -/
def WritesSlots (s : Site) (slots : List (Option Site)) : Prop :=
  ∃ opening tokens closing, s.tokens = opening :: (tokens ++ [closing]) ∧
    opening.IsToken "[" ∧ closing.IsToken "]" ∧ Slots slots tokens

end ParseTree.Site

/-! ## Slots as they are converted -/

namespace Conversion

/-- The slots are converted one after another: holes stay, and each element is converted in the state
that the elements before it have left behind. -/
inductive Fills (convert : Converter) :
    List (Option Site) → BuildState → List (Option Node) → BuildState → Prop
  | nil {st} : Fills convert [] st [] st
  | hole {slots st nodes st'} (rest : Fills convert slots st nodes st') :
      Fills convert (none :: slots) st (none :: nodes) st'
  | element {c slots st st₁ n nodes st'} (converted : convert c st = .ok n st₁)
      (rest : Fills convert slots st₁ nodes st') :
      Fills convert (some c :: slots) st (some n :: nodes) st'

/-- The first element that cannot be converted after those before it fails with an error. -/
def FailsFirst (convert : Converter) (slots : List (Option Site)) (st : BuildState)
    (e : BuildError) (st' : BuildState) : Prop :=
  ∃ done c rest nodes st₁, slots = done ++ some c :: rest ∧ Fills convert done st nodes st₁ ∧
    convert c st₁ = .error e st'

/-- The list that slots are converted to has their shape. -/
theorem Fills.shape {convert : Converter} {slots : List (Option Site)} {nodes : List (Option Node)}
    {st st' : BuildState} (h : Fills convert slots st nodes st') :
    List.Forall₂ (Option.Rel fun c n => ∃ before after, convert c before = .ok n after)
      slots nodes := by
  induction h with
  | nil => exact .nil
  | hole _ ih => exact .cons .none ih
  | element converted _ ih => exact .cons (.some ⟨_, _, converted⟩) ih

section

variable {α β : Type} {st st' : BuildState} {e : BuildError}

variable {convert : Converter} {slots : List (Option Site)}

theorem mapM_optional_ok {nodes : List (Option Node)} :
    slots.mapM (optional convert) st = .ok nodes st' ↔ Fills convert slots st nodes st' := by
  constructor
  · intro h
    induction slots generalizing st nodes with
    | nil =>
      rw [List.mapM_nil, pure_ok] at h
      obtain ⟨rfl, rfl⟩ := h
      exact .nil
    | cons slot slots ih =>
      cases slot with
      | none =>
        simp only [List.mapM_cons, optional, bind_ok, pure_ok] at h
        obtain ⟨_, _, ⟨rfl, rfl⟩, nodes, _, rest, rfl, rfl⟩ := h
        exact .hole (ih rest)
      | some c =>
        simp only [List.mapM_cons, optional, bind_ok, pure_ok] at h
        obtain ⟨_, _, ⟨n, _, converted, rfl, rfl⟩, nodes, _, rest, rfl, rfl⟩ := h
        exact .element converted (ih rest)
  · intro h
    induction h with
    | nil => rw [List.mapM_nil, pure_ok]; exact ⟨rfl, rfl⟩
    | hole _ ih =>
      simp only [List.mapM_cons, optional, bind_ok, pure_ok]
      exact ⟨_, _, ⟨rfl, rfl⟩, _, _, ih, rfl, rfl⟩
    | element converted _ ih =>
      simp only [List.mapM_cons, optional, bind_ok, pure_ok]
      exact ⟨_, _, ⟨_, _, converted, rfl, rfl⟩, _, _, ih, rfl, rfl⟩

theorem mapM_optional_error :
    slots.mapM (optional convert) st = .error e st' ↔ FailsFirst convert slots st e st' := by
  constructor
  · intro h
    induction slots generalizing st with
    | nil =>
      rw [List.mapM_nil, pure_error] at h
      exact h.elim
    | cons slot slots ih =>
      cases slot with
      | none =>
        simp only [List.mapM_cons, optional, bind_error, pure_error, pure_ok, and_false, exists_false,
          or_false, false_or] at h
        obtain ⟨_, _, ⟨rfl, rfl⟩, failed⟩ := h
        obtain ⟨done, c, rest, nodes, st₁, rfl, before, error⟩ := ih failed
        exact ⟨none :: done, c, rest, none :: nodes, st₁, rfl, .hole before, error⟩
      | some c =>
        simp only [List.mapM_cons, optional, bind_error, bind_ok, pure_error, pure_ok, and_false,
          exists_false, or_false] at h
        rcases h with error | ⟨_, _, ⟨n, _, converted, rfl, rfl⟩, failed⟩
        · exact ⟨[], c, slots, [], st, rfl, .nil, error⟩
        · obtain ⟨done, d, rest, nodes, st₁, rfl, before, error⟩ := ih failed
          exact ⟨some c :: done, d, rest, some n :: nodes, st₁, rfl, .element converted before, error⟩
  · rintro ⟨done, c, rest, nodes, st₁, rfl, before, error⟩
    induction before with
    | nil =>
      simp only [List.nil_append, List.mapM_cons, optional, bind_error]
      exact .inl (.inl error)
    | hole _ ih =>
      simp only [List.cons_append, List.mapM_cons, optional, bind_error, pure_ok]
      exact .inr ⟨_, _, ⟨rfl, rfl⟩, .inl (ih error)⟩
    | element converted _ ih =>
      simp only [List.cons_append, List.mapM_cons, optional, bind_error, bind_ok, pure_ok]
      exact .inr ⟨_, _, ⟨_, _, converted, rfl, rfl⟩, .inl (ih error)⟩

end

/-! ## What the tokens are read as -/

section

variable {convert convert' : Converter}

/-- Only the sites themselves have to be converted in the same way. -/
theorem elements_congr {awaiting : Bool} {sites : List Site}
    (same : ∀ c ∈ sites, convert c = convert' c) :
    elements convert awaiting sites = elements convert' awaiting sites := by
  induction sites generalizing awaiting with
  | nil => rfl
  | cons c rest ih =>
    have rest {awaiting : Bool} := @ih awaiting fun d hd => same d (List.mem_cons_of_mem c hd)
    rw [elements, elements, same c List.mem_cons_self, rest, rest, rest]

theorem elements_named {awaiting : Bool} {c : Site} {rest : List Site}
    (named : c.label.named = true) :
    elements convert awaiting (c :: rest) = do
      let node ← convert c
      let nodes ← elements convert false rest
      return some node :: nodes := by
  rw [elements, if_pos named]

theorem elements_comma {awaiting : Bool} {c : Site} {rest : List Site} (comma : c.IsToken ",") :
    elements convert awaiting (c :: rest) = do
      let nodes ← elements convert true rest
      return if awaiting then none :: nodes else nodes := by
  rw [elements, comma.1, if_neg Bool.false_ne_true, if_pos comma.2]

theorem elements_bracket {awaiting : Bool} {text : String} {c : Site} {rest : List Site}
    (bracket : c.IsToken text) (other : text ≠ ",") :
    elements convert awaiting (c :: rest) = elements convert awaiting rest := by
  rw [elements, bracket.1, if_neg Bool.false_ne_true, bracket.2, if_neg other]

/-- After a whole number of slots the flag is up again, so the closing bracket adds nothing. -/
theorem elements_slots {slots : List (Option Site)} {tokens : List Site} {closing : Site}
    (h : Site.Slots slots tokens) (bracket : closing.IsToken "]") :
    elements convert true (tokens ++ [closing]) = slots.mapM (optional convert) := by
  have closed {awaiting : Bool} : elements convert awaiting [closing] = pure [] :=
    elements_bracket bracket (by decide)
  induction h with
  | nil => exact closed
  | last element =>
    rw [List.singleton_append, elements_named element, closed]
    simp only [List.mapM_cons, List.mapM_nil, optional, bind_assoc, pure_bind]
  | hole separator _ ih =>
    rw [List.cons_append, elements_comma separator, ih]
    simp only [List.mapM_cons, optional, pure_bind, if_true]
  | element element separator _ ih =>
    rw [List.cons_append, elements_named element, List.cons_append, elements_comma separator, ih]
    simp only [List.mapM_cons, optional, bind_assoc, pure_bind, Bool.false_eq_true, if_false]

/-- The tokens of an array are converted slot by slot. -/
theorem elements_eq_mapM {s : Site} {slots : List (Option Site)} (h : s.WritesSlots slots) :
    elements convert true s.tokens = slots.mapM (optional convert) := by
  obtain ⟨opening, tokens, closing, written, first, last, slots⟩ := h
  rw [written, elements_bracket first (by decide), elements_slots slots last]

end

/-! ## Arrays -/

/-- What the two kinds of arrays become. -/
inductive MakesArray : String → (List (Option Node) → Construct Node) → Prop
  | expression : MakesArray "array" .arrayExpression
  | pattern : MakesArray "array_pattern" .arrayPattern

/-- A step at an array enters it, goes through its tokens and makes it from what they are read as. -/
theorem step_array (ctx : BuildContext) (convert : Converter) {s : Site}
    {make : List (Option Node) → Construct Node} (array : MakesArray s.kind make) :
    step ctx convert s =
      register ctx s >>= fun place =>
        elements convert true s.tokens >>= fun nodes => finish place (make nodes) := by
  generalize hk : s.kind = kind at array
  cases array with
  | expression =>
    have known : GrammarKind.ofName? s.kind = some .array := by rw [hk]; rfl
    simp only [step, known, GrammarKind.isTransparent, Bool.false_eq_true, if_false, construct,
      bind_assoc, pure_bind]
  | pattern =>
    have known : GrammarKind.ofName? s.kind = some .arrayPattern := by rw [hk]; rfl
    simp only [step, known, GrammarKind.isTransparent, Bool.false_eq_true, if_false, construct,
      bind_assoc, pure_bind]

/-- An array is entered before its elements are converted. -/
theorem node_array (ctx : BuildContext) {s : Site} {make : List (Option Node) → Construct Node}
    (array : MakesArray s.kind make) (st : BuildState) :
    node ctx s st =
      (elements (node ctx) true s.tokens >>= fun nodes => finish st.table.size (make nodes))
        (st.entered ctx (.documented s)) := by
  obtain ⟨levels, bound⟩ := Nat.exists_eq_succ_of_ne_zero (Nat.pos_iff_ne_zero.1 s.height_pos)
  have same : elements (upTo ctx levels) true s.tokens = elements (node ctx) true s.tokens :=
    elements_congr fun c hc => by
      have lower := ParseTree.Site.height_lt_of_mem_children (s.tokens_sublist.subset hc)
      exact upTo_eq_node ctx (by omega)
  rw [node, bound, upTo, step_array ctx _ array, same]
  rfl

/-- A node that is finished is made from its construct. -/
theorem finish_makes (place : Nat) (c : Construct Node) (st : BuildState) :
    ∃ n st', finish place c st = .ok n st' ∧ n.construct = c :=
  ⟨_, _, finish_run place c st, rfl⟩

/-- The slots of an array are read back exactly. If all elements are converted, the list has
something at the elements and nothing at the holes, and it is what the array is made from; otherwise
the error of the first element that fails is the error of the whole array. -/
theorem array_slots_read_back (ctx : BuildContext) {s : Site} {slots : List (Option Site)}
    {make : List (Option Node) → Construct Node} (array : MakesArray s.kind make)
    (written : s.WritesSlots slots) (st : BuildState) :
    (∀ nodes st', elements (node ctx) true s.tokens st = .ok nodes st' ↔
      Fills (node ctx) slots st nodes st') ∧
    (∀ e st', elements (node ctx) true s.tokens st = .error e st' ↔
      FailsFirst (node ctx) slots st e st') ∧
    (∀ nodes st', Fills (node ctx) slots st nodes st' →
      List.Forall₂ (Option.Rel fun c n => ∃ before after, node ctx c before = .ok n after)
        slots nodes) ∧
    (∀ nodes st', Fills (node ctx) slots (st.entered ctx (.documented s)) nodes st' →
      ∃ n st'', node ctx s st = .ok n st'' ∧ n.construct = make nodes) ∧
    (∀ e st', FailsFirst (node ctx) slots (st.entered ctx (.documented s)) e st' →
      node ctx s st = .error e st') := by
  have read : elements (node ctx) true s.tokens = slots.mapM (optional (node ctx)) :=
    elements_eq_mapM written
  refine ⟨fun nodes st' => ?_, fun e st' => ?_, fun nodes st' h => h.shape, fun nodes st' h => ?_,
    fun e st' h => ?_⟩
  · rw [read, mapM_optional_ok]
  · rw [read, mapM_optional_error]
  · obtain ⟨n, st'', made, same⟩ := finish_makes st.table.size (make nodes) st'
    refine ⟨n, st'', ?_, same⟩
    rw [node_array ctx array, read, bind_ok]
    exact ⟨nodes, st', mapM_optional_ok.2 h, made⟩
  · rw [node_array ctx array, read, bind_error]
    exact .inl (mapM_optional_error.2 h)

/-- An array with an element, a hole, and an element that has a comment before it and a comma after
it. -/
def slotsSource : Source :=
  ⟨"slots.js", "[a,,/*c*/b,]".toList⟩

/-- The parse tree of the array. -/
def slotsTree : ParseTree :=
  .phrase 0 0 12 "array"
    [.token 1 0 1 "[", .phrase 2 1 2 "identifier" [], .token 3 2 3 ",", .token 4 3 4 ",",
      .remark 5 4 9, .phrase 6 9 10 "identifier" [], .token 7 10 11 ",", .token 8 11 12 "]"]

/-- The slots of the array. -/
def slotsRead : List (Option Site) :=
  [some ⟨.phrase 2 1 2 "identifier" [], some (.token 1 0 1 "[")⟩, none,
    some ⟨.phrase 6 9 10 "identifier" [], some (.remark 5 4 9)⟩]

/-- The array has these slots, and its elements are converted. -/
theorem array_slots_read_back_example :
    MakesArray (ParseTree.rootSite slotsTree).kind .arrayExpression ∧
    (ParseTree.rootSite slotsTree).WritesSlots slotsRead ∧
    ∃ nodes st', elements (node ⟨slotsSource, .single⟩) true (ParseTree.rootSite slotsTree).tokens
      .empty = .ok nodes st' ∧ nodes.map Option.isSome = [true, false, true] := by
  have array : MakesArray (ParseTree.rootSite slotsTree).kind .arrayExpression := .expression
  have written : (ParseTree.rootSite slotsTree).WritesSlots slotsRead :=
    ⟨_, _, _, rfl, ⟨rfl, rfl⟩, ⟨rfl, rfl⟩,
      .element rfl ⟨rfl, rfl⟩ (.hole ⟨rfl, rfl⟩ (.element rfl ⟨rfl, rfl⟩ .nil))⟩
  have filled : ∃ nodes st', Fills (node ⟨slotsSource, .single⟩) slotsRead .empty nodes st' ∧
      nodes.map Option.isSome = [true, false, true] :=
    ⟨_, _, .element rfl (.hole (.element rfl .nil)), rfl⟩
  obtain ⟨nodes, st', filled, shape⟩ := filled
  exact ⟨array, written, nodes, st',
    ((array_slots_read_back ⟨slotsSource, .single⟩ array written .empty).1 nodes st').2 filled,
    shape⟩

end Conversion

end ScriptTree
