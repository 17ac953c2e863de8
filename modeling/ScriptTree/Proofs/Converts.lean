import ScriptTree.Proofs.Roll
import ScriptTree.Proofs.Success

/-!
# Conversions follow their plans

`Converts` is the conversion of a list of plans as a relation between the states before and after
and the output nodes. What its three rules keep holds of every build that succeeds. The table grows
by the roll of the plans (`Converts.table_eq`), so an entry is found again when its node is
finished.
-/
namespace ScriptTree

open ParseTree (Site)

/-- The state after an output node has been entered into the identity table. -/
def BuildState.entered (ctx : BuildContext) (st : BuildState) (r : Registration) : BuildState :=
  { st with table := (st.table.register (r.origin ctx)).2 }

/-- Takes the documentation comment with an identity, if one is asked for. -/
def CommentRegistry.take (r : CommentRegistry) : Option Nat → Option Comment × CommentRegistry
  | none => (none, r)
  | some id => r.attach id

/-- The node of a name whose documentation comment belongs to another node. -/
def bareName (ctx : BuildContext) (s : Site) : Node :=
  .mk (.identifier (ctx.name s)) s.span (ctx.line s) none

@[simp] theorem bareName_children (ctx : BuildContext) (s : Site) :
    (bareName ctx s).children = [] := rfl

@[simp] theorem bareName_doc (ctx : BuildContext) (s : Site) : (bareName ctx s).doc = none := rfl

/-- Whether a node of a kind stands for something of its own or for the node inside it. The others
only stand inside a construct, or are beyond the language level. -/
def GrammarKind.isConvertible : GrammarKind → Bool
  | program | hashBangLine | comment | htmlComment | switchBody | formalParameters | arguments
  | lexicalPart | unsupported => false
  | _ => true

/-- Whether a site can be converted at all. -/
def ParseTree.Site.IsConvertible (s : Site) : Prop :=
  ∃ kind ∈ GrammarKind.ofName? s.kind, kind.isConvertible

/-- What a leaf says of the site for which it has been entered: a name is its text, and so is the raw
text of a literal, unless that is a keyword; a number is the value of its text. -/
def Registration.Reads (ctx : BuildContext) (r : Registration) : Construct Node → Prop
  | .identifier name => ∃ s, r.site? = some s ∧ name = ctx.name s
  | .literal .null raw => raw = "null"
  | .literal (.boolean value) raw => raw = toString value
  | .literal (.number value) raw =>
    ∃ s, r.site? = some s ∧ raw = ctx.name s ∧ Numeral.read? (ctx.text s) = some value
  | .literal (.string _) raw => ∃ s, r.site? = some s ∧ raw = ctx.name s
  | _ => True

/-- Conversion of plans one after another. A site is converted by its frame. A node is entered with
its key before its parts are converted, and takes its documentation comment after them. -/
inductive Converts (ctx : BuildContext) :
    List Plan → BuildState → List Node → BuildState → Prop where
  | nil {st} : Converts ctx [] st [] st
  | convert {s plans st st₁ st' n nodes} :
      s.IsConvertible → Converts ctx (frame s) st [n] st₁ → Converts ctx plans st₁ nodes st' →
      Converts ctx (.convert s :: plans) st (n :: nodes) st'
  | node {entry : Registration} {key parts plans st st₁ st' nodes} {c : Construct Node} :
      c.shorthandKey? = key.map (bareName ctx) → entry.Reads ctx c →
      Converts ctx parts ((entry :: key.toList.map .bare).foldl (·.entered ctx) st) c.children st₁ →
      Converts ctx plans { st₁ with comments := (st₁.comments.take (entry.origin ctx).doc).2 }
        nodes st' →
      Converts ctx (.node entry key parts :: plans) st
        (.mk c entry.span (ctx.line entry.first)
          (st₁.comments.take (entry.origin ctx).doc).1 :: nodes) st'

@[simp] theorem Registration.origin_span (ctx : BuildContext) (r : Registration) :
    (r.origin ctx).span = r.span := by
  cases r <;> rfl

@[simp] theorem Registration.origin_line (ctx : BuildContext) (r : Registration) :
    (r.origin ctx).line = ctx.line r.first := by
  cases r <;> rfl

theorem BuildState.foldl_entered_origins (ctx : BuildContext) (rs : List Registration)
    (st : BuildState) :
    (rs.foldl (·.entered ctx) st).table.origins.toList =
      st.table.origins.toList ++ rs.map (·.origin ctx) := by
  induction rs generalizing st with
  | nil => simp
  | cons r rs ih =>
    rw [List.foldl_cons, ih, entered, IdentityTable.register, Array.toList_push, List.append_assoc]
    rfl

theorem BuildState.foldl_entered_comments (ctx : BuildContext) (rs : List Registration)
    (st : BuildState) : (rs.foldl (·.entered ctx) st).comments = st.comments := by
  induction rs generalizing st with
  | nil => rfl
  | cons r rs ih => exact ih _

/-- The nodes of a finished node: itself, its key and what its parts are converted to. -/
theorem Node.preorder_mk {ctx : BuildContext} {c : Construct Node} {key : Option Site}
    (hk : c.shorthandKey? = key.map (bareName ctx)) (span : Span) (line : Nat)
    (doc : Option Comment) :
    (Node.mk c span line doc).preorder =
      .mk c span line doc ::
        (key.toList.map (bareName ctx) ++ c.children.flatMap Node.preorder) := by
  have keys : (mk c span line doc).construct.shorthandKey?.toList.flatMap preorder =
      key.toList.map (bareName ctx) := by
    rw [construct, hk]
    cases key <;> rfl
  rw [preorder_eq_key_children, keys, children, construct]

namespace Converts

variable {ctx : BuildContext} {st st₁ st' : BuildState}

theorem append {as bs : List Plan} {xs ys : List Node} (h : Converts ctx as st xs st₁)
    (h' : Converts ctx bs st₁ ys st') : Converts ctx (as ++ bs) st (xs ++ ys) st' := by
  induction h with
  | nil => exact h'
  | convert hk hs _ _ ih => exact .convert hk hs (ih h')
  | node hk reads hp _ _ ih => exact .node hk reads hp (ih h')

/-- The identity table grows by the roll of the plans. -/
theorem table_eq {plans : List Plan} {nodes : List Node} (h : Converts ctx plans st nodes st') :
    st'.table.origins.toList =
      st.table.origins.toList ++ (rollAll Site.roll plans).map (·.origin ctx) := by
  induction h with
  | nil => simp
  | @convert s plans st st₁ st' n nodes _ _ _ ihs ihp =>
    rw [ihp, ihs, ← roll_eq, rollAll_convert, List.map_append, List.append_assoc]
  | node _ _ _ _ ihp ihr =>
    rw [ihr, ihp, BuildState.foldl_entered_origins, rollAll_node]
    simp only [List.map_append, List.map_cons, List.append_assoc, List.cons_append]

end Converts

namespace Conversion

/-! ## Entering and finishing -/

theorem takeDoc_run (doc : Option Nat) (st : BuildState) :
    takeDoc doc st =
      .ok (st.comments.take doc).1 { st with comments := (st.comments.take doc).2 } := by
  cases doc <;> rfl

theorem finish_run (place : Nat) (c : Construct Node) (st : BuildState) :
    finish place c st =
      let origin := (st.table.origin? place).getD .missing
      .ok (.mk c origin.span origin.line (st.comments.take origin.doc).1)
        { st with comments := (st.comments.take origin.doc).2 } := by
  show EStateM.bind (takeDoc ((st.table.origin? place).getD .missing).doc) _ st = _
  unfold EStateM.bind
  rw [takeDoc_run]
  rfl

/-- A name without a comment is entered and finished at once. -/
theorem bareIdentifier_run (ctx : BuildContext) (s : Site) (st : BuildState) :
    bareIdentifier ctx s st = .ok (bareName ctx s) (st.entered ctx (.bare s)) := by
  show finish st.table.size _ (st.entered ctx (.bare s)) = _
  rw [finish_run]
  simp [IdentityTable.origin?, IdentityTable.register, IdentityTable.size, Registration.origin,
    BuildState.entered, CommentRegistry.take, bareName]

variable {ctx : BuildContext} {st st₁ st' : BuildState}

/-- When a node is finished, the table still holds its entry at its place. -/
theorem origin?_of_converts {entry : Registration} {key : Option Site} {parts : List Plan}
    {nodes : List Node}
    (h : Converts ctx parts ((entry :: key.toList.map .bare).foldl (·.entered ctx) st) nodes st₁) :
    st₁.table.origin? st.table.size = some (entry.origin ctx) := by
  have table := h.table_eq
  rw [BuildState.foldl_entered_origins, List.map_cons, List.append_assoc, List.cons_append] at table
  rw [IdentityTable.origin?, IdentityTable.size, ← Array.getElem?_toList, table, ← Array.length_toList,
    List.getElem?_append_right (Nat.le_refl _), Nat.sub_self]
  rfl

/-- The output node of an entry whose parts have been converted. -/
theorem finish_converts {entry : Registration} {key : Option Site} {parts : List Plan}
    {c : Construct Node} {n : Node} (hk : c.shorthandKey? = key.map (bareName ctx))
    (hp : Converts ctx parts ((entry :: key.toList.map .bare).foldl (·.entered ctx) st)
      c.children st₁)
    (hf : finish st.table.size c st₁ = .ok n st') (reads : entry.Reads ctx c) :
    Converts ctx [.node entry key parts] st [n] st' := by
  rw [finish_run, origin?_of_converts hp] at hf
  simp only [Option.getD_some, Registration.origin_span, Registration.origin_line] at hf
  cases hf
  exact .node hk reads hp .nil

theorem bareName_converts (ctx : BuildContext) (s : Site) (st : BuildState) :
    Converts ctx [.node (.bare s) none []] st [bareName ctx s] (st.entered ctx (.bare s)) :=
  finish_converts rfl .nil (bareIdentifier_run ctx s st) ⟨s, rfl, rfl⟩

/-! ## Parts -/

/-- A way to convert sites follows a way to plan them. -/
def Follows (ctx : BuildContext) (convert : Converter) (plan : Site → Plan) : Prop :=
  ∀ ⦃s st n st'⦄, convert s st = .ok n st' → Converts ctx [plan s] st [n] st'

theorem all_converts {convert : Converter} {plan : Site → Plan} (hc : Follows ctx convert plan)
    {sites : List Site} {nodes : List Node} (h : all convert sites st = .ok nodes st') :
    Converts ctx (sites.map plan) st nodes st' := by
  induction sites generalizing st nodes with
  | nil =>
    obtain ⟨rfl, rfl⟩ := pure_ok.1 h
    exact .nil
  | cons s rest ih =>
    simp only [all, bind_ok, pure_ok] at h
    obtain ⟨n, _, hn, ns, _, hns, rfl, rfl⟩ := h
    exact (hc hn).append (ih hns)

variable {convert : Converter} (hc : Follows ctx convert .convert) {s : Site}
include hc

theorem optional_converts {target : Option Site} {node : Option Node}
    (h : optional convert target st = .ok node st') :
    Converts ctx (target.toList.map .convert) st node.toList st' := by
  cases target with
  | none =>
    obtain ⟨rfl, rfl⟩ := pure_ok.1 h
    exact .nil
  | some target =>
    simp only [optional, bind_ok, pure_ok] at h
    obtain ⟨n, _, hn, rfl, rfl⟩ := h
    exact hc hn

theorem firstMember_converts {n : Node} (h : firstMember ctx convert s st = .ok n st') :
    Converts ctx (s.firstMember?.toList.map .convert) st [n] st' := by
  simp only [firstMember, bind_ok, ctx_firstMember_ok] at h
  obtain ⟨child, _, ⟨hm, rfl⟩, hn⟩ := h
  rw [hm]
  exact hc hn

theorem child_converts {name : String} {child : Site} {n : Node} (hf : s.field? name = some child)
    (h : convert child st = .ok n st') :
    Converts ctx ((s.reading (name, .first)).map .convert) st [n] st' := by
  rw [ParseTree.Site.reading, hf]
  exact hc h

theorem field_converts {name : String} {n : Node} (h : field ctx convert s name st = .ok n st') :
    Converts ctx ((s.reading (name, .first)).map .convert) st [n] st' := by
  simp only [field, bind_ok, ctx_field_ok] at h
  obtain ⟨child, _, ⟨hf, rfl⟩, hn⟩ := h
  exact child_converts hc hf hn

theorem optionalField_converts {name : String} {node : Option Node}
    (h : optionalField convert s name st = .ok node st') :
    Converts ctx ((s.reading (name, .first)).map .convert) st node.toList st' :=
  optional_converts hc h

theorem elements_converts {awaiting : Bool} {sites : List Site} {nodes : List (Option Node)}
    (h : elements convert awaiting sites st = .ok nodes st') :
    Converts ctx ((sites.filter fun c => c.label.named).map .convert) st (nodes.filterMap id)
      st' := by
  induction sites generalizing awaiting st nodes with
  | nil =>
    obtain ⟨rfl, rfl⟩ := pure_ok.1 h
    exact .nil
  | cons s rest ih =>
    rw [elements] at h
    by_cases named : s.label.named
    · rw [if_pos named] at h
      simp only [bind_ok, pure_ok] at h
      obtain ⟨n, _, hn, ns, _, hns, rfl, rfl⟩ := h
      simp only [List.filter_cons, named, if_true]
      exact (hc hn).append (ih hns)
    rw [if_neg named] at h
    simp only [List.filter_cons, named, Bool.false_eq_true, if_false]
    by_cases comma : s.kind = ","
    · rw [if_pos comma] at h
      simp only [bind_ok, pure_ok] at h
      obtain ⟨ns, _, hns, rfl, rfl⟩ := h
      have rest := ih hns
      cases awaiting <;> exact rest
    · rw [if_neg comma] at h
      exact ih h

end Conversion

end ScriptTree
