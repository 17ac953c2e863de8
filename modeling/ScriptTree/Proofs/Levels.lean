import ScriptTree.Proofs.Converts
import ScriptTree.Proofs.Parallels

/-!
# Bounds on levels

A conversion is given a bound on the levels of its site. The bound only has to be high enough: with
any such bound the site is converted as it is with its own height (`upTo_eq_node`), in every state
and also if it fails. This is a conversion beside itself, with two bounds. So the conversion of a
site is one step with itself for the parts (`node_eq_step`).
-/
namespace ScriptTree.Conversion

open ParseTree (Site)

/-- Every site looks like itself. -/
theorem alike_self (source : Source) (s : Site) : s.Alike source source Eq Eq s := by
  have same (sites : List Site) : List.Forall₂ Eq sites sites := List.forall₂_eq_eq_eq.symm ▸ rfl
  refine .plain (.refl source s.label) rfl (same _) (same _) (fun name => ?_) (fun _ => same _)
    fun _ _ h => h ▸ rfl
  cases s.field? name with
  | none => exact .none
  | some c => exact .some rfl

/-- An entry is made in the same way in both runs. -/
theorem enter_self (o : Origin) : Parallel Eq (id : Nat → Nat) id (enter o) (enter o) := by
  rintro st _ rfl
  exact .inl ⟨st.table.size, _, _, rfl, rfl, rfl⟩

/-- A conversion goes along with itself. -/
theorem self_corresponds (ctx : BuildContext) :
    Correspondence ctx ctx Eq id (Eq : Node → Node → Prop) Eq Eq := by
  refine .plain (fun _ _ h => h ▸ rfl) (fun s _ h => h ▸ alike_self ctx.source s)
    (fun _ _ h => h ▸ enter_self _) enter_self fun place c => ?_
  have views : Pair.left (R := (Eq : Node → Node → Prop)) = Pair.right :=
    funext fun pair => pair.related
  rintro st _ rfl
  rw [views, finish_run, finish_run]
  exact .inl ⟨⟨_, _, rfl⟩, _, _, rfl, rfl, rfl⟩

/-- Conversions that go side by side from one state to one node are the same. -/
theorem Parallel.eq {x y : Conversion Node}
    (h : Parallel Eq (Pair.left (R := (Eq : Node → Node → Prop))) Pair.right x y) : x = y := by
  funext st
  rcases h (Eq.refl st) with ⟨pair, t, t', left, right, rfl⟩ | ⟨e, t, t', -, left, right, rfl⟩
  · rw [left, right, pair.related]
  · rw [left, right]

/-- A bound that is high enough does not matter. -/
theorem upTo_eq_node (ctx : BuildContext) {s : Site} {levels : Nat} (h : s.tree.height ≤ levels) :
    upTo ctx levels s = node ctx s :=
  (upTo_parallel (self_corresponds ctx) rfl h (Nat.le_refl _)).eq

/-- A site is converted in one step, with the same conversion for its parts. -/
theorem node_eq_step (ctx : BuildContext) (s : Site) : node ctx s = step ctx (node ctx) s := by
  let Lower (c c' : Site) : Prop := c = c' ∧ c.tree.height < s.tree.height
  have alike {c c' : Site} (same : c = c') (low : c.tree.height ≤ s.tree.height) :
      c.Alike ctx.source ctx.source Lower Lower c' := by
    subst same
    have lower {d d' : Site} (h : d = d' ∧ d ∈ c.children ∧ d' ∈ c.children) : Lower d d' :=
      ⟨h.1, Nat.lt_of_lt_of_le (ParseTree.Site.height_lt_of_mem_children h.2.1) low⟩
    exact (alike_self ctx.source c).among.mono (fun _ _ => lower) fun _ _ => lower
  have cor : Correspondence ctx ctx Eq id (Eq : Node → Node → Prop) Lower Lower :=
    .plain (fun _ _ h => h.1 ▸ rfl) (fun c c' h => alike h.1 (Nat.le_of_lt h.2))
      (fun _ _ h => h.1 ▸ enter_self _) enter_self (self_corresponds ctx).finish
  obtain ⟨levels, bound⟩ := Nat.exists_eq_succ_of_ne_zero (Nat.pos_iff_ne_zero.1 s.height_pos)
  have parts : ∀ ⦃c c'⦄, Lower c c' → Parallel Eq (Pair.left (R := (Eq : Node → Node → Prop)))
      Pair.right (upTo ctx levels c) (node ctx c') := by
    rintro c _ ⟨rfl, low⟩
    exact upTo_parallel (self_corresponds ctx) rfl (by omega) (Nat.le_refl _)
  rw [node, bound, upTo]
  exact (step_parallel cor (alike rfl (Nat.le_refl _)) parts (enter_self _)).eq

end ScriptTree.Conversion
