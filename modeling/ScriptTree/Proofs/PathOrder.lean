import Mathlib.Data.List.Sort
import ScriptTree.Path.Basic

/-!
# The order of paths

Paths are compared step by step, and steps by their kinds before names are compared by their octets.
Only paths with the same steps are at one place of that order, so what is left of paths once they
are sorted and such neighbours are merged is strictly increasing (`sortedSet_increasing`), and the
steps that occur tell it up to the way they are written (`map_components_eq`).
-/
namespace ScriptTree.Path

namespace Component

/-- The octets of a name; the other steps have none. -/
def octets : Component → List UInt8
  | .name octets => octets
  | _ => []

/-- Steps are compared by their kinds first. -/
theorem compare_eq : compare = compareLex (compareOn compare.rank) (compareOn octets) := by
  funext a b
  cases a <;> cases b <;> rfl

instance : Std.TransCmp compare := by
  rw [compare_eq]
  infer_instance

theorem eq_of_compare {a b : Component} (h : compare a b = .eq) : a = b := by
  cases a <;> cases b
  case name.name => exact congrArg name (Std.LawfulEqCmp.eq_of_compare h)
  all_goals first | rfl | cases h

instance : Std.LawfulEqCmp compare where
  compare_self := Std.ReflCmp.compare_self
  eq_of_compare := eq_of_compare

end Component

instance : Std.TransCmp compare where
  eq_swap := (inferInstance : Std.TransCmp (List.compareLex Component.compare)).eq_swap
  isLE_trans := (inferInstance : Std.TransCmp (List.compareLex Component.compare)).isLE_trans

/-- Paths at one place of the order have the same steps. -/
theorem components_eq_of_compare {p q : Path} (h : p.compare q = .eq) :
    p.components = q.components :=
  (inferInstance : Std.LawfulEqCmp (List.compareLex Component.compare)).eq_of_compare h

theorem isAtMost_trans (p q r : Path) (h : p.isAtMost q = true) (h' : q.isAtMost r = true) :
    p.isAtMost r = true :=
  Std.TransCmp.isLE_trans h h'

theorem isAtMost_total (p q : Path) : (p.isAtMost q || q.isAtMost p) = true := by
  have swapped : p.compare q = (q.compare p).swap := Std.OrientedCmp.eq_swap
  rw [isAtMost, isAtMost, swapped]
  cases q.compare p <;> rfl

/-- A path that stands before another one has other steps. -/
theorem components_ne_of_compare {p q : Path} (h : p.compare q = .lt) :
    p.components ≠ q.components := by
  intro same
  have self : p.compare q = .eq := by
    rw [compare, same]
    exact Std.ReflCmp.compare_self
  rw [h] at self
  cases self

/-- A path that stands before another one or at its place, with other steps, stands before it. -/
theorem compare_lt_of_isAtMost {p q : Path} (h : p.isAtMost q = true)
    (ne : p.components ≠ q.components) : p.compare q = .lt := by
  rw [isAtMost] at h
  cases order : p.compare q with
  | lt => rfl
  | eq => exact absurd (components_eq_of_compare order) ne
  | gt => rw [order] at h; cases h

/-- The first of some paths stays, whatever is merged with it, and those after it are beyond it. -/
theorem distinct_increasing {p : Path} {rest : List Path}
    (h : (p :: rest).Pairwise fun p q => p.isAtMost q = true) :
    ∃ others, sortedSet.distinct (p :: rest) = p :: others ∧
      (p :: others).Pairwise fun p q => p.compare q = .lt := by
  induction rest generalizing p with
  | nil => exact ⟨[], rfl, List.pairwise_singleton _ _⟩
  | cons q rest ih =>
    obtain ⟨before, h⟩ := List.pairwise_cons.1 h
    obtain ⟨others, kept, increasing⟩ := ih h
    obtain ⟨beyond, sorted⟩ := List.pairwise_cons.1 increasing
    by_cases same : p.components = q.components
    · refine ⟨others, by rw [sortedSet.distinct, kept]; exact if_pos same, ?_⟩
      refine List.pairwise_cons.2 ⟨fun r hr => ?_, sorted⟩
      rw [compare, same]
      exact beyond r hr
    · have first : p.compare q = .lt :=
        compare_lt_of_isAtMost (before q List.mem_cons_self) same
      refine ⟨q :: others, by rw [sortedSet.distinct, kept]; exact if_neg same, ?_⟩
      refine List.pairwise_cons.2 ⟨?_, increasing⟩
      exact List.forall_mem_cons.2 ⟨first, fun r hr => Std.TransCmp.lt_trans first (beyond r hr)⟩

/-- A sorted set of paths is strictly increasing. -/
theorem sortedSet_increasing (paths : List Path) :
    (sortedSet paths).Pairwise fun p q => p.compare q = .lt := by
  have sorted := List.pairwise_mergeSort isAtMost_trans isAtMost_total paths
  rw [sortedSet]
  cases found : paths.mergeSort isAtMost with
  | nil => exact .nil
  | cons p rest =>
    rw [found] at sorted
    obtain ⟨others, kept, increasing⟩ := distinct_increasing sorted
    rw [kept]
    exact increasing

/-! ## What a sorted set holds -/

/-- The first of some paths stays, whatever is merged with it. -/
theorem exists_distinct_cons (p : Path) (rest : List Path) :
    ∃ others, sortedSet.distinct (p :: rest) = p :: others := by
  induction rest generalizing p with
  | nil => exact ⟨[], rfl⟩
  | cons q rest ih =>
    obtain ⟨others, kept⟩ := ih q
    rw [sortedSet.distinct, kept]
    by_cases same : p.components = q.components
    · exact ⟨others, if_pos same⟩
    · exact ⟨q :: others, if_neg same⟩

/-- Merging leaves some of the paths. -/
theorem distinct_subset (paths : List Path) : sortedSet.distinct paths ⊆ paths := by
  intro f hf
  fun_induction sortedSet.distinct paths with
  | case1 => exact hf
  | case2 p => exact hf
  | case3 p q rest none ih => exact List.mem_singleton.1 hf ▸ List.mem_cons_self
  | case4 p q rest next others kept same ih =>
    rcases List.mem_cons.1 hf with rfl | hf
    · exact List.mem_cons_self
    · exact List.mem_cons_of_mem _ (ih (kept ▸ List.mem_cons_of_mem _ hf))
  | case5 p q rest next others kept apart ih =>
    rcases List.mem_cons.1 hf with rfl | hf
    · exact List.mem_cons_self
    · exact List.mem_cons_of_mem _ (ih (kept ▸ hf))

/-- For every path merging leaves one with the same steps. -/
theorem exists_mem_distinct {f : Path} {paths : List Path} (hf : f ∈ paths) :
    ∃ g ∈ sortedSet.distinct paths, g.components = f.components := by
  fun_induction sortedSet.distinct paths with
  | case1 => cases hf
  | case2 p => exact ⟨f, hf, rfl⟩
  | case3 p q rest none ih =>
    obtain ⟨others, kept⟩ := exists_distinct_cons q rest
    rw [kept] at none
    cases none
  | case4 p q rest next others kept same ih =>
    -- What stays of the rest starts with its first path, in whose place the one before it comes.
    obtain ⟨others', kept'⟩ := exists_distinct_cons q rest
    obtain ⟨rfl, rfl⟩ := List.cons.inj (kept.symm.trans kept')
    rcases List.mem_cons.1 hf with rfl | hf
    · exact ⟨f, List.mem_cons_self, rfl⟩
    · obtain ⟨g, hg, steps⟩ := ih hf
      rw [kept] at hg
      rcases List.mem_cons.1 hg with rfl | hg
      · exact ⟨p, List.mem_cons_self, same.trans steps⟩
      · exact ⟨g, List.mem_cons_of_mem _ hg, steps⟩
  | case5 p q rest next others kept apart ih =>
    rcases List.mem_cons.1 hf with rfl | hf
    · exact ⟨f, List.mem_cons_self, rfl⟩
    · obtain ⟨g, hg, steps⟩ := ih hf
      exact ⟨g, List.mem_cons_of_mem _ (kept ▸ hg), steps⟩

theorem sortedSet_subset (paths : List Path) : sortedSet paths ⊆ paths := by
  intro f hf
  exact List.mem_mergeSort.1 (distinct_subset _ hf)

theorem exists_mem_sortedSet {f : Path} {paths : List Path} (hf : f ∈ paths) :
    ∃ g ∈ sortedSet paths, g.components = f.components :=
  exists_mem_distinct (List.mem_mergeSort.2 hf)

/-- The steps in a sorted set are those of the paths that it was made of. -/
theorem mem_map_components_sortedSet {paths : List Path} {steps : List Component} :
    steps ∈ (sortedSet paths).map components ↔ steps ∈ paths.map components := by
  rw [List.mem_map, List.mem_map]
  constructor
  · rintro ⟨f, hf, rfl⟩
    exact ⟨f, sortedSet_subset paths hf, rfl⟩
  · rintro ⟨f, hf, rfl⟩
    obtain ⟨g, hg, same⟩ := exists_mem_sortedSet hf
    exact ⟨g, hg, same⟩

/-- Increasing lists of paths have the same steps one by one if the same steps occur in them. -/
theorem map_components_eq {ps qs : List Path}
    (hp : ps.Pairwise fun p q => p.compare q = .lt) (hq : qs.Pairwise fun p q => p.compare q = .lt)
    (h : ∀ steps, steps ∈ ps.map components ↔ steps ∈ qs.map components) :
    ps.map components = qs.map components := by
  let below (a b : List Component) : Prop := List.compareLex Component.compare a b = .lt
  have asymmetric {a b : List Component} (h : below a b) : ¬below b a :=
    Std.OrientedCmp.not_lt_of_lt h
  have : Std.Antisymm below := ⟨fun a b h h' => absurd h' (asymmetric h)⟩
  have : Std.Irrefl below := ⟨fun a h => asymmetric h h⟩
  have hp : (ps.map components).Pairwise below := List.pairwise_map.2 hp
  exact hp.eq_of_mem_iff (List.pairwise_map.2 hq) h

end ScriptTree.Path
