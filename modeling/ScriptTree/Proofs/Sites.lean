import Mathlib.Data.List.Flatten
import Mathlib.Data.List.Nodup
import Mathlib.Data.List.Perm.Subperm
import ScriptTree.ParseTree.Comments

/-!
# Sites below a site

The nodes of a parse tree where they stand. Every way to children picks sites from `Site.subtree`,
and ways through different fields never pick the same child (`flatMap_field_subperm`).
-/
namespace ScriptTree.ParseTree

namespace Site

/-- All sites below a site, in preorder. -/
def below (s : Site) : List Site :=
  forestSites none s.tree.children

/-- A site and all sites below it. -/
def subtree (s : Site) : List Site :=
  s :: s.below

/-- The children in a field. -/
def fieldChildren (s : Site) (name : String) : List Site :=
  s.children.filter fun c => c.label.field == some name

end Site

theorem preorderSites_eq (previous : Option ParseTree) (tree : ParseTree) :
    preorderSites previous tree = Site.subtree ⟨tree, previous⟩ := by
  cases tree
  rfl

theorem forestSites_eq (previous : Option ParseTree) (trees : List ParseTree) :
    forestSites previous trees = (sitesAfter previous trees).flatMap Site.subtree := by
  induction trees generalizing previous with
  | nil => rfl
  | cons tree trees ih => rw [forestSites, preorderSites_eq, ih, sitesAfter, List.flatMap_cons]

theorem map_tree_sitesAfter (previous : Option ParseTree) (trees : List ParseTree) :
    (sitesAfter previous trees).map Site.tree = trees := by
  induction trees generalizing previous with
  | nil => rfl
  | cons tree trees ih => rw [sitesAfter, List.map_cons, ih]

mutual

theorem map_tree_preorderSites (previous : Option ParseTree) : ∀ tree : ParseTree,
    (preorderSites previous tree).map Site.tree = tree.preorder
  | node label children => by
    rw [preorderSites, List.map_cons, map_tree_forestSites none children, preorder]

theorem map_tree_forestSites (previous : Option ParseTree) : ∀ trees : List ParseTree,
    (forestSites previous trees).map Site.tree = forestPreorder trees
  | [] => rfl
  | tree :: trees => by
    rw [forestSites, List.map_append, map_tree_preorderSites previous tree,
      map_tree_forestSites (some tree) trees, forestPreorder]

end

theorem tree_mem_preorder {previous : Option ParseTree} {tree : ParseTree} {s : Site}
    (h : s ∈ preorderSites previous tree) : s.tree ∈ tree.preorder :=
  map_tree_preorderSites previous tree ▸ List.mem_map_of_mem h

namespace Site

theorem below_eq (s : Site) : s.below = s.children.flatMap subtree :=
  forestSites_eq none s.tree.children

theorem mem_below {s c : Site} : c ∈ s.below ↔ ∃ d ∈ s.children, c ∈ d.subtree := by
  rw [below_eq, List.mem_flatMap]

theorem mem_subtree_self (s : Site) : s ∈ s.subtree :=
  List.mem_cons_self

/-! ## Height -/

theorem height_pos (s : Site) : 0 < s.tree.height := by
  cases s.tree
  exact Nat.succ_pos _

theorem height_le_forestHeight {tree : ParseTree} {trees : List ParseTree} (h : tree ∈ trees) :
    tree.height ≤ forestHeight trees := by
  induction trees with
  | nil => cases h
  | cons first rest ih =>
    rw [forestHeight]
    rcases List.mem_cons.1 h with rfl | h
    · omega
    · have := ih h
      omega

theorem height_lt_of_mem_children {s c : Site} (h : c ∈ s.children) :
    c.tree.height < s.tree.height := by
  have hc : c.tree ∈ s.tree.children := by
    rw [← map_tree_sitesAfter none s.tree.children]
    exact List.mem_map_of_mem h
  have := height_le_forestHeight hc
  cases hs : s.tree with
  | node label children =>
    rw [hs] at this
    rw [height]
    exact Nat.lt_succ_of_le this

theorem height_lt_of_mem_below {s c : Site} (h : c ∈ s.below) :
    c.tree.height < s.tree.height := by
  obtain ⟨d, hd, hc⟩ := mem_below.1 h
  have hlt := height_lt_of_mem_children hd
  rcases List.mem_cons.1 hc with rfl | hc
  · exact hlt
  · exact Nat.lt_trans (height_lt_of_mem_below hc) hlt
termination_by s.tree.height

theorem below_subset {s c : Site} (h : c ∈ s.below) : c.below ⊆ s.below := by
  obtain ⟨d, hd, hc⟩ := mem_below.1 h
  have hlt := height_lt_of_mem_children hd
  intro x hx
  refine mem_below.2 ⟨d, hd, ?_⟩
  rcases List.mem_cons.1 hc with rfl | hc
  · exact List.mem_cons_of_mem _ hx
  · exact List.mem_cons_of_mem _ (below_subset hc hx)
termination_by s.tree.height

theorem subtree_subset {s c : Site} (h : c ∈ s.subtree) : c.subtree ⊆ s.subtree := by
  rcases List.mem_cons.1 h with rfl | h
  · exact fun _ hx => hx
  · exact List.cons_subset.2 ⟨List.mem_cons_of_mem _ h,
      fun _ hx => List.mem_cons_of_mem _ (below_subset h hx)⟩

theorem map_tree_subtree (s : Site) : s.subtree.map tree = s.tree.preorder := by
  rw [← preorderSites_eq s.previous s.tree, map_tree_preorderSites]

theorem preorder_subset {s c : Site} (h : c ∈ s.subtree) : c.tree.preorder ⊆ s.tree.preorder := by
  rw [← map_tree_subtree, ← map_tree_subtree]
  exact List.map_subset tree (subtree_subset h)

theorem preorder_subset_of_mem_children {s c : Site} (h : c ∈ s.children) :
    c.tree.preorder ⊆ s.tree.preorder :=
  preorder_subset (List.mem_cons_of_mem _ (mem_below.2 ⟨c, h, c.mem_subtree_self⟩))

/-! ## Ways to children -/

theorem members_sublist (s : Site) : s.members.Sublist s.children :=
  List.filter_sublist

/-- Nodes with distinct identities have distinct members. -/
theorem members_nodup {s : Site} (distinct : (s.tree.preorder.map fun t => t.label.id).Nodup) :
    s.members.Nodup := by
  rw [← map_tree_subtree, List.map_map] at distinct
  have below : s.below.Nodup := (List.nodup_cons.1 distinct.of_map).2
  rw [below_eq, List.nodup_flatMap] at below
  refine List.Sublist.nodup s.members_sublist (below.2.imp ?_)
  rintro c _ apart rfl
  exact apart c.mem_subtree_self c.mem_subtree_self

theorem tokens_sublist (s : Site) : s.tokens.Sublist s.children :=
  List.filter_sublist

theorem firstMember?_sublist (s : Site) : s.firstMember?.toList.Sublist s.children := by
  refine List.Sublist.trans ?_ s.members_sublist
  unfold firstMember?
  cases s.members <;> simp

theorem field?_sublist (s : Site) (name : String) :
    (s.field? name).toList.Sublist (s.fieldChildren name) := by
  unfold field? fieldChildren
  rw [← List.head?_filter]
  cases s.children.filter fun c => c.label.field == some name <;> simp

theorem fieldMembers_eq (s : Site) (name : String) :
    s.fieldMembers name = (s.fieldChildren name).filter fun c => c.label.named && !c.label.extra := by
  unfold fieldMembers fieldChildren
  rw [List.filter_filter]
  refine List.filter_congr fun c _ => ?_
  rw [Bool.and_assoc, Bool.and_comm]

theorem fieldMembers_sublist (s : Site) (name : String) :
    (s.fieldMembers name).Sublist (s.fieldChildren name) := by
  rw [fieldMembers_eq]
  exact List.filter_sublist

theorem mem_children_of_field? {s c : Site} {name : String} (h : s.field? name = some c) :
    c ∈ s.children :=
  List.mem_of_find?_eq_some h

end Site

/-- Sites are sorted by their fields without losing one or taking one twice. -/
theorem flatMap_field_perm {names : List String} (hn : names.Nodup) (sites : List Site) :
    (names.flatMap fun name => sites.filter fun c => c.label.field == some name).Perm
      (sites.filter fun c => names.any fun name => c.label.field == some name) := by
  induction names generalizing sites with
  | nil => simp
  | cons name names ih =>
    obtain ⟨hname, hn⟩ := List.nodup_cons.1 hn
    let p : Site → Bool := fun c => c.label.field == some name
    -- The other fields only see what is not in the first one.
    have others : (names.flatMap fun other => sites.filter fun c => c.label.field == some other) =
        names.flatMap fun other =>
          (sites.filter fun c => !p c).filter fun c => c.label.field == some other := by
      refine List.flatMap_congr fun other ho => ?_
      have : other ≠ name := fun h => hname (h ▸ ho)
      rw [List.filter_filter]
      refine List.filter_congr fun c _ => ?_
      grind
    have parts := List.filter_append_perm p
      (sites.filter fun c => (name :: names).any fun name => c.label.field == some name)
    rw [List.filter_filter, List.filter_filter] at parts
    rw [List.flatMap_cons, others]
    refine ((ih hn _).append_left _).trans ?_
    rw [List.filter_filter]
    refine List.Perm.trans (List.Perm.of_eq ?_) parts
    congr 1 <;> refine List.filter_congr fun c _ => ?_ <;> simp only [p, List.any_cons] <;> grind

/-- Children in different fields are different children. -/
theorem flatMap_field_subperm {names : List String} (hn : names.Nodup) (sites : List Site) :
    (names.flatMap fun name => sites.filter fun c => c.label.field == some name).Subperm sites :=
  (flatMap_field_perm hn sites).subperm.trans List.filter_sublist.subperm

/-! ## The sibling before a site -/

mutual

theorem previous_preorderSites_subperm (previous : Option ParseTree) : ∀ tree : ParseTree,
    ((preorderSites previous tree).filterMap Site.previous).Subperm
      (previous.toList ++ forestPreorder tree.children)
  | node label children => by
    have below := previous_forestSites_subperm none children
    have split : (preorderSites previous (node label children)).filterMap Site.previous =
        previous.toList ++ (forestSites none children).filterMap Site.previous := by
      cases previous <;> rfl
    rw [split]
    exact (List.subperm_append_left _).2 below

/-- A node is the sibling before one other node at most. -/
theorem previous_forestSites_subperm (previous : Option ParseTree) : ∀ trees : List ParseTree,
    ((forestSites previous trees).filterMap Site.previous).Subperm
      (previous.toList ++ forestPreorder trees)
  | [] => List.nil_subperm
  | tree :: trees => by
    have first := previous_preorderSites_subperm previous tree
    have rest := previous_forestSites_subperm (some tree) trees
    have split : forestPreorder (tree :: trees) =
        tree :: (forestPreorder tree.children ++ forestPreorder trees) := by
      cases tree
      rfl
    rw [forestSites, List.filterMap_append, split]
    refine (first.append rest).trans (List.Perm.subperm ?_)
    rw [List.append_assoc]
    exact List.perm_middle.append_left _

end

theorem previous_subperm_preorder (root : ParseTree) :
    ((root.preorderSites none).filterMap Site.previous).Subperm root.preorder := by
  refine (previous_preorderSites_subperm none root).trans ?_
  cases root
  exact (List.sublist_cons_self _ _).subperm

end ScriptTree.ParseTree
