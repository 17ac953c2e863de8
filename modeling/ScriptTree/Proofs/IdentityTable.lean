import Mathlib.Data.List.Forall2
import ScriptTree.Proofs.Constructs
import ScriptTree.Proofs.SourceOctets

/-!
# The identity table lists the nodes

Main result `table_lists_nodes`: after a build that succeeds, the entries of the identity table are
the nodes of the program in preorder, each with its place and line.
-/
namespace ScriptTree

open ParseTree (Site)

/-- Whether a node is a shorthand property. -/
def Node.isShorthand (n : Node) : Bool :=
  n.construct.shorthandKey?.isSome

/-- A node is what an entry stands for: it has its place and line, and it says what stands there. -/
structure Registration.Makes (ctx : BuildContext) (r : Registration) (n : Node) : Prop where
  span : n.span = r.span
  line : n.line = ctx.line r.first
  reads : r.Reads ctx n.construct

namespace Converts

variable {ctx : BuildContext} {plans : List Plan} {nodes : List Node} {st st' : BuildState}

/-- Nodes are met in preorder in the order in which they have been entered, and each is what its
entry makes. -/
theorem made (h : Converts ctx plans st nodes st') :
    List.Forall₂ (Registration.Makes ctx) (rollAll Site.roll plans)
      (nodes.flatMap Node.preorder) := by
  induction h with
  | nil => exact .nil
  | convert _ _ _ ihs ihp =>
    rw [List.flatMap_cons, rollAll_convert, roll_eq]
    rw [List.flatMap_singleton] at ihs
    exact List.rel_append ihs ihp
  | @node entry key _ _ _ _ _ _ c hk reads _ _ ihp ihr =>
    have keys : List.Forall₂ (Registration.Makes ctx) (key.toList.map .bare)
        (key.toList.map (bareName ctx)) := by
      cases key with
      | none => exact .nil
      | some name => exact .cons ⟨rfl, rfl, name, rfl, rfl⟩ .nil
    rw [List.flatMap_cons, Node.preorder_mk hk, rollAll_node]
    exact List.rel_append (.cons ⟨rfl, rfl, reads⟩ (List.rel_append keys ihp)) ihr

theorem positions_eq (h : Converts ctx plans st nodes st') :
    (nodes.flatMap Node.preorder).map (fun n => (n.span, n.line)) =
      (rollAll Site.roll plans).map fun r => (r.span, ctx.line r.first) := by
  symm
  rw [← List.forall₂_eq_eq_eq, List.forall₂_map_left_iff, List.forall₂_map_right_iff]
  exact h.made.imp fun r n made => Prod.ext made.span.symm made.line.symm

/-- A walk passes over one node for each shorthand property: its key. -/
theorem length_preorder (h : Converts ctx plans st nodes st') :
    (nodes.flatMap Node.preorder).length =
      (nodes.flatMap Node.walk).length + (nodes.flatMap Node.walk).countP Node.isShorthand := by
  induction h with
  | nil => rfl
  | convert _ _ _ ihs ihp =>
    rw [List.flatMap_singleton, List.flatMap_singleton] at ihs
    rw [List.flatMap_cons, List.flatMap_cons, List.length_append, List.length_append,
      List.countP_append]
    omega
  | @node entry key _ _ _ _ _ _ c hk _ _ _ ihp ihr =>
    have shorthand (span line doc) : (Node.mk c span line doc).isShorthand = key.isSome := by
      rw [Node.isShorthand, Node.construct, hk, Option.isSome_map]
    have children (span line doc) : (Node.mk c span line doc).children = c.children := rfl
    rw [List.flatMap_cons, List.flatMap_cons, List.length_append, List.length_append,
      List.countP_append, Node.preorder_mk hk, Node.walk_eq, List.countP_cons, List.length_cons,
      List.length_cons, List.length_append, List.length_map, shorthand, children]
    have keys : key.toList.length = if key.isSome = true then 1 else 0 := by
      cases key <;> rfl
    omega

end Converts

/-- What stands in the second of two lists that are related is related to something in the first. -/
theorem exists_related {α β : Type} {R : α → β → Prop} {as : List α} {bs : List β}
    (related : List.Forall₂ R as bs) {b : β} (hb : b ∈ bs) : ∃ a ∈ as, R a b := by
  induction related with
  | nil => cases hb
  | cons first _ ih =>
    rcases List.mem_cons.1 hb with rfl | hb
    · exact ⟨_, List.mem_cons_self, first⟩
    · obtain ⟨a, ha, holds⟩ := ih hb
      exact ⟨a, List.mem_cons_of_mem _ ha, holds⟩

namespace BuildContext

variable {ctx : BuildContext} {root : ParseTree} {p : Program} {n : Node}

/-- Each node of a program is what an entry of the roll makes. -/
theorem made_of_build (h : (ctx.build root).result = .ok p) (hn : n ∈ p.nodes) :
    ∃ r ∈ root.roll, r.Makes ctx n := by
  obtain ⟨-, body, -⟩ := build_converts h
  have made := body.made
  rw [rollAll_map_convert] at made
  exact exists_related made hn

/-- If the rows of the parse tree count the line feeds, then so do the lines of a program, also
those of nodes that no single node of the parse tree stands for. -/
theorem line_of_build (h : (ctx.build root).result = .ok p) (rows : root.CountsRows ctx.source)
    (hn : n ∈ p.nodes) : n.line = 1 + ctx.source.lineFeeds n.span.start := by
  obtain ⟨r, hr, made⟩ := made_of_build h hn
  rw [made.line, made.span, r.start_span]
  exact rows.line (ParseTree.tree_mem_preorder (ParseTree.first_mem_preorderSites hr))

end BuildContext

/-- After a build that succeeds, the entries of the identity table are the nodes of the program in
preorder, where a shorthand property has its key right before its value. So there is one more entry
than a walk meets nodes for each shorthand property, and no node has been made without an entry:
what stands in for a missing one has a line of its own. -/
theorem table_lists_nodes (session : BuildSession) (source : Source) (root : ParseTree)
    (p : Program) (h : (session.build source root).1 = .ok p) :
    (session.build source root).2.state.table.origins.toList.map (fun o => (o.span, o.line)) =
        p.nodes.map (fun n => (n.span, n.line)) ∧
      (session.build source root).2.nodeCount = p.nodes.length ∧
      (session.build source root).2.nodeCount =
        p.nodeCount + p.walk.countP Node.isShorthand ∧
      ∀ n ∈ p.nodes, n.line ≠ Origin.missing.line := by
  obtain ⟨-, body, -⟩ :=
    @BuildContext.build_converts ⟨source, session.style⟩ root p h
  have table : (session.build source root).2.state.table.origins.toList =
      (rollAll Site.roll ((ParseTree.rootSite root).members.map .convert)).map
        (·.origin ⟨source, session.style⟩) := body.table_eq
  have positions : (session.build source root).2.state.table.origins.toList.map
      (fun o => (o.span, o.line)) = p.nodes.map (fun n => (n.span, n.line)) := by
    rw [table, List.map_map, Program.nodes, body.positions_eq]
    refine List.map_congr_left fun r _ => ?_
    rw [Function.comp_apply, Registration.origin_span, Registration.origin_line]
  have count : (session.build source root).2.nodeCount = p.nodes.length := by
    have := congrArg List.length positions
    rwa [List.length_map, List.length_map] at this
  refine ⟨positions, count, count.trans body.length_preorder, fun n hn => ?_⟩
  -- The line of every entry is counted from one.
  obtain ⟨r, -, made⟩ := @BuildContext.made_of_build ⟨source, session.style⟩ root p n h hn
  rw [made.line, BuildContext.line, Source.lineOf]
  exact fun h => Nat.succ_ne_zero _ ((Nat.add_comm _ _).trans h)

theorem table_lists_loop_nodes :
    ∃ p, ((BuildSession.start .single).build loopSource loopTree).1 = .ok p ∧
      ((BuildSession.start .single).build loopSource loopTree).2.nodeCount = p.nodeCount + 1 := by
  obtain ⟨p, hp, one⟩ := exists_ok_of_map
    (f := fun p : Program => p.walk.countP Node.isShorthand) (b := 1)
    (r := ((BuildSession.start .single).build loopSource loopTree).1) (by decide +kernel)
  exact ⟨p, hp, one ▸ (table_lists_nodes (.start .single) loopSource loopTree p hp).2.2.1⟩

end ScriptTree
