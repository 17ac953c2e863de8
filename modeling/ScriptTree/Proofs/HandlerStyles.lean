import ScriptTree.Ast.Output
import ScriptTree.Proofs.Constructs
import ScriptTree.Proofs.Levels

/-!
# The two styles of catch handlers

A build in one style and a build in the other go side by side: they make the same entries and take
the same comments, and their nodes differ in the handlers of `try` statements alone
(`Node.SameButHandlers`). So the style is a matter of format (`style_changes_handlers_only`): it
never decides whether a build succeeds or how it fails, and the tree in one style is that in the
other with its handlers put into a list, at any depth.
-/
namespace ScriptTree

open ParseTree (Site)

/-! ## Handlers in a style -/

namespace CatchHandlers

variable {α : Type}

/-- A handler that stands by itself as the only item of a list. -/
def listed : CatchHandlers α → CatchHandlers α
  | single handler => list handler.toList
  | list handlers => list handlers

end CatchHandlers

namespace Construct

variable {α β : Type}

/-- The construct with the handlers of a `try` statement in a list. -/
def listed : Construct α → Construct α
  | tryStatement block handlers finalizer => .tryStatement block handlers.listed finalizer
  | construct => construct

/-- A construct in the first style becomes what it would have been in the second one. -/
theorem listed_inStyle_single (c : Construct α) :
    (c.inStyle .single).listed = c.inStyle .list := by
  cases c <;> rfl

theorem parts_inStyle (style style' : CatchStyle) (c : Construct α) :
    (c.inStyle style).parts = (c.inStyle style').parts := by
  cases c with
  | tryStatement block handlers finalizer =>
    cases style <;> cases style' <;> cases handlers.toList.head? <;>
      simp [inStyle, parts, CatchHandlers.ofOption, CatchHandlers.toList, *]
  | _ => rfl

theorem children_inStyle (style style' : CatchStyle) (c : Construct α) :
    (c.inStyle style).children = (c.inStyle style').children := by
  cases c with
  | tryStatement block handlers finalizer =>
    exact parts_inStyle style style' (.tryStatement block handlers finalizer)
  | _ => rfl

theorem typeName_inStyle (style : CatchStyle) (c : Construct α) :
    (c.inStyle style).typeName = c.typeName := by
  cases c <;> rfl

theorem typeName_map (f : α → β) (c : Construct α) : (c.map f).typeName = c.typeName := by
  cases c <;> rfl

end Construct

namespace Node

/-- A node in whose subtree all handlers are in lists. -/
def listed : Node → Node :=
  fold fun node parts => .mk parts.listed node.span node.line node.doc

theorem listed_mk (c : Construct Node) (span : Span) (line : Nat) (doc : Option Comment) :
    (Node.mk c span line doc).listed = .mk (c.map listed).listed span line doc := by
  rw [listed, fold_eq]
  rfl

/-- A node that shows its handlers in a style, if it is a `try` statement: of the two fields for
handlers its output form has the one of the style, and a list has one item at most. No handler is
guarded. -/
def HasHandlersIn (style : CatchStyle) (n : Node) : Prop :=
  ∀ block handlers finalizer, n.construct = .tryStatement block handlers finalizer →
    n.toJson.field? "guardedHandlers" = some (.array []) ∧
      match style, handlers with
      | .single, .single handler =>
        n.toJson.field? "handler" = some (.ofOption (handler.map toJson)) ∧
          n.toJson.field? "handlers" = none
      | .list, .list handlers =>
        handlers.length ≤ 1 ∧ n.toJson.field? "handlers" = some (.array (handlers.map toJson)) ∧
          n.toJson.field? "handler" = none
      | _, _ => False

/-- What a walk tells of a node: its type, its place, its line and its comment. -/
def glimpse (n : Node) : String × Span × Nat × Option Comment :=
  (n.construct.typeName, n.span, n.line, n.doc)

/-- The output form of a `try` statement has the field of its style. -/
theorem hasHandlersIn_tryStatement (style : CatchStyle) (block : Node)
    (handler finalizer : Option Node) (span : Span) (line : Nat) (doc : Option Comment) :
    (Node.mk (.tryStatement block (.ofOption style handler) finalizer) span line doc).HasHandlersIn
      style := by
  rintro _ _ _ ⟨⟩
  rw [toJson, fold_eq]
  cases style with
  | single => cases doc <;> exact ⟨rfl, rfl, rfl⟩
  | list => cases doc <;> cases handler <;> exact ⟨rfl, by simp, rfl, rfl⟩

theorem hasHandlersIn_mk (style : CatchStyle) (c : Construct Node) (span : Span) (line : Nat)
    (doc : Option Comment) : (Node.mk (c.inStyle style) span line doc).HasHandlersIn style := by
  cases c with
  | tryStatement block handlers finalizer =>
    exact hasHandlersIn_tryStatement style block handlers.toList.head? finalizer span line doc
  | _ => exact fun _ _ _ h => nomatch h

end Node

/-- A program in which all handlers are in lists. -/
def Program.listed (p : Program) : Program :=
  { p with body := p.body.map Node.listed }

/-! ## Two nodes that differ in the style of handlers -/

/-- A node in the first style and what a build in the second style has in its place. -/
structure Node.SameButHandlers (n n' : Node) : Prop where
  listed : n' = n.listed
  single : ∀ m ∈ n.preorder, m.HasHandlersIn .single
  list : ∀ m ∈ n'.preorder, m.HasHandlersIn .list
  walk : n'.walk.map glimpse = n.walk.map glimpse

namespace Conversion

section

variable (view : Pair Node.SameButHandlers → Node) (ctx : BuildContext)
  (c : Construct (Pair Node.SameButHandlers))

/-- The parts of a construct are views of pairs, and these are the same in each style. -/
theorem parts_viewed : (viewed ctx view c).parts = (c.inStyle .single).parts.map view := by
  rw [viewed, ← Construct.inStyle_map, Construct.parts_map, Construct.parts_inStyle]

theorem children_viewed :
    (viewed ctx view c).children = (c.inStyle .single).children.map view := by
  rw [viewed, ← Construct.inStyle_map, Construct.children_map, Construct.children_inStyle]

/-- All handlers are in the style of the build if those of the parts are. -/
theorem hasHandlersIn_viewed (h : ∀ pair : Pair Node.SameButHandlers,
      ∀ m ∈ (view pair).preorder, m.HasHandlersIn ctx.style)
    (span : Span) (line : Nat) (doc : Option Comment) :
    ∀ m ∈ (Node.mk (viewed ctx view c) span line doc).preorder, m.HasHandlersIn ctx.style := by
  intro m hm
  rw [Node.preorder_eq, List.mem_cons, Node.parts, Node.construct, parts_viewed,
    List.flatMap_map, List.mem_flatMap] at hm
  rcases hm with rfl | ⟨pair, -, hm⟩
  · exact Node.hasHandlersIn_mk ctx.style (c.map view) span line doc
  · exact h pair m hm

end

variable (source : Source)

/-- Nodes made of parts that differ in the style of handlers alone differ in that style alone. -/
theorem sameButHandlers_mk (c : Construct (Pair Node.SameButHandlers)) (span : Span) (line : Nat)
    (doc : Option Comment) :
    Node.SameButHandlers (.mk (viewed ⟨source, .single⟩ Pair.left c) span line doc)
      (.mk (viewed ⟨source, .list⟩ Pair.right c) span line doc) where
  listed := by
    have parts : Node.listed ∘ Pair.left (R := Node.SameButHandlers) = Pair.right :=
      funext fun pair => pair.related.listed.symm
    rw [Node.listed_mk, viewed, viewed, Construct.inStyle_map, Construct.listed_inStyle_single,
      Construct.map_map, parts]
  single :=
    hasHandlersIn_viewed _ ⟨source, .single⟩ c (fun pair => pair.related.single) span line doc
  list := hasHandlersIn_viewed _ ⟨source, .list⟩ c (fun pair => pair.related.list) span line doc
  walk := by
    have parts (pairs : List (Pair Node.SameButHandlers)) :
        ((pairs.map Pair.right).flatMap Node.walk).map Node.glimpse =
          ((pairs.map Pair.left).flatMap Node.walk).map Node.glimpse := by
      rw [List.flatMap_map, List.flatMap_map, List.map_flatMap, List.map_flatMap]
      exact congrArg List.flatten (List.map_congr_left fun pair _ => pair.related.walk)
    have name (view : Pair Node.SameButHandlers → Node) (ctx : BuildContext) :
        (viewed ctx view c).typeName = c.typeName := by
      rw [viewed, Construct.typeName_inStyle, Construct.typeName_map]
    rw [Node.walk_eq, Node.walk_eq, Node.children, Node.children, Node.construct, Node.construct,
      children_viewed, children_viewed, List.map_cons, List.map_cons, parts, Node.glimpse,
      Node.glimpse, Node.construct, Node.construct, name, name]
    rfl

/-- The states of two builds in the two styles are the same throughout. -/
theorem styles_correspond :
    Correspondence ⟨source, .single⟩ ⟨source, .list⟩ Eq id Node.SameButHandlers Eq Eq := by
  refine .plain (fun _ _ h => h ▸ rfl) (fun s _ h => h ▸ alike_self source s)
    (fun _ _ h => h ▸ enter_self _) enter_self fun place c => ?_
  rintro st _ rfl
  rw [finish_run, finish_run]
  exact .inl ⟨⟨_, _, sameButHandlers_mk source c _ _ _⟩, _, _, rfl, rfl, rfl⟩

end Conversion

/-! ## Whole builds -/

/-- The outcomes of a build in the two styles: one state, and one error or two programs that differ
in the handlers alone. -/
theorem BuildContext.build_styles (source : Source) (root : ParseTree) :
    (build ⟨source, .list⟩ root).state = (build ⟨source, .single⟩ root).state ∧
      (build ⟨source, .list⟩ root).result =
        (build ⟨source, .single⟩ root).result.map Program.listed ∧
      ∀ p, (build ⟨source, .single⟩ root).result = .ok p →
        ∃ pairs : List (Pair Node.SameButHandlers), p.body = pairs.map Pair.left ∧
          p.listed.body = pairs.map Pair.right := by
  unfold build run
  cases root.fault? with
  | some fault => exact ⟨rfl, rfl, fun p h => nomatch h⟩
  | none =>
    dsimp only
    have start : recorded ⟨source, .single⟩ root .empty = recorded ⟨source, .list⟩ root .empty :=
      rfl
    rcases Conversion.convertBody_parallel (Conversion.styles_correspond source)
        (Eq.refl (ParseTree.rootSite root)) start with
      ⟨pairs, st, _, single, list, rfl⟩ | ⟨e, st, _, -, single, list, rfl⟩
    · have body : (pairs.map Pair.left).map Node.listed = pairs.map Pair.right := by
        rw [List.map_map]
        exact List.map_congr_left fun pair _ => pair.related.listed.symm
      rw [single, list]
      refine ⟨rfl, ?_, ?_⟩
      · rw [← body]
        rfl
      · rintro _ ⟨⟩
        exact ⟨pairs, rfl, body⟩
    · rw [single, list]
      exact ⟨rfl, rfl, fun p h => nomatch h⟩

/-- The style of catch handlers changes the format alone. Builds in the two styles make the same
entries in the identity table and fail with the same error, or the program in the second style is
that in the first one with its handlers put into lists. In each of them the handlers of all `try`
statements are in the style of the build, and a walk tells the same of both. -/
theorem style_changes_handlers_only (session : BuildSession) (source : Source) (root : ParseTree) :
    let single := { session with style := .single }.build source root
    let list := { session with style := .list }.build source root
    list.1 = single.1.map Program.listed ∧ list.2.nodeCount = single.2.nodeCount ∧
      ∀ p, single.1 = .ok p →
        (∀ n ∈ p.nodes, n.HasHandlersIn .single) ∧ (∀ n ∈ p.listed.nodes, n.HasHandlersIn .list) ∧
          p.listed.walk.map Node.glimpse = p.walk.map Node.glimpse := by
  obtain ⟨state, result, pairs⟩ := BuildContext.build_styles source root
  refine ⟨result, congrArg (fun st : BuildState => st.table.size) state, fun p h => ?_⟩
  obtain ⟨pairs, body, listed⟩ := pairs p h
  rw [Program.nodes, Program.nodes, Program.walk, Program.walk, body, listed]
  refine ⟨fun n hn => ?_, fun n hn => ?_, ?_⟩
  · rw [List.flatMap_map, List.mem_flatMap] at hn
    obtain ⟨pair, -, hn⟩ := hn
    exact pair.related.single n hn
  · rw [List.flatMap_map, List.mem_flatMap] at hn
    obtain ⟨pair, -, hn⟩ := hn
    exact pair.related.list n hn
  · rw [List.flatMap_map, List.flatMap_map, List.map_flatMap, List.map_flatMap]
    exact congrArg List.flatten (List.map_congr_left fun pair _ => pair.related.walk)

/-- A `try` statement with a handler that holds another one without a handler. -/
def nestedTryTree : ParseTree :=
  let block (id start : Nat) (body : List ParseTree) (stop : Nat) : ParseTree :=
    (ParseTree.phrase id start stop "statement_block" body).within "body"
  .phrase 0 0 29 "program"
    [.phrase 1 0 29 "try_statement"
      [.token 2 0 3 "try", block 3 3 [.token 4 3 4 "\x7b", .token 5 4 5 "\x7d"] 5,
        (ParseTree.phrase 6 5 29 "catch_clause"
          [.token 7 5 10 "catch", .token 8 10 11 "(",
            (ParseTree.phrase 9 11 12 "identifier" []).within "parameter", .token 10 12 13 ")",
            block 11 13
              [.token 12 13 14 "\x7b",
                .phrase 13 14 28 "try_statement"
                  [.token 14 14 17 "try",
                    block 15 17 [.token 16 17 18 "\x7b", .token 17 18 19 "\x7d"] 19,
                    (ParseTree.phrase 18 19 28 "finally_clause"
                      [.token 19 19 26 "finally",
                        block 20 26 [.token 21 26 27 "\x7b", .token 22 27 28 "\x7d"] 28]).within
                      "finalizer"],
                .token 23 28 29 "\x7d"] 29]).within "handler"]]

/-- Both `try` statements have a handler or none in the first style, and a list in the second. -/
theorem nested_try_in_both_styles :
    let source : Source :=
      ⟨"try.js", "try\x7b\x7dcatch(e)\x7btry\x7b\x7dfinally\x7b\x7d\x7d".toList⟩
    ∃ p, ((BuildSession.start .single).build source nestedTryTree).1 = .ok p ∧
      p.nodes.countP (fun n => n.construct.typeName == "TryStatement") = 2 ∧
      ((BuildSession.start .list).build source nestedTryTree).1 = .ok p.listed ∧
      (∀ n ∈ p.nodes, n.HasHandlersIn .single) ∧ ∀ n ∈ p.listed.nodes, n.HasHandlersIn .list := by
  intro source
  obtain ⟨p, hp, two⟩ := exists_ok_of_map
    (f := fun p : Program => p.nodes.countP fun n => n.construct.typeName == "TryStatement")
    (b := 2) (r := ((BuildSession.start .single).build source nestedTryTree).1) (by decide +kernel)
  obtain ⟨result, -, handlers⟩ :=
    style_changes_handlers_only (.start .single) source nestedTryTree
  obtain ⟨single, list, -⟩ := handlers p hp
  refine ⟨p, hp, two, ?_, single, list⟩
  exact result.trans (congrArg (Except.map Program.listed) hp)

end ScriptTree
