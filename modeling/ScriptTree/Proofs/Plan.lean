import ScriptTree.Build.Constructs

/-!
# Plans

What a node of the parse tree is turned into, said without running the conversion: which output
nodes are made, in which order, from which piece of source, and which of them may take the
documentation comment before them. `plan` lists the parts of each construct in the order of their
conversion; `Site.roll` is the list of all output nodes below a node of the parse tree.
-/
namespace ScriptTree

open ParseTree (Site)

/-- How an output node is entered into the identity table: for a node of the parse tree together
with the documentation comment before it, for one without looking for a comment, or for a piece of
source that no single node of the parse tree stands for, from the start of a node up to a place. -/
inductive Registration where
  | documented (s : Site)
  | bare (s : Site)
  | spanned (kind : String) (first : Site) (stop : Nat)

namespace Registration

/-- The node of the parse tree with which an output node starts. -/
def first : Registration → Site
  | documented s => s
  | bare s => s
  | spanned _ first _ => first

/-- The piece of source of an output node. -/
def span : Registration → Span
  | documented s => s.span
  | bare s => s.span
  | spanned _ first stop => ⟨first.span.start, stop⟩

@[simp] theorem start_span (r : Registration) : r.span.start = r.first.span.start := by
  cases r <;> rfl

/-- The node of the parse tree that is a documentation comment for an output node. -/
def docComment? (source : Source) : Registration → Option ParseTree
  | documented s => s.docComment? source
  | bare _ => none
  | spanned _ _ _ => none

/-- The entry of an output node in the identity table. -/
def origin (ctx : BuildContext) : Registration → Origin
  | documented s =>
    ⟨s.kind, some s.id, s.span, ctx.line s, (s.docComment? ctx.source).map (·.label.id)⟩
  | bare s => ⟨s.kind, some s.id, s.span, ctx.line s, none⟩
  | spanned kind first stop => ⟨kind, none, ⟨first.span.start, stop⟩, ctx.line first, none⟩

end Registration

/-- What an output node is to be made from: a node of the parse tree that is still to be converted,
or an entry of the identity table and the plans of the parts. The key of a shorthand property is an
identifier entered before the other parts. -/
inductive Plan where
  | convert (s : Site)
  | node (entry : Registration) (key : Option Site) (parts : List Plan)

/-! ## What is read of each construct -/

/-- How the children in a field are read: the first of them, the first that is a member, all that
are members, or the members inside the first. -/
inductive FieldUse where
  | first
  | firstMember
  | members
  | inside
  deriving DecidableEq, Repr

/-- The nodes read through a field. -/
def ParseTree.Site.reading (s : Site) : String × FieldUse → List Site
  | (name, .first) => (s.field? name).toList
  | (name, .firstMember) => (s.fieldMembers name).head?.toList
  | (name, .members) => s.fieldMembers name
  | (name, .inside) => (s.field? name).toList.flatMap Site.members

/-- The fields of the constructs whose parts are read from fields only, in the order of conversion.
-/
def GrammarKind.reads : GrammarKind → List (String × FieldUse)
  | variableDeclarator => [("name", .first), ("value", .first)]
  | ifStatement => [("condition", .first), ("consequence", .first), ("alternative", .first)]
  | switchStatement => [("value", .first), ("body", .inside)]
  | switchCase => [("value", .first), ("body", .members)]
  | switchDefault => [("body", .members)]
  | forStatement =>
    [("initializer", .first), ("condition", .firstMember), ("increment", .first),
      ("body", .first)]
  | whileStatement => [("condition", .first), ("body", .first)]
  | doStatement => [("body", .first), ("condition", .first)]
  | tryStatement => [("body", .first), ("handler", .first), ("finalizer", .first)]
  | catchClause => [("parameter", .first), ("body", .first)]
  | withStatement => [("object", .first), ("body", .first)]
  | breakStatement | continueStatement => [("label", .first)]
  | labeledStatement => [("label", .first), ("body", .first)]
  | functionDeclaration | generatorFunctionDeclaration | functionExpression | generatorFunction =>
    [("name", .first), ("parameters", .inside), ("body", .first)]
  | pair | pairPattern => [("key", .first), ("value", .first)]
  | assignmentPattern | objectAssignmentPattern | assignmentExpression
  | augmentedAssignmentExpression | binaryExpression => [("left", .first), ("right", .first)]
  | unaryExpression | updateExpression => [("argument", .first)]
  | ternaryExpression =>
    [("condition", .first), ("consequence", .first), ("alternative", .first)]
  | callExpression => [("function", .first), ("arguments", .inside)]
  | newExpression => [("constructor", .first), ("arguments", .inside)]
  | memberExpression => [("object", .first), ("property", .first)]
  | subscriptExpression => [("object", .first), ("index", .first)]
  | _ => []

namespace Plan

/-- The declaration in the head of a loop, and the declarator in it. -/
def headDeclaration (keyword left : Site) (value : Option Site) : Plan :=
  let stop := (value.getD left).span.stop
  .node (.spanned "variable_declaration" keyword stop) none
    [.node (.spanned "variable_declarator" left stop) none
      ((left :: value.toList).map .convert)]

/-- What a loop over an object goes through: a declaration of its own if there is a keyword. -/
def headTarget (s left : Site) : Plan :=
  match s.field? "kind" with
  | some keyword => headDeclaration keyword left (s.field? "value")
  | none => .convert left

/-- The function of a method: from its parameters to its body. -/
def methodFunction (s parameters body : Site) : Plan :=
  .node (.spanned s.kind parameters body.span.stop) none
    ((parameters.members ++ [body]).map .convert)

/-- A shorthand property. -/
def shorthandProperty (s : Site) : Plan :=
  .node (.documented s) (some s) [.node (.bare s) none []]

/-- A shorthand property of a pattern with a default value. -/
def shorthandDefault (s left : Site) : Plan :=
  .node (.documented s) (some left)
    [.node (.bare s) none
      (.node (.bare left) none [] :: (s.field? "right").toList.map .convert)]

/-- A member of an object expression. -/
def objectMember (s : Site) : Plan :=
  if s.kind = "shorthand_property_identifier" then shorthandProperty s else .convert s

/-- A member of an object pattern. -/
def patternMember (s : Site) : Plan :=
  if s.kind = "shorthand_property_identifier_pattern" then shorthandProperty s
  else if s.kind = "object_assignment_pattern" then
    match s.field? "left" with
    | some left =>
      if left.kind = "shorthand_property_identifier_pattern" then shorthandDefault s left
      else .convert s
    | none => .convert s
  else .convert s

end Plan

/-- The parts of a construct, in the order of conversion. -/
def plan (s : Site) : GrammarKind → List Plan
  | .expressionStatement | .throwStatement | .returnStatement | .yieldExpression =>
    s.firstMember?.toList.map .convert
  | .variableDeclaration | .lexicalDeclaration =>
    (s.members.filter fun c => c.kind == "variable_declarator").map .convert
  | .statementBlock | .sequenceExpression => s.members.map .convert
  | .array | .arrayPattern => (s.tokens.filter fun c => c.label.named).map .convert
  | .object => s.members.map .objectMember
  | .objectPattern => s.members.map .patternMember
  | .forInStatement =>
    (s.field? "left").toList.map (.headTarget s) ++
      (s.reading ("right", .first) ++ s.reading ("body", .first)).map .convert
  | .methodDefinition =>
    (s.reading ("name", .first)).map .convert ++
      match s.field? "parameters", s.field? "body" with
      | some parameters, some body => [.methodFunction s parameters body]
      | _, _ => []
  | kind => (kind.reads.flatMap s.reading).map .convert

/-- What a node of the parse tree is replaced by: a wrapper by its first member, any other node by
an output node of its own. -/
def frame (s : Site) : List Plan :=
  match GrammarKind.ofName? s.kind with
  | none => []
  | some kind =>
    if kind.isTransparent then s.firstMember?.toList.map .convert
    else [.node (.documented s) none (plan s kind)]

/-! ## The roll of a tree -/

mutual

/-- The output nodes of a plan, a node before its parts, given those of each site. -/
def Plan.roll (roll : Site → List Registration) : Plan → List Registration
  | .convert s => roll s
  | .node entry key parts => entry :: (key.toList.map .bare ++ rollAll roll parts)

/-- The output nodes of plans. -/
def rollAll (roll : Site → List Registration) : List Plan → List Registration
  | [] => []
  | plan :: plans => plan.roll roll ++ rollAll roll plans

end

/-- The output nodes of a site whose subtree has at most so many levels. -/
def rollUpTo : Nat → Site → List Registration
  | 0, _ => []
  | levels + 1, s => rollAll (rollUpTo levels) (frame s)

/-- All output nodes that a site is turned into, in the order in which they are entered into the
identity table. -/
def ParseTree.Site.roll (s : Site) : List Registration :=
  rollUpTo s.tree.height s

/-- All output nodes of a program. -/
def ParseTree.roll (root : ParseTree) : List Registration :=
  (rootSite root).members.flatMap Site.roll

/-! ## A tree written out -/

/-- A fixed token in the first line. -/
def ParseTree.token (id start stop : Nat) (text : String) : ParseTree :=
  .node ⟨text, false, false, false, false, false, ⟨start, stop⟩, some ⟨0, start⟩, id, none⟩ []

/-- A phrase that starts in the first line. -/
def ParseTree.phrase (id start stop : Nat) (kind : String) (children : List ParseTree) :
    ParseTree :=
  .node ⟨kind, true, false, false, false, false, ⟨start, stop⟩, some ⟨0, start⟩, id, none⟩ children

/-- A comment that starts in the first line. -/
def ParseTree.remark (id start stop : Nat) : ParseTree :=
  .node ⟨"comment", true, true, false, false, false, ⟨start, stop⟩, some ⟨0, start⟩, id, none⟩ []

/-- A node that starts in a later line, which begins at a place. -/
def ParseTree.inRow (row start : Nat) : ParseTree → ParseTree
  | .node label children =>
    .node { label with position := some ⟨row, label.span.start - start⟩ } children

/-- A tree in a field of its parent. -/
def ParseTree.within (field : String) : ParseTree → ParseTree
  | node label children => node { label with field := some field } children

/-- A loop over an object with a method and a shorthand property, and three comments. -/
def loopSource : Source :=
  ⟨"loop.js", "/** d */for(var k of\x7b/** m */f()\x7b\x7d,a\x7d);/** t */".toList⟩

/-- The parse tree of the loop. -/
def loopTree : ParseTree :=
  .phrase 0 0 47 "program"
    [.remark 1 0 8,
      .phrase 2 8 39 "for_in_statement"
        [.token 3 8 11 "for", .token 4 11 12 "(", (ParseTree.token 5 12 15 "var").within "kind",
          (ParseTree.phrase 6 16 17 "identifier" []).within "left",
          (ParseTree.token 7 18 20 "of").within "operator",
          (ParseTree.phrase 8 20 37 "object"
            [.token 9 20 21 "\x7b", .remark 10 21 29,
              .phrase 11 29 34 "method_definition"
                [(ParseTree.phrase 12 29 30 "property_identifier" []).within "name",
                  (ParseTree.phrase 13 30 32 "formal_parameters"
                    [.token 14 30 31 "(", .token 15 31 32 ")"]).within "parameters",
                  (ParseTree.phrase 16 32 34 "statement_block"
                    [.token 17 32 33 "\x7b", .token 18 33 34 "\x7d"]).within "body"],
              .token 19 34 35 ",", .phrase 20 35 36 "shorthand_property_identifier" [],
              .token 21 36 37 "\x7d"]).within "right",
          .token 22 37 38 ")",
          (ParseTree.phrase 23 38 39 "empty_statement" [.token 24 38 39 ";"]).within "body"],
      .remark 25 39 47]

end ScriptTree
