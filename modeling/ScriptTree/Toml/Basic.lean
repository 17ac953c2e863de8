import ScriptTree.Config.Setting

/-!
# TOML documents

A document is a tree of tables. How a table came about decides what may still be added to it: one
that a header only passes through can be defined by a later header, one that dotted keys make can be
extended by dotted keys, and one written in braces is closed.
-/
namespace ScriptTree

/-- A value or a table of a document. -/
inductive Toml where
  | string (value : List Char)
  | other
  | list (items : List Toml)
  | inline (members : List (List Char × Toml))
  | table (implicit dotted : Bool) (members : List (List Char × Toml))
  | tables (items : List Toml)
  deriving Repr, Inhabited

namespace Toml

/-- The names that lead to a table or a value. -/
abbrev KeyPath := List (List Char)

/-- A document that says nothing. -/
def empty : Toml :=
  .table false false []

/-- Members with the value of a name set. -/
def assign (name : List Char) (value : Toml) :
    List (List Char × Toml) → List (List Char × Toml)
  | [] => [(name, value)]
  | (key, old) :: rest =>
    if key = name then (key, value) :: rest else (key, old) :: assign name value rest

/-- Changes the table at a path. Missing tables on the way are made; a list of tables stands for its
last one. Dotted keys do not pass through tables that have a header. -/
def within (dotted : Bool) (change : Toml → Option Toml) : KeyPath → Toml → Option Toml
  | [], t => change t
  | name :: rest, .table implicit own members => do
    let below ← match members.lookup name with
      | none => within dotted change rest (.table true dotted [])
      | some (.table true d ms) => within dotted change rest (.table true d ms)
      | some (.table false d ms) =>
        if dotted then none else within dotted change rest (.table false d ms)
      | some (.tables items) => do
        let last ← within dotted change rest (← items.getLast?)
        some (.tables (items.dropLast ++ [last]))
      | some _ => none
    return .table implicit own (assign name below members)
  | _ :: _, _ => none

/-- Adds a value to a table; `nested` tells that dotted keys have led to the table. -/
def addMember (nested : Bool) (name : List Char) (value : Toml) : Toml → Option Toml
  | .table implicit dotted members =>
    if dotted ≠ nested ∨ (members.lookup name).isSome then none
    else some (.table implicit dotted (members ++ [(name, value)]))
  | _ => none

/-- Adds a value under a dotted key. -/
def add (t : Toml) (path : KeyPath) (value : Toml) : Option Toml := do
  let name ← path.getLast?
  t.within true (addMember (decide (1 < path.length)) name value) path.dropLast

/-- Defines the table of a header; only a table that headers have passed through may be there. -/
def define (name : List Char) : Toml → Option Toml
  | .table implicit dotted members =>
    match members.lookup name with
    | none => some (.table implicit dotted (assign name empty members))
    | some (.table true false below) =>
      some (.table implicit dotted (assign name (.table false false below) members))
    | some _ => none
  | _ => none

/-- Adds a table to the list of tables of a header. -/
def append (name : List Char) : Toml → Option Toml
  | .table implicit dotted members =>
    match members.lookup name with
    | none => some (.table implicit dotted (assign name (.tables [empty]) members))
    | some (.tables items) =>
      some (.table implicit dotted (assign name (.tables (items ++ [empty])) members))
    | some _ => none
  | _ => none

mutual

/-- The setting that a value or a table holds. -/
def toSetting : Toml → Setting
  | .string value => .text false value
  | .other => .other
  | .list items => .list (settingsOf items)
  | .inline members => .table (memberSettings members)
  | .table _ _ members => .table (memberSettings members)
  | .tables items => .list (settingsOf items)

/-- The settings of items. -/
def settingsOf : List Toml → List Setting
  | [] => []
  | item :: items => toSetting item :: settingsOf items

/-- The settings of members. -/
def memberSettings : List (List Char × Toml) → List (List Char × Setting)
  | [] => []
  | (name, value) :: members => (name, toSetting value) :: memberSettings members

end

end Toml

end ScriptTree
