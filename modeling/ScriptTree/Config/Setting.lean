import ScriptTree.Config.Basic

/-!
# Settings

What a configuration file holds, whatever its format, and the configuration that it describes. A
record is a table, or in TOML also a list of its fields in order; what it does not say keeps its
default, and members that it does not know are passed over.
-/
namespace ScriptTree

/-- A value of a configuration file. A text may stand plain, without quotes; values of other kinds
are not told apart. -/
inductive Setting where
  | text (plain : Bool) (value : List Char)
  | other
  | list (items : List Setting)
  | table (members : List (List Char × Setting))
  deriving Repr, Inhabited

namespace Setting

/-- Whether a setting says nothing at all. -/
def isVacant : Setting → Bool
  | text true [] => true
  | _ => false

/-- The spellings of no value. -/
def isNull (value : List Char) : Bool :=
  value == [] || value == ['~'] || value == "null".toList || value == "Null".toList ||
    value == "NULL".toList

/-- The value of a member, if it has one; a name must not stand twice. -/
def member (name : String) (members : List (List Char × Setting)) : Option (Option Setting) :=
  match members.filter (·.1 == name.toList) with
  | [] => some none
  | [(_, value)] => some (some value)
  | _ => none

/-- The values of the fields of a record in a format. -/
def fields (format : ConfigFormat) (names : List String) : Setting → Option (List (Option Setting))
  | table members => names.mapM (member · members)
  | list items =>
    if format = .toml then some (names.zipIdx.map fun (_, i) => items[i]?) else none
  | s => if s.isVacant then some (names.map fun _ => none) else none

/-- A text. -/
def asText : Setting → Option (List Char)
  | text _ value => some value
  | _ => none

/-- A list of texts. -/
def asTexts : Setting → Option (List (List Char))
  | list items => items.mapM asText
  | s => if s.isVacant then some [] else none

/-- A path, or none if a plain text says so. -/
def asPath : Setting → Option (Option Path)
  | text plain value => some (if plain && isNull value then none else some (.ofText value))
  | _ => none

/-- A style of catch handlers. -/
def asStyle : Setting → Option CatchStyle
  | text _ value => CatchStyle.ofName? (String.ofList value)
  | _ => none

/-- What a field holds, or its default. -/
def fieldOr {α : Type} (default : α) (read : Setting → Option α) : Option Setting → Option α
  | none => some default
  | some s => read s

end Setting

/-- Settings of the search for modules. -/
def SearchSettings.ofSetting? (format : ConfigFormat) (s : Setting) : Option SearchSettings := do
  match ← s.fields format ["privileged", "fallback", "context_dir"] with
  | [privileged, fallback, context] =>
    return ⟨← Setting.fieldOr [] Setting.asTexts privileged,
      ← Setting.fieldOr [] Setting.asTexts fallback,
      ← Setting.fieldOr none Setting.asPath context⟩
  | _ => none

/-- The style of catch handlers in settings of syntax trees. -/
def CatchStyle.ofSetting? (format : ConfigFormat) (s : Setting) : Option CatchStyle := do
  match ← s.fields format ["catch_handlers"] with
  | [style] => Setting.fieldOr .single Setting.asStyle style
  | _ => none

/-- The configuration that settings describe. -/
def Config.ofSetting? (format : ConfigFormat) (s : Setting) : Option Config := do
  match ← s.fields format ["resolver", "ast"] with
  | [search, tree] =>
    return ⟨← Setting.fieldOr .empty (SearchSettings.ofSetting? format) search,
      ← Setting.fieldOr .single (CatchStyle.ofSetting? format) tree⟩
  | _ => none

end ScriptTree
