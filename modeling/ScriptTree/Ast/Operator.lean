/-!
# Operators

The operators of expressions with their spellings, and the kinds of variable declarations and
properties. Each kind is a list of its members in one order; reading a spelling looks it up there.
-/
namespace ScriptTree

/-- Operators of two operands that are always both evaluated. -/
inductive BinaryOperator where
  | equal | notEqual | strictEqual | strictNotEqual | less | lessEqual | greater | greaterEqual
  | leftShift | rightShift | unsignedRightShift | add | subtract | multiply | divide | remainder
  | exponent | bitOr | bitXor | bitAnd | in | instanceOf
  deriving DecidableEq, Repr

namespace BinaryOperator

/-- All binary operators. -/
def all : List BinaryOperator :=
  [.equal, .notEqual, .strictEqual, .strictNotEqual, .less, .lessEqual, .greater, .greaterEqual,
    .leftShift, .rightShift, .unsignedRightShift, .add, .subtract, .multiply, .divide, .remainder,
    .exponent, .bitOr, .bitXor, .bitAnd, .in, .instanceOf]

/-- How an operator is written. -/
def symbol : BinaryOperator → String
  | equal => "=="
  | notEqual => "!="
  | strictEqual => "==="
  | strictNotEqual => "!=="
  | less => "<"
  | lessEqual => "<="
  | greater => ">"
  | greaterEqual => ">="
  | leftShift => "<<"
  | rightShift => ">>"
  | unsignedRightShift => ">>>"
  | add => "+"
  | subtract => "-"
  | multiply => "*"
  | divide => "/"
  | remainder => "%"
  | exponent => "**"
  | bitOr => "|"
  | bitXor => "^"
  | bitAnd => "&"
  | .in => "in"
  | instanceOf => "instanceof"

/-- The operator with a spelling. -/
def ofSymbol? (s : String) : Option BinaryOperator :=
  all.find? (·.symbol == s)

end BinaryOperator

/-- Operators whose second operand may be left unevaluated. -/
inductive LogicalOperator where
  | or | and | nullishCoalescing
  deriving DecidableEq, Repr

namespace LogicalOperator

/-- All logical operators. -/
def all : List LogicalOperator := [.or, .and, .nullishCoalescing]

/-- How an operator is written. -/
def symbol : LogicalOperator → String
  | or => "||"
  | and => "&&"
  | nullishCoalescing => "??"

/-- The operator with a spelling. -/
def ofSymbol? (s : String) : Option LogicalOperator :=
  all.find? (·.symbol == s)

end LogicalOperator

/-- Assignment, plain or joined with an operation. -/
inductive AssignmentOperator where
  | assign | addAssign | subtractAssign | multiplyAssign | divideAssign | remainderAssign
  | exponentAssign | leftShiftAssign | rightShiftAssign | unsignedRightShiftAssign | bitOrAssign
  | bitXorAssign | bitAndAssign | orAssign | andAssign | nullishAssign
  deriving DecidableEq, Repr

namespace AssignmentOperator

/-- All assignment operators. -/
def all : List AssignmentOperator :=
  [.assign, .addAssign, .subtractAssign, .multiplyAssign, .divideAssign, .remainderAssign,
    .exponentAssign, .leftShiftAssign, .rightShiftAssign, .unsignedRightShiftAssign, .bitOrAssign,
    .bitXorAssign, .bitAndAssign, .orAssign, .andAssign, .nullishAssign]

/-- How an operator is written. -/
def symbol : AssignmentOperator → String
  | assign => "="
  | addAssign => "+="
  | subtractAssign => "-="
  | multiplyAssign => "*="
  | divideAssign => "/="
  | remainderAssign => "%="
  | exponentAssign => "**="
  | leftShiftAssign => "<<="
  | rightShiftAssign => ">>="
  | unsignedRightShiftAssign => ">>>="
  | bitOrAssign => "|="
  | bitXorAssign => "^="
  | bitAndAssign => "&="
  | orAssign => "||="
  | andAssign => "&&="
  | nullishAssign => "??="

/-- The operator with a spelling. -/
def ofSymbol? (s : String) : Option AssignmentOperator :=
  all.find? (·.symbol == s)

end AssignmentOperator

/-- Operators written before one operand. -/
inductive UnaryOperator where
  | minus | plus | not | bitNot | typeOf | void | delete
  deriving DecidableEq, Repr

namespace UnaryOperator

/-- All unary operators. -/
def all : List UnaryOperator := [.minus, .plus, .not, .bitNot, .typeOf, .void, .delete]

/-- How an operator is written. -/
def symbol : UnaryOperator → String
  | minus => "-"
  | plus => "+"
  | not => "!"
  | bitNot => "~"
  | typeOf => "typeof"
  | void => "void"
  | delete => "delete"

/-- The operator with a spelling. -/
def ofSymbol? (s : String) : Option UnaryOperator :=
  all.find? (·.symbol == s)

end UnaryOperator

/-- Operators that change their operand by one. -/
inductive UpdateOperator where
  | increment | decrement
  deriving DecidableEq, Repr

namespace UpdateOperator

/-- All update operators. -/
def all : List UpdateOperator := [.increment, .decrement]

/-- How an operator is written. -/
def symbol : UpdateOperator → String
  | increment => "++"
  | decrement => "--"

/-- The operator with a spelling. -/
def ofSymbol? (s : String) : Option UpdateOperator :=
  all.find? (·.symbol == s)

end UpdateOperator

/-- The keyword of a variable declaration. -/
inductive VariableKind where
  | var | let | const
  deriving DecidableEq, Repr

namespace VariableKind

/-- All declaration keywords. -/
def all : List VariableKind := [.var, .let, .const]

/-- How a keyword is written. -/
def keyword : VariableKind → String
  | var => "var"
  | .let => "let"
  | const => "const"

/-- The kind with a keyword. -/
def ofKeyword? (s : String) : Option VariableKind :=
  all.find? (·.keyword == s)

end VariableKind

/-- Whether a property holds a value or is an accessor. -/
inductive PropertyKind where
  | init | get | set
  deriving DecidableEq, Repr

namespace PropertyKind

/-- All kinds of properties. -/
def all : List PropertyKind := [.init, .get, .set]

/-- The name of a kind in output. -/
def name : PropertyKind → String
  | init => "init"
  | get => "get"
  | set => "set"

/-- The kind with a name. -/
def ofName? (s : String) : Option PropertyKind :=
  all.find? (·.name == s)

end PropertyKind

end ScriptTree
