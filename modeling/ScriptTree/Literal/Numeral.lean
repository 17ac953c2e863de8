import ScriptTree.Number.Decimal

/-!
# Number literals

The value of a number literal from its text: decimal, hexadecimal, octal and binary notation, the
old octal notation with a leading zero, and underscores between digits. Integers of unbounded size
(`10n`) have no double as value. Digits in a base other than ten are taken in one after another,
each step rounded.
-/
namespace ScriptTree.Numeral

/-- A double times the base plus the next digit; both steps round. -/
def appendDigit (base : Nat) (value : Binary64) (digit : Nat) : Binary64 :=
  (value.mulNat base).addNat digit

/-- The value of digits in a base; at least one is needed, and each must be one of the base. -/
def readRadix? (base : Nat) (digits : List Char) : Option Binary64 :=
  if digits.isEmpty then none
  else
    (digits.mapM (Decimal.digitValue? base)).map fun values =>
      values.foldl (appendDigit base) (.zero false)

/-- The base that follows a leading zero. -/
def baseOfMark : Char → Option Nat
  | 'x' | 'X' => some 16
  | 'o' | 'O' => some 8
  | 'b' | 'B' => some 2
  | _ => none

/-- Whether a character is an octal digit. -/
def isOctalDigit (c : Char) : Bool :=
  decide ('0' ≤ c) && decide (c ≤ '7')

/-- The base and the digits of a literal that is not decimal. -/
def radixForm? : List Char → Option (Nat × List Char)
  | '0' :: mark :: digits =>
    match baseOfMark mark with
    | some base => some (base, digits)
    | none => if (mark :: digits).all isOctalDigit then some (8, mark :: digits) else none
  | _ => none

/-- The value of a number literal. -/
def read? (raw : List Char) : Option Binary64 :=
  let text := raw.filter (· != '_')
  if text.getLast? = some 'n' then none
  else
    match radixForm? text with
    | some (base, digits) => readRadix? base digits
    | none => Decimal.read? text

end ScriptTree.Numeral
