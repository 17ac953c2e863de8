/-!
# Blank characters and words

The characters with the Unicode property White_Space, and the words that they separate.
-/
namespace ScriptTree.Text

/-- Whether a character has the property White_Space. -/
def isBlank (c : Char) : Bool :=
  let v := c.toNat
  (decide (0x09 ≤ v) && decide (v ≤ 0x0D)) || v == 0x20 || v == 0x85 || v == 0xA0 || v == 0x1680 ||
    (decide (0x2000 ≤ v) && decide (v ≤ 0x200A)) || v == 0x2028 || v == 0x2029 || v == 0x202F ||
    v == 0x205F || v == 0x3000

/-- The characters up to the first blank, and the pieces between the blanks after it; pieces may be
empty. -/
def cutBlanks : List Char → List Char × List (List Char)
  | [] => ([], [])
  | c :: rest =>
    let (piece, pieces) := cutBlanks rest
    if isBlank c then ([], piece :: pieces) else (c :: piece, pieces)

/-- The longest runs of characters that are not blank, in order. -/
def words (text : List Char) : List (List Char) :=
  let (piece, pieces) := cutBlanks text
  (piece :: pieces).filter (!·.isEmpty)

end ScriptTree.Text
