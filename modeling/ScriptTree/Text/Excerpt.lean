import ScriptTree.Text.Blank

/-!
# Excerpts

The one-line quotation of source text in an error message: its words with single spaces between
them, cut after eighty characters.
-/
namespace ScriptTree.Text

/-- The number of characters of an excerpt before its dots. -/
def excerptLimit : Nat := 80

/-- The words of a text with single spaces between them. -/
def squeeze (text : List Char) : List Char :=
  [' '].intercalate (words text)

/-- A text on one line: all its words if they fit, else the first eighty characters and dots. -/
def excerpt (text : List Char) : List Char :=
  let line := squeeze text
  if line.length ≤ excerptLimit then line else line.take excerptLimit ++ ['.', '.', '.']

end ScriptTree.Text
