import ScriptTree.Domain.Direction
import ScriptTree.Domain.Joiner
import ScriptTree.Domain.Mapping
import ScriptTree.Domain.Punycode

/-!
# Domain names in ASCII

A domain is mapped and composed, and then read label by label. A label with characters outside ASCII
is written in Punycode after the mark `xn--`; one that has the mark must be what writing produces.
-/
namespace ScriptTree.Domain

/-- The mark of an encoded label. -/
def encodedMark : List Char := "xn--".toList

/-- Whether a text is in ASCII. -/
def isAscii (text : List Char) : Bool :=
  text.all fun c => decide (c.toNat < 0x80)

/-- Whether a label, in its own characters, may stand in a domain. -/
def isLabel (label : List Char) : Bool :=
  !label.head?.any isMark && joinersFrom [] label

/-- Whether a text is one that needs encoding and that mapping leaves as it is. -/
def isEncodable (label : List Char) : Bool :=
  !isAscii label && label.all isKept && Text.compose label == label

/-- The characters of a label, read from Punycode if it has the mark. -/
def readLabel? (label : List Char) : Option (List Char) :=
  if encodedMark.isPrefixOf label then
    if isAscii label then (Punycode.decode? (label.drop encodedMark.length)).filter isEncodable
    else none
  else some label

/-- A label in ASCII. -/
def writeLabel (label : List Char) : List Char :=
  if isAscii label then label else encodedMark ++ Punycode.encode label

/-- A domain in ASCII, if all its labels can be written so. -/
def toAscii? (domain : List Char) : Option (List Char) := do
  let mapped ← mapText? domain
  let labels ← (Text.pieces '.' (Text.compose mapped)).mapM readLabel?
  if labels.all isLabel && areDirected labels then
    some (Text.join '.' (labels.map writeLabel))
  else none

end ScriptTree.Domain
