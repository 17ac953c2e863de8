import ScriptTree.Text.Pieces

/-!
# Punycode

A label with characters outside ASCII is written in ASCII: its ASCII characters, a hyphen, and then
for each other character, in the order of code points, how far it is from the one before.
-/
namespace ScriptTree.Punycode

/-- A digit of base 36. -/
def digit (d : Nat) : Char :=
  if d < 26 then Char.ofNat ('a'.toNat + d) else Char.ofNat ('0'.toNat + (d - 26))

/-- The value of a digit of base 36. -/
def value? (c : Char) : Option Nat :=
  if 'a' ≤ c ∧ c ≤ 'z' then some (c.toNat - 'a'.toNat)
  else if 'A' ≤ c ∧ c ≤ 'Z' then some (c.toNat - 'A'.toNat)
  else if '0' ≤ c ∧ c ≤ '9' then some (c.toNat - '0'.toNat + 26)
  else none

/-- Scales a difference down and counts the steps. -/
def scale : Nat → Nat → Nat → Nat
  | 0, delta, k => k + 36 * delta / (delta + 38)
  | fuel + 1, delta, k =>
    if 455 < delta then scale fuel (delta / 35) (k + 36) else k + 36 * delta / (delta + 38)

/-- The bias for the next difference. -/
def adapt (delta count : Nat) (first : Bool) : Nat :=
  let delta := if first then delta / 700 else delta / 2
  scale 64 (delta + delta / count) 0

/-- The threshold of a digit position. -/
def threshold (k bias : Nat) : Nat :=
  min 26 (max 1 (k - bias))

/-- A difference as digits of falling weight; the digits fall below their threshold at the end. -/
def encodeNumber (bias : Nat) : Nat → Nat → Nat → List Char
  | 0, q, _ => [digit q]
  | fuel + 1, q, k =>
    let t := threshold k bias
    if q < t then [digit q]
    else digit (t + (q - t) % (36 - t)) :: encodeNumber bias fuel ((q - t) / (36 - t)) (k + 36)

/-- What encoding has reached: the next code point, the difference, the bias and the number of
characters written. -/
structure Progress where
  next : Nat
  delta : Nat
  bias : Nat
  written : Nat
  output : List Char

/-- Goes through the label once for the code point `m`, writing a difference where it stands. -/
def encodePass (basic : Nat) (m : Nat) (label : List Nat) (p : Progress) : Progress :=
  label.foldl
    (fun p c =>
      if c < m then { p with delta := p.delta + 1 }
      else if c = m then
        { p with
          output := p.output ++ encodeNumber p.bias 64 p.delta 36
          bias := adapt p.delta (p.written + 1) (p.written == basic)
          delta := 0
          written := p.written + 1 }
      else p)
    p

/-- Writes all code points from the least on. -/
def encodeFrom (basic : Nat) (label : List Nat) : Nat → Progress → List Char
  | 0, p => p.output
  | fuel + 1, p =>
    match (label.filter (p.next ≤ ·)).min? with
    | none => p.output
    | some m =>
      let p := { p with delta := p.delta + (m - p.next) * (p.written + 1), next := m }
      let p := encodePass basic m label p
      encodeFrom basic label fuel { p with delta := p.delta + 1, next := m + 1 }

/-- A label in Punycode, without the mark. -/
def encode (label : List Char) : List Char :=
  let basic := label.filter (·.toNat < 0x80)
  let start := if basic.isEmpty then [] else basic ++ ['-']
  encodeFrom basic.length (label.map Char.toNat) label.length
    ⟨0x80, 0, 72, basic.length, start⟩

/-- Reads one difference: its value and the digits after it. -/
def decodeNumber (bias : Nat) : Nat → Nat → Nat → List Char → Option (Nat × List Char)
  | _, _, _, [] => none
  | k, weight, sum, c :: rest =>
    match value? c with
    | none => none
    | some d =>
      let t := threshold k bias
      let sum := sum + d * weight
      if d < t then some (sum, rest) else decodeNumber bias (k + 36) (weight * (36 - t)) sum rest

/-- Reads differences and puts their code points into the label. -/
def decodeFrom : Nat → Nat → Nat → Nat → List Char → List Nat → Option (List Nat)
  | 0, _, _, _, _, _ => none
  | fuel + 1, n, i, bias, text, output =>
    if text.isEmpty then some output
    else
      match decodeNumber bias 36 1 0 text with
      | none => none
      | some (delta, rest) =>
        let count := output.length + 1
        let i := i + delta
        let n := n + i / count
        if n ≤ 0x10FFFF ∧ ¬(0xD800 ≤ n ∧ n < 0xE000) then
          decodeFrom fuel n (i % count + 1) (adapt delta count (i == delta))
            rest (output.take (i % count) ++ n :: output.drop (i % count))
        else none

/-- Splits a text at its last hyphen, which belongs to neither part; one at the start does not
count. -/
def splitHyphen (text : List Char) : List Char × List Char :=
  let tail := (text.reverse.takeWhile (· != '-')).reverse
  let head := text.take (text.length - tail.length - 1)
  if head = [] then ([], text) else (head, tail)

/-- Reads a label in Punycode, without the mark. -/
def decode? (text : List Char) : Option (List Char) :=
  let (basic, tail) := splitHyphen text
  (decodeFrom (tail.length + 1) 0x80 0 72 tail (basic.map Char.toNat)).map (·.map Char.ofNat)

end ScriptTree.Punycode
