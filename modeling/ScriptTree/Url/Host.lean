import ScriptTree.Domain.Basic
import ScriptTree.Url.Error
import ScriptTree.Url.Percent

/-!
# Hosts

A host is a domain name, a network address of one of the two kinds, or, outside the special schemes,
any text without delimiters. Each is held by its normal text.
-/
namespace ScriptTree.Host

/-! ## Addresses of 32 bits -/

/-- The number that digits of a base write, if all are digits of the base. -/
def readBase? (base : Nat) (digits : List Char) : Option Nat :=
  (digits.mapM (Decimal.digitValue? base)).map fun ds => ds.foldl (fun n d => n * base + d) 0

/-- A part of an address: decimal, octal after a zero, hexadecimal after a zero and an x. -/
def readPart? : List Char → Option Nat
  | [] => none
  | '0' :: 'x' :: digits => readBase? 16 digits
  | '0' :: 'X' :: digits => readBase? 16 digits
  | '0' :: c :: digits => readBase? 8 (c :: digits)
  | digits => readBase? 10 digits

/-- The parts of an address, without an empty one at the end. -/
def addressParts (domain : List Char) : List (List Char) :=
  let parts := Text.pieces '.' domain
  if parts.getLast? = some [] then parts.dropLast else parts

/-- Whether a domain has to be read as an address: its last part is a number. -/
def endsInNumber (domain : List Char) : Bool :=
  match (addressParts domain).getLast? with
  | some last => (!last.isEmpty && last.all Char.isDigit) || (readPart? last).isSome
  | none => false

/-- Reads an address of one to four parts; the last part fills the octets that are left. -/
def readIpv4? (domain : List Char) : Option Nat := do
  let numbers ← (addressParts domain).mapM readPart?
  let last ← numbers.getLast?
  let first := numbers.dropLast
  if first.length ≤ 3 ∧ first.all (decide <| · ≤ 255) ∧ last < Nat.pow 256 (4 - first.length) then
    some (first.zipIdx.foldl (fun n (octet, i) => n + octet * Nat.pow 256 (3 - i)) last)
  else none

/-- The four octets of an address in decimal. -/
def renderIpv4 (n : Nat) : List Char :=
  ['.'].intercalate ([3, 2, 1, 0].map fun i => Nat.toDigits 10 (n / Nat.pow 256 i % 256))

/-! ## Addresses of 128 bits -/

/-- Four decimal octets without leading zeros, as two pieces of sixteen bits. -/
def readTail? (text : List Char) : Option (List Nat) := do
  let octets ← (Text.pieces '.' text).mapM fun part =>
    if part.isEmpty ∨ 3 < part.length ∨ (part.length > 1 ∧ part.head? = some '0') then none
    else (readBase? 10 part).filter (· ≤ 255)
  match octets with
  | [a, b, c, d] => some [a * 256 + b, c * 256 + d]
  | _ => none

/-- Pieces of one to four hexadecimal digits between colons; the last one may be four decimal octets
if `tail` allows it. -/
def readPieces? (tail : Bool) (text : List Char) : Option (List Nat) :=
  if text.isEmpty then some []
  else
    let parts := Text.pieces ':' text
    let piece? (part : List Char) : Option Nat :=
      if part.isEmpty ∨ 4 < part.length then none else readBase? 16 part
    match parts.getLast? with
    | some last =>
      if tail ∧ last.contains '.' then do
        let pieces ← parts.dropLast.mapM piece?
        let low ← readTail? last
        return pieces ++ low
      else parts.mapM piece?
    | none => none

/-- Splits a text at the first two colons in a row. -/
def splitGap? : List Char → Option (List Char × List Char)
  | ':' :: ':' :: rest => some ([], rest)
  | c :: rest => (splitGap? rest).map fun (before, after) => (c :: before, after)
  | [] => none

/-- Reads eight pieces, or fewer with a gap that stands for at least one zero. -/
def readIpv6? (text : List Char) : Option (List Nat) := do
  match splitGap? text with
  | none =>
    let pieces ← readPieces? true text
    if pieces.length = 8 then some pieces else none
  | some (before, after) =>
    let high ← readPieces? false before
    let low ← readPieces? true after
    if high.length + low.length ≤ 7 then
      some (high ++ List.replicate (8 - high.length - low.length) 0 ++ low)
    else none

/-- The length of the run of zeros at the start of a list. -/
def zeroRun (pieces : List Nat) : Nat :=
  (pieces.takeWhile (· == 0)).length

/-- The first longest run of zeros: where it starts and how long it is. -/
def longestRun (pieces : List Nat) : Nat × Nat :=
  (List.range pieces.length).foldl
    (fun best i => if best.2 < zeroRun (pieces.drop i) then (i, zeroRun (pieces.drop i)) else best)
    (0, 0)

/-- Pieces in lower case hexadecimal; the first longest run of two zeros or more is a gap. -/
def renderIpv6 (pieces : List Nat) : List Char :=
  let (start, length) := longestRun pieces
  let join (l : List Nat) := [':'].intercalate (l.map (Nat.toDigits 16))
  if 2 ≤ length then join (pieces.take start) ++ [':', ':'] ++ join (pieces.drop (start + length))
  else join pieces

/-- Reads an address in brackets. -/
def readBracketed (text : List Char) : Except UrlError (List Char) :=
  if text.getLast? = some ']' then
    match readIpv6? (text.drop 1).dropLast with
    | some pieces => .ok (['['] ++ renderIpv6 pieces ++ [']'])
    | none => .error .badIpv6
  else .error .badIpv6

/-! ## Hosts of all kinds -/

/-- Characters that no domain may hold. -/
def isForbidden (c : Char) : Bool :=
  decide (c.toNat ≤ 0x20) || c.toNat == 0x7F ||
    ['#', '%', '/', ':', '<', '>', '?', '@', '[', '\\', ']', '^', '|'].contains c

/-- Characters that no opaque host may hold. -/
def isForbiddenOpaque (c : Char) : Bool :=
  ['\x00', '\t', '\n', '\r', ' ', '#', '/', ':', '<', '>', '?', '@', '[', '\\', ']', '^',
    '|'].contains c

/-- The host of a special scheme: an address, or a domain in lower case and ASCII. -/
def readSpecial (text : List Char) : Except UrlError (List Char) :=
  if text.head? = some '[' then readBracketed text
  else
    match (Utf8.decode? (Percent.decode text)).bind Domain.toAscii? with
    | none => .error .badDomain
    | some domain =>
      if domain.any isForbidden then .error .badDomain
      else if domain.isEmpty then .error .emptyHost
      else if endsInNumber domain then
        match readIpv4? domain with
        | some address => .ok (renderIpv4 address)
        | none => .error .badIpv4
      else .ok domain

/-- The host of any other scheme. -/
def readOpaque (text : List Char) : Except UrlError (List Char) :=
  if text.head? = some '[' then readBracketed text
  else if text.any isForbiddenOpaque then .error .badHostCharacter
  else .ok (Percent.encode Percent.inOpaque text)

end ScriptTree.Host
