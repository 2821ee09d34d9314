import CloudRoster.Json.Codec

/-!
# Universally unique identifiers

An identifier is 128 bits. It is written as 32 lowercase hexadecimal digits in groups of 8, 4, 4, 4
and 12. It is read in either case, in that form, without hyphens, between braces or behind the
prefix of a resource name.
-/

namespace CloudRoster

/-- A universally unique identifier. -/
structure Uuid where
  /-- The bits, the first digit standing for the highest ones. -/
  bits : BitVec 128
  deriving Repr, DecidableEq

namespace Uuid

/-- The last `count` hexadecimal digits of a natural. -/
def fixedDigits : Nat → Nat → List Char
  | 0, _ => []
  | count + 1, n => fixedDigits count (n / 16) ++ [Text.Hex.digit (n % 16)]

/-- The digits of an identifier, without hyphens. -/
def digits (u : Uuid) : List Char := fixedDigits 32 u.bits.toNat

/-- Digits in groups of 8, 4, 4, 4 and 12 with hyphens between them. -/
def hyphenate (ds : List Char) : List Char :=
  ds.take 8 ++ '-' :: (ds.drop 8).take 4 ++ '-' :: (ds.drop 12).take 4 ++
    '-' :: (ds.drop 16).take 4 ++ '-' :: ds.drop 20

/-- The text of an identifier. -/
def text (u : Uuid) : String := String.ofList (hyphenate u.digits)

/-- Reads 32 digits. -/
def ofDigits? (ds : List Char) : Option Uuid :=
  if ds.length = 32 then (Text.Hex.number? ds).map fun n => ⟨BitVec.ofNat 128 n⟩ else none

/-- Reads digits in groups with hyphens between them. -/
def ofHyphenated? (cs : List Char) : Option Uuid :=
  let ds := cs.take 8 ++ (cs.drop 9).take 4 ++ (cs.drop 14).take 4 ++ (cs.drop 19).take 4 ++
    cs.drop 24
  if cs.length = 36 && [8, 13, 18, 23].all (cs[·]? == some '-') then ofDigits? ds else none

/-- The prefix of the resource names of identifiers. -/
def namePrefix : List Char := ['u', 'r', 'n', ':', 'u', 'u', 'i', 'd', ':']

/-- The identifier that a text stands for. -/
def ofText? (s : String) : Option Uuid :=
  let cs := s.toList
  if cs.length = 32 then ofDigits? cs
  else if cs.length = 36 then ofHyphenated? cs
  else if cs.length = 38 then
    if cs.head? = some '\x7b' && cs.getLast? = some '\x7d' then ofHyphenated? (cs.drop 1).dropLast
    else none
  else if (cs.take 9).map Char.toLower = namePrefix then ofHyphenated? (cs.drop 9)
  else none

/-! ## Random identifiers -/

/-- The six bits that are the same in all random identifiers. -/
def randomMark : BitVec 128 := BitVec.ofNat 128 ((4 <<< 76) + (2 <<< 62))

/-- The places of these bits. -/
def randomMask : BitVec 128 := BitVec.ofNat 128 ((15 <<< 76) + (3 <<< 62))

/-- The random identifier that is made from bits. -/
def ofRandom (bits : BitVec 128) : Uuid := ⟨(bits &&& ~~~randomMask) ||| randomMark⟩

/-- Whether an identifier says of itself that it is random. -/
def isRandom (u : Uuid) : Bool := u.bits &&& randomMask = randomMark

/-- Random identifiers say so. -/
theorem isRandom_ofRandom (bits : BitVec 128) : (ofRandom bits).isRandom = true := by
  simp only [isRandom, ofRandom, decide_eq_true_eq, BitVec.and_or_distrib_right]
  rw [BitVec.and_assoc, show ~~~randomMask &&& randomMask = 0#128 by decide,
    show randomMark &&& randomMask = randomMark by decide]
  simp

/-- Identifiers are written as texts. -/
def codec : Json.Codec Uuid where
  write u := .text u.text
  read _
    | .text s => match ofText? s with
      | some u => .ok u
      | none => .error .malformedUuid
    | d => .error (d.mismatch "a formatted UUID string")

end Uuid

end CloudRoster
