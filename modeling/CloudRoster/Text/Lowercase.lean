import CloudRoster.Text.Cased
import CloudRoster.Text.LowercaseTable

/-!
# Lowercase text

Full lowercasing of a text. Every character is replaced by its lowercase form, with two
exceptions: a capital I with a dot above becomes two characters, and a capital sigma becomes the
final small sigma exactly where it ends a word — a letter stands before it and none after it, where
case-ignorable characters in between are skipped.
-/

namespace CloudRoster.Text

/-- The lowercase form of a character on its own, outside any word. -/
def lowerChar (c : Char) : List Char :=
  if c.toNat < 0x80 then [c.toLower]
  else if c = 'İ' then ['i', '\u0307']
  else
    match caseRuns.find? (·.covers c.toNat) with
    | some run => [Char.ofNat (run.lower c.toNat)]
    | none => [c]

/-- Whether the first character that is not case-ignorable is a cased one. -/
def meetsLetter : List Char → Bool
  | [] => false
  | c :: rest => if isCaseIgnorable c then meetsLetter rest else isCased c

/-- The lowercase form of a capital sigma between the characters `before` it (nearest first) and
`after` it. -/
def lowerSigma (before after : List Char) : Char :=
  if meetsLetter before && !meetsLetter after then 'ς' else 'σ'

/-- The lowercase form of a text that continues the characters `before` (nearest first). -/
def lowerAfter (before : List Char) : List Char → List Char
  | [] => []
  | c :: rest =>
    if c = 'Σ' then lowerSigma before rest :: lowerAfter (c :: before) rest
    else lowerChar c ++ lowerAfter (c :: before) rest

/-- The lowercase form of a text. -/
def lowercase (s : String) : String := String.ofList (lowerAfter [] s.toList)

end CloudRoster.Text
