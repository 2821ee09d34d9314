/-!
# Equality that ignores the case of ASCII letters

Names are scanned with a comparison that treats `A` … `Z` and `a` … `z` alike and every other
character as itself.
-/

namespace CloudRoster.Text

/-- The text with `A` … `Z` replaced by `a` … `z`. -/
def asciiLower (s : String) : String := String.ofList (s.toList.map Char.toLower)

/-- Whether two texts differ at most in the case of ASCII letters. -/
def sameIgnoringAsciiCase (s t : String) : Bool :=
  s.toList.map Char.toLower == t.toList.map Char.toLower

end CloudRoster.Text
