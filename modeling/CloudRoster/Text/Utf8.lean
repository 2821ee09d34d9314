/-!
# Characters of bytes

Bytes that were to be UTF-8 are taken apart into characters. A byte at which no character begins is
kept as a stray byte, so nothing is lost and nothing is guessed.
-/

namespace CloudRoster.Text

/-- The characters from a position on, with `none` for each stray byte. -/
def unitsFrom (bytes : ByteArray) (position : Nat) : List (Option Char) :=
  if _h : position < bytes.size then
    match bytes.utf8DecodeChar? position with
    | some c => some c :: unitsFrom bytes (position + c.utf8Size)
    | none => none :: unitsFrom bytes (position + 1)
  else []
termination_by bytes.size - position
decreasing_by
  · have := c.utf8Size_pos
    omega
  · omega

/-- A text is read back from its bytes. -/
theorem fromUTF8?_toUTF8 (s : String) : String.fromUTF8? s.toUTF8 = some s := by
  unfold String.fromUTF8?
  rw [String.toUTF8_eq_toByteArray, dif_pos (String.isValidUTF8 _)]
  rfl

end CloudRoster.Text
