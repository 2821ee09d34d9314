/-!
# Sets of code points as ranges

A character property of the Unicode database is a set of code points; it is written down as the
closed intervals it consists of.
-/

namespace CloudRoster.Text

/-- A set of code points, as a list of closed intervals. -/
abbrev Ranges := List (Nat × Nat)

/-- Whether a character lies in one of the intervals. -/
def Ranges.covers (ranges : Ranges) (c : Char) : Bool :=
  ranges.any fun r => r.1 ≤ c.toNat && c.toNat ≤ r.2

end CloudRoster.Text
