import CloudRoster.Identity.NameKey
import CloudRoster.Text.AsciiCase

/-!
# Case of ASCII letters and keys of names

Names that differ at most in the case of ASCII letters have the same key: to the lowercase form a
capital ASCII letter is what its small letter is, by itself and as a neighbour of a capital sigma.
The converse fails, since keys ignore the case of all letters.
-/

namespace CloudRoster

namespace Text

/-- A capital ASCII letter. -/
def capital (n : Nat) : Char := Char.ofNat (65 + n)

/-- The small letter of an ASCII capital has its properties, and its lowercase form. -/
theorem toLower_capital : ∀ n < 26,
    isCased (capital n).toLower = isCased (capital n) ∧
      isCaseIgnorable (capital n).toLower = isCaseIgnorable (capital n) ∧
      lowerChar (capital n).toLower = lowerChar (capital n) ∧
      ((capital n).toLower = 'Σ' ↔ capital n = 'Σ') := by
  decide +kernel

/-- What holds of equal characters, and of the small letter of an ASCII capital and that capital,
holds of the small letter of every character and the character. -/
theorem of_capital {P : Char → Char → Prop} (hself : ∀ c, P c c)
    (hcapital : ∀ n < 26, P (capital n).toLower (capital n)) (c : Char) : P c.toLower c := by
  by_cases h : c.val ≥ 'A'.val ∧ c.val ≤ 'Z'.val
  · have hleast : 65 ≤ c.toNat := h.1
    have hmost : c.toNat ≤ 90 := h.2
    have hc : capital (c.toNat - 65) = c := by
      unfold capital
      rw [Nat.add_sub_cancel' hleast, Char.ofNat_toNat]
    rw [← hc]
    exact hcapital _ (by omega)
  · have hsame : c.toLower = c := by
      unfold Char.toLower
      rw [dif_neg h]
    rw [hsame]
    exact hself c

theorem isCased_toLower (c : Char) : isCased c.toLower = isCased c :=
  of_capital (P := fun a b => isCased a = isCased b) (fun _ => rfl)
    (fun n h => (toLower_capital n h).1) c

theorem isCaseIgnorable_toLower (c : Char) : isCaseIgnorable c.toLower = isCaseIgnorable c :=
  of_capital (P := fun a b => isCaseIgnorable a = isCaseIgnorable b) (fun _ => rfl)
    (fun n h => (toLower_capital n h).2.1) c

theorem lowerChar_toLower (c : Char) : lowerChar c.toLower = lowerChar c :=
  of_capital (P := fun a b => lowerChar a = lowerChar b) (fun _ => rfl)
    (fun n h => (toLower_capital n h).2.2.1) c

theorem toLower_eq_sigma (c : Char) : c.toLower = 'Σ' ↔ c = 'Σ' :=
  of_capital (P := fun a b => a = 'Σ' ↔ b = 'Σ') (fun _ => .rfl)
    (fun n h => (toLower_capital n h).2.2.2) c

theorem meetsLetter_map_toLower (l : List Char) :
    meetsLetter (l.map Char.toLower) = meetsLetter l := by
  induction l with
  | nil => rfl
  | cons c l ih =>
    simp only [List.map_cons, meetsLetter, isCaseIgnorable_toLower, isCased_toLower, ih]

/-- The lowercase form of a text and of what stands before it may be taken with small ASCII
letters. -/
theorem lowerAfter_map_toLower (before l : List Char) :
    lowerAfter (before.map Char.toLower) (l.map Char.toLower) = lowerAfter before l := by
  induction l generalizing before with
  | nil => rfl
  | cons c l ih =>
    have hrest : lowerAfter (c.toLower :: before.map Char.toLower) (l.map Char.toLower) =
        lowerAfter (c :: before) l := ih (c :: before)
    simp only [List.map_cons, lowerAfter, toLower_eq_sigma, lowerChar_toLower, lowerSigma,
      meetsLetter_map_toLower, hrest]

/-- Texts that differ at most in the case of ASCII letters have the same lowercase form. -/
theorem lowercase_eq_of_sameIgnoringAsciiCase {s t : String}
    (h : sameIgnoringAsciiCase s t = true) : lowercase s = lowercase t := by
  have hsmall : s.toList.map Char.toLower = t.toList.map Char.toLower := by
    simpa [sameIgnoringAsciiCase] using h
  unfold lowercase
  rw [← lowerAfter_map_toLower [] s.toList, hsmall, lowerAfter_map_toLower]

end Text

/-- Names that differ at most in the case of ASCII letters have the same key. -/
theorem NameKey.ofName_eq_of_sameIgnoringAsciiCase {s t : String}
    (h : Text.sameIgnoringAsciiCase s t = true) : NameKey.ofName s = NameKey.ofName t :=
  congrArg NameKey.mk (Text.lowercase_eq_of_sameIgnoringAsciiCase h)

end CloudRoster
