import CloudRoster.Identity.Uuid
import CloudRoster.Proofs.Json.Faithful

/-!
# Identifiers that are read back

The text of an identifier stands for that identifier, so the codec of identifiers is faithful.
-/

namespace CloudRoster.Uuid

/-! ## Digits -/

theorem length_fixedDigits (count n : Nat) : (fixedDigits count n).length = count := by
  induction count generalizing n with
  | zero => rfl
  | succ count ih => simp [fixedDigits, ih]

/-- Digits are read on top of those before them. -/
theorem foldlM_fixedDigits (count n before : Nat) :
    (fixedDigits count n).foldlM (fun n c => (Text.Hex.value? c).map (n * 16 + ·)) before =
      some (before * Nat.pow 16 count + n % Nat.pow 16 count) := by
  induction count generalizing n with
  | zero =>
    show _ = some (before * 1 + n % 1)
    rw [Nat.mod_one]
    simp [fixedDigits]
  | succ count ih =>
    have hpow : Nat.pow 16 (count + 1) = Nat.pow 16 count * 16 := rfl
    have hsplit : n % Nat.pow 16 (count + 1) = n % 16 + 16 * (n / 16 % Nat.pow 16 count) := by
      rw [hpow, Nat.mul_comm, Nat.mod_mul]
    have hdigit := Text.Hex.value?_digit (Nat.mod_lt n (show 0 < 16 by decide))
    simp only [fixedDigits, List.foldlM_append, ih, List.foldlM_cons, List.foldlM_nil]
    show ((Text.Hex.value? (Text.Hex.digit (n % 16))).map _).bind some = _
    rw [hdigit, hsplit, hpow]
    simp only [Option.map_some, Option.bind_some, Option.some.injEq]
    rw [Nat.add_mul, Nat.mul_assoc]
    omega

theorem ofDigits?_digits (u : Uuid) : ofDigits? u.digits = some u := by
  have hsize : u.bits.toNat < Nat.pow 16 32 := Nat.lt_of_lt_of_eq u.bits.isLt (by decide)
  have hnumber : Text.Hex.number? u.digits = some u.bits.toNat := by
    unfold Text.Hex.number? digits
    rw [foldlM_fixedDigits, Nat.mod_eq_of_lt hsize]
    simp
  unfold ofDigits?
  rw [if_pos (show u.digits.length = 32 from length_fixedDigits _ _), hnumber]
  simp

/-! ## Groups of digits -/

/-- Groups with hyphens between them are read as the digits of the groups. -/
theorem ofHyphenated?_groups {a b c d e : List Char} (ha : a.length = 8) (hb : b.length = 4)
    (hc : c.length = 4) (hd : d.length = 4) (he : e.length = 12) :
    ofHyphenated? (a ++ '-' :: b ++ '-' :: c ++ '-' :: d ++ '-' :: e) =
      ofDigits? (a ++ b ++ c ++ d ++ e) := by
  unfold ofHyphenated?
  simp [List.drop_append, List.getElem?_append, List.drop_eq_nil_of_le,
    ha, hb, hc, hd, he]

/-- The digits without the hyphens are those that the hyphens were put between. -/
theorem ofHyphenated?_hyphenate {ds : List Char} (h : ds.length = 32) :
    ofHyphenated? (hyphenate ds) = ofDigits? ds := by
  have hgroups : ds.take 8 ++ (ds.drop 8).take 4 ++ (ds.drop 12).take 4 ++ (ds.drop 16).take 4 ++
      ds.drop 20 = ds := by
    have h12 : ds.drop 12 = (ds.drop 8).drop 4 := by simp
    have h16 : ds.drop 16 = (ds.drop 12).drop 4 := by simp
    have h20 : ds.drop 20 = (ds.drop 16).drop 4 := by simp
    rw [h20, List.append_assoc _ _ (List.drop 4 _), List.take_append_drop, h16,
      List.append_assoc _ _ (List.drop 4 _), List.take_append_drop, h12,
      List.append_assoc _ _ (List.drop 4 _), List.take_append_drop, List.take_append_drop]
  refine (ofHyphenated?_groups ?_ ?_ ?_ ?_ ?_).trans (congrArg ofDigits? hgroups)
  all_goals simp [h]

theorem length_hyphenate {ds : List Char} (h : ds.length = 32) : (hyphenate ds).length = 36 := by
  simp only [hyphenate, List.length_append, List.length_cons, List.length_take, List.length_drop, h]
  omega

/-! ## The codec -/

/-- The text of an identifier stands for the identifier. -/
theorem ofText?_text (u : Uuid) : ofText? u.text = some u := by
  have hdigits : u.digits.length = 32 := length_fixedDigits _ _
  have hlength := length_hyphenate hdigits
  unfold ofText? text
  rw [String.toList_ofList, if_neg (by omega), if_pos hlength, ofHyphenated?_hyphenate hdigits,
    ofDigits?_digits]

theorem faithful_codec : codec.Faithful := by
  refine ⟨fun u => ?_, fun medium u => ?_⟩
  · exact trivial
  · have hdraft : (codec.write u).draft = .text u.text := rfl
    rw [hdraft]
    simp only [codec, ofText?_text]

end CloudRoster.Uuid
