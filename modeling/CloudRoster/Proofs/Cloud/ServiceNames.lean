import CloudRoster.Cloud.Service
import CloudRoster.Proofs.Text.Lowercase

/-!
# Names of services

The name of a service is that of its group with a hyphen and the number behind it, and the service
is told apart by the lowercase form of it all. The hyphen divides the name for lowering, and it is
the last one, since a number has none. So the key says what the key of the group is and what the
number is: two services have the same key only if they have the same number in the same group.
-/

namespace CloudRoster

open Text (lowercase lowerAfter Settled Divides)

/-- Lists with the same last separator are equal in front of it and behind it. -/
theorem append_cons_inj_of_notMem {α : Type} {sep : α} {a b d e : List α} (hd : sep ∉ d)
    (he : sep ∉ e) (h : a ++ sep :: d = b ++ sep :: e) : a = b ∧ d = e := by
  rcases List.append_eq_append_iff.1 h with ⟨between, rfl, hbehind⟩ | ⟨between, rfl, hbehind⟩
  · cases between with
    | nil => exact ⟨(List.append_nil a).symm, (List.cons.inj hbehind).2⟩
    | cons x between =>
      -- the separator of the other list would stand among what is behind
      obtain ⟨-, rfl⟩ := List.cons.inj hbehind
      exact absurd (List.mem_append_right _ List.mem_cons_self) hd
  · cases between with
    | nil => exact ⟨List.append_nil b, (List.cons.inj hbehind).2.symm⟩
    | cons x between =>
      obtain ⟨-, rfl⟩ := List.cons.inj hbehind
      exact absurd (List.mem_append_right _ List.mem_cons_self) he

namespace Text

theorem divides_hyphen : Divides '-' := by decide +kernel

/-- Decimal digits stand between a point and the capitals. -/
theorem toNat_of_isDigit {c : Char} (h : c.isDigit = true) : 0x30 ≤ c.toNat ∧ c.toNat ≤ 0x39 := by
  simp only [Char.isDigit, Bool.and_eq_true, decide_eq_true_eq] at h
  exact h

theorem settled_of_mem_toDigits {n : Nat} {c : Char} (h : c ∈ Nat.toDigits 10 n) : Settled c := by
  have hdigit := toNat_of_isDigit (Nat.isDigit_of_mem_toDigits (by decide) (by decide) h)
  exact settled_of_ascii (by omega) (by omega)

theorem hyphen_notMem_toDigits (n : Nat) : '-' ∉ Nat.toDigits 10 n := fun h => by
  have hdigit := Nat.isDigit_of_mem_toDigits (by decide) (by decide) h
  exact absurd hdigit (by decide)

end Text

namespace Service

/-- The lowercase form of the name of a service: that of the group, the hyphen and the number. -/
theorem toList_lowercase_name (s : Service) : (lowercase s.name).toList =
    (lowercase s.groupName).toList ++ '-' :: Nat.toDigits 10 s.serviceNumber.toNat := by
  have hname : s.name.toList =
      s.groupName.toList ++ '-' :: Nat.toDigits 10 s.serviceNumber.toNat := by
    simp [name]
  unfold lowercase
  rw [String.toList_ofList, String.toList_ofList, hname,
    Text.lowerAfter_append_cons Text.divides_hyphen,
    Text.lowerAfter_of_settled fun _ => Text.settled_of_mem_toDigits]

/-- Services have the same key exactly if they have the same number and the names of their groups
have the same key, whatever characters these are made of. -/
theorem key_eq_key_iff (s t : Service) : s.key = t.key ↔
    NameKey.ofName s.groupName = NameKey.ofName t.groupName ∧
      s.serviceNumber = t.serviceNumber := by
  constructor
  · intro h
    have hlower : lowercase s.name = lowercase t.name := congrArg NameKey.text h
    have hlist := congrArg String.toList hlower
    rw [toList_lowercase_name, toList_lowercase_name] at hlist
    obtain ⟨hgroup, hnumber⟩ := append_cons_inj_of_notMem (Text.hyphen_notMem_toDigits _)
      (Text.hyphen_notMem_toDigits _) hlist
    refine ⟨congrArg NameKey.mk (String.toList_inj.1 hgroup), UInt32.toNat_inj.1 ?_⟩
    have hread := congrArg (Nat.ofDigitChars 10 · 0) hnumber
    simpa only [Nat.ofDigitChars_ten_toDigits] using hread
  · rintro ⟨hgroup, hnumber⟩
    have hlower : lowercase s.groupName = lowercase t.groupName := congrArg NameKey.text hgroup
    refine congrArg NameKey.mk (String.toList_inj.1 ?_)
    rw [toList_lowercase_name, toList_lowercase_name, hlower, hnumber]

end Service

end CloudRoster
