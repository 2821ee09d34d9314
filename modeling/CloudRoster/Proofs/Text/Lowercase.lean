import CloudRoster.Text.Lowercase

/-!
# Lowercase text is settled

Lowering leaves nothing behind that it would change again: no lowercase form is a capital of the
table, and a small sigma, final or not, stays what it is whatever stands around it. So lowering a
text once more changes nothing.

A text may be lowered piece by piece where a character divides it that is no letter and that the
search for a letter does not skip: no capital sigma sees across it.
-/

namespace CloudRoster.Text

/-! ## The table -/

namespace CaseRun

/-- Whether no lowercase form of the first run is covered by the second: the forms stand before it
or behind it, or alternate with its capitals. -/
def passes (r q : CaseRun) : Bool :=
  (r.image + (r.last - r.first)).blt q.first || q.last.blt r.image ||
    (q.step.beq 2 && (r.step.beq 2 || r.first.beq r.last) && (r.image % 2 + q.first % 2).beq 1)

variable {r q : CaseRun} {n : Nat}

theorem covers_iff :
    r.covers n = true ↔ r.first ≤ n ∧ n ≤ r.last ∧ (n - r.first) % r.step = 0 := by
  simp [covers, and_assoc]

theorem covers_lower_of_passes (h : r.passes q = true) (hn : r.covers n = true) :
    q.covers (r.lower n) = false := by
  obtain ⟨hfirst, hlast, hstep⟩ := covers_iff.1 hn
  have hapart : r.image + (r.last - r.first) < q.first ∨ q.last < r.image ∨
      q.step = 2 ∧ (r.step = 2 ∨ r.first = r.last) ∧ r.image % 2 + q.first % 2 = 1 := by
    simpa [passes, or_assoc, and_assoc] using h
  rw [Bool.eq_false_iff]
  intro hcovers
  obtain ⟨hfirst', hlast', hstep'⟩ := covers_iff.1 hcovers
  unfold lower at hfirst' hlast' hstep'
  rcases hapart with hbefore | hbehind | ⟨htwo, halternates, hparity⟩
  · omega
  · omega
  · rw [htwo] at hstep'
    rcases halternates with htwo' | hsingle
    · rw [htwo'] at hstep
      omega
    · omega

end CaseRun

/-- No lowercase form of the table is a capital of the table. -/
theorem caseRuns_pass : (caseRuns.all fun r => caseRuns.all r.passes) = true := by
  decide +kernel

/-- The lowercase forms of the table are characters, and none of them is the capital I with a dot
above. -/
theorem caseRuns_images : ∀ r ∈ caseRuns,
    (r.image + (r.last - r.first) < 0xD800 ∨
      0xE000 ≤ r.image ∧ r.image + (r.last - r.first) < 0x110000) ∧
    (r.image + (r.last - r.first) < 0x130 ∨ 0x130 < r.image) := by
  decide +kernel

/-! ## Settled characters -/

/-- A character that lowering leaves as it is. -/
def Settled (c : Char) : Prop := (∀ r ∈ caseRuns, r.covers c.toNat = false) ∧ c ≠ 'İ'

/-- Characters are checked against the table. -/
instance instDecidableSettled (c : Char) : Decidable (Settled c) :=
  decidable_of_iff ((caseRuns.all fun r => !r.covers c.toNat) = true ∧ c ≠ 'İ')
    (by simp [Settled])

variable {c : Char}

theorem Settled.ne_sigma (h : Settled c) : c ≠ 'Σ' := by
  rintro rfl
  exact absurd h (by decide +kernel)

/-- The capitals of ASCII are the only ones below it. -/
theorem caseRuns_ascii : ∀ r ∈ caseRuns, (r.first = 0x41 ∧ r.last = 0x5A) ∨ 0x80 ≤ r.first := by
  decide +kernel

theorem settled_of_ascii (h : c.toNat < 0x80) (hcapital : ¬ (0x41 ≤ c.toNat ∧ c.toNat ≤ 0x5A)) :
    Settled c := by
  refine ⟨fun r hr => ?_, ?_⟩
  · rw [Bool.eq_false_iff]
    intro hcovers
    obtain ⟨hfirst, hlast, -⟩ := CaseRun.covers_iff.1 hcovers
    have := caseRuns_ascii r hr
    omega
  · rintro rfl
    exact absurd h (by decide)

theorem lowerChar_of_settled (h : Settled c) : lowerChar c = [c] := by
  unfold lowerChar
  split
  · -- ASCII capitals are the first run of the table
    next hascii =>
    have hcapital : ¬ (c.val ≥ 'A'.val ∧ c.val ≤ 'Z'.val) := fun ⟨hleast, hmost⟩ => by
      have hcovers : (⟨0x41, 0x5A, 1, 0x61⟩ : CaseRun).covers c.toNat = true :=
        CaseRun.covers_iff.2 ⟨hleast, hmost, Nat.mod_one _⟩
      rw [h.1 _ (by decide)] at hcovers
      cases hcovers
    unfold Char.toLower
    rw [dif_neg hcapital]
  · rw [if_neg h.2, List.find?_eq_none.2 fun r hr => by simp [h.1 r hr]]

theorem toNat_ofNat_of_lt {n : Nat} (h : n < 0xD800 ∨ 0xE000 ≤ n ∧ n < 0x110000) :
    (Char.ofNat n).toNat = n := by
  have hvalid : n.isValidChar := by
    rcases h with h | ⟨hleast, hmost⟩
    · exact .inl h
    · exact .inr ⟨by omega, hmost⟩
  unfold Char.ofNat
  rw [dif_pos hvalid]
  rfl

/-- What the table makes of a capital is settled. -/
theorem settled_lower {r : CaseRun} (hr : r ∈ caseRuns) {n : Nat} (hn : r.covers n = true) :
    Settled (Char.ofNat (r.lower n)) := by
  obtain ⟨hfirst, hlast, -⟩ := CaseRun.covers_iff.1 hn
  obtain ⟨hvalid, hdotted⟩ := caseRuns_images r hr
  have hlow : r.image ≤ r.lower n := Nat.le_add_right ..
  have hhigh : r.lower n ≤ r.image + (r.last - r.first) := by
    unfold CaseRun.lower
    omega
  have hnat : (Char.ofNat (r.lower n)).toNat = r.lower n := toNat_ofNat_of_lt (by omega)
  refine ⟨fun q hq => ?_, fun hchar => ?_⟩
  · rw [hnat]
    exact CaseRun.covers_lower_of_passes
      (List.all_eq_true.1 (List.all_eq_true.1 caseRuns_pass r hr) q hq) hn
  · rw [hchar] at hnat
    have hnumber : ('İ' : Char).toNat = 0x130 := rfl
    omega

/-- What becomes of a character on its own is settled. -/
theorem settled_of_mem_lowerChar {d : Char} (h : d ∈ lowerChar c) : Settled d := by
  unfold lowerChar at h
  split at h
  · next hascii =>
    obtain rfl := List.mem_singleton.1 h
    have hall : ∀ n < 0x80, (Char.ofNat n).toLower.toNat < 0x80 ∧
        ¬ (0x41 ≤ (Char.ofNat n).toLower.toNat ∧ (Char.ofNat n).toLower.toNat ≤ 0x5A) := by
      decide +kernel
    have hc := hall c.toNat hascii
    rw [Char.ofNat_toNat] at hc
    exact settled_of_ascii hc.1 hc.2
  · split at h
    · have hletter : Settled 'i' := by decide +kernel
      have hdot : Settled '\u0307' := by decide +kernel
      rcases List.mem_cons.1 h with rfl | h
      · exact hletter
      · exact List.mem_singleton.1 h ▸ hdot
    · next hdotted =>
      split at h
      · next r hfind =>
        obtain rfl := List.mem_singleton.1 h
        exact settled_lower (List.mem_of_find?_eq_some hfind) (by simpa using List.find?_some hfind)
      · next hfind =>
        obtain rfl := List.mem_singleton.1 h
        exact ⟨fun r hr => by simpa using List.find?_eq_none.1 hfind r hr, hdotted⟩

theorem settled_lowerSigma (before after : List Char) : Settled (lowerSigma before after) := by
  unfold lowerSigma
  split <;> decide +kernel

/-! ## Settled texts -/

/-- Every character of a lowered text is settled. -/
theorem settled_of_mem_lowerAfter {d : Char} {before l : List Char} (h : d ∈ lowerAfter before l) :
    Settled d := by
  induction l generalizing before with
  | nil => cases h
  | cons c l ih =>
    unfold lowerAfter at h
    split at h
    · rcases List.mem_cons.1 h with rfl | h
      · exact settled_lowerSigma before l
      · exact ih h
    · rcases List.mem_append.1 h with h | h
      · exact settled_of_mem_lowerChar h
      · exact ih h

/-- Lowering leaves settled characters as they are, wherever they stand. -/
theorem lowerAfter_of_settled {l : List Char} (h : ∀ c ∈ l, Settled c) (before : List Char) :
    lowerAfter before l = l := by
  induction l generalizing before with
  | nil => rfl
  | cons c l ih =>
    obtain ⟨hc, hl⟩ := List.forall_mem_cons.1 h
    rw [lowerAfter, if_neg hc.ne_sigma, lowerChar_of_settled hc, ih hl, List.singleton_append]

/-- Lowering a text once more changes nothing. -/
theorem lowercase_lowercase (s : String) : lowercase (lowercase s) = lowercase s := by
  unfold lowercase
  rw [String.toList_ofList, lowerAfter_of_settled fun _ => settled_of_mem_lowerAfter]

/-! ## Dividing a text -/

/-- A character that no capital sigma sees across. -/
def Divides (c : Char) : Prop :=
  Settled c ∧ isCaseIgnorable c = false ∧ isCased c = false

/-- Characters are checked against the tables. -/
instance instDecidableDivides (c : Char) : Decidable (Divides c) :=
  inferInstanceAs (Decidable (_ ∧ _))

theorem meetsLetter_append_cons {sep : Char} (h : Divides sep) (l r : List Char) :
    meetsLetter (l ++ sep :: r) = meetsLetter l := by
  obtain ⟨-, hignorable, hcased⟩ := h
  induction l with
  | nil => simp [meetsLetter, hignorable, hcased]
  | cons c l ih => rw [List.cons_append, meetsLetter, meetsLetter, ih]

/-- In front of a dividing character a text is lowered as if nothing followed. -/
theorem lowerAfter_append_cons {sep : Char} (h : Divides sep) (before l r : List Char) :
    lowerAfter before (l ++ sep :: r) =
      lowerAfter before l ++ sep :: lowerAfter (sep :: (l.reverse ++ before)) r := by
  induction l generalizing before with
  | nil => simp [lowerAfter, h.1.ne_sigma, lowerChar_of_settled h.1]
  | cons c l ih =>
    have hrest : lowerAfter (c :: before) (l ++ sep :: r) = lowerAfter (c :: before) l ++
        sep :: lowerAfter (sep :: ((c :: l).reverse ++ before)) r := by
      rw [ih, List.reverse_cons, List.append_assoc]
      rfl
    by_cases hc : c = 'Σ'
    · simp only [List.cons_append, lowerAfter, if_pos hc, hrest, lowerSigma,
        meetsLetter_append_cons h]
    · simp only [List.cons_append, lowerAfter, if_neg hc, hrest, List.append_assoc]

end CloudRoster.Text
