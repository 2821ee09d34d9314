import CloudRoster.Cache.LockTable
import Mathlib.Logic.Function.Basic

/-!
# Waiting lines

A lock table is seen key by key through `LockTable.holder?`, the claimant that has picked the key
up, and `LockTable.line`, the claimants that have called `ask` and have not picked it up. The head
of the line may have been handed the key already.

Each of `ask`, `pickUp`, `release` and `leave` updates the two functions at one key only, and the
line grows at its end, loses its head, or loses the claimant of a `leave`. So claimants pick a key
up in the order in which they asked. `Served` says that an entry without tenure has no queue; it is
kept also by the `leave` of a claimant that was handed the key.
-/

namespace CloudRoster.Cache

open Function (update)

namespace Lock

variable {ι : Type}

/-- The claimant who has picked the key up. -/
def holder? (l : Lock ι) : Option ι :=
  match l.tenure with
  | some (.held i) => some i
  | _ => none

/-- The claimants who have not picked the key up, in the order in which they asked. -/
def line (l : Lock ι) : List ι :=
  match l.tenure with
  | some (.handed i) => i :: l.waiting
  | _ => l.waiting

end Lock

namespace LockTable

variable {κ ι : Type} [DecidableEq κ]

/-- The claimant who holds a key. -/
def holder? (t : LockTable κ ι) (key : κ) : Option ι := (t.find? key).bind Lock.holder?

/-- The claimants that have asked for a key and have not picked it up, in the order of `ask`. -/
def line (t : LockTable κ ι) (key : κ) : List ι := ((t.find? key).map Lock.line).getD []

/-- A key without tenure has an empty queue. -/
def Served (t : LockTable κ ι) : Prop :=
  ∀ key l, t.find? key = some l → l.tenure = none → l.waiting = []

variable {t : LockTable κ ι} {key : κ} {i : ι}

theorem served_empty : (empty : LockTable κ ι).Served := fun _ _ h => nomatch h

theorem holder?_empty (key : κ) : (empty : LockTable κ ι).holder? key = none := rfl

theorem line_empty (key : κ) : (empty : LockTable κ ι).line key = [] := rfl

/-! ## The lock of a key -/

theorem holder?_of_none (h : t.find? key = none) : t.holder? key = none := by
  unfold holder?
  rw [h]
  rfl

theorem line_of_none (h : t.find? key = none) : t.line key = [] := by
  unfold line
  rw [h]
  rfl

theorem holder?_of_some {l : Lock ι} (h : t.find? key = some l) : t.holder? key = l.holder? := by
  unfold holder?
  rw [h]
  rfl

theorem line_of_some {l : Lock ι} (h : t.find? key = some l) : t.line key = l.line := by
  unfold line
  rw [h]
  rfl

/-! ## Another lock of a key -/

theorem holder?_put (t : LockTable κ ι) (key : κ) (l : Option (Lock ι)) :
    (t.put key l).holder? = update t.holder? key (l.bind Lock.holder?) := by
  funext other
  by_cases h : other = key
  · subst h
    rw [Function.update_self, holder?, find?_put_self]
  · rw [Function.update_of_ne h, holder?, find?_put_of_ne t h, holder?]

theorem line_put (t : LockTable κ ι) (key : κ) (l : Option (Lock ι)) :
    (t.put key l).line = update t.line key ((l.map Lock.line).getD []) := by
  funext other
  by_cases h : other = key
  · subst h
    rw [Function.update_self, line, find?_put_self]
  · rw [Function.update_of_ne h, line, find?_put_of_ne t h, line]

theorem Served.put (h : t.Served) {l : Option (Lock ι)}
    (hl : ∀ l', l = some l' → l'.tenure = none → l'.waiting = []) : (t.put key l).Served := by
  intro other l' hl'
  by_cases hother : other = key
  · subst hother
    rw [find?_put_self] at hl'
    exact hl l' hl'
  · rw [find?_put_of_ne t hother] at hl'
    exact h other l' hl'

/-! ## What the operations do -/

theorem served_next (waiting : List ι) :
    ∀ l', Lock.next waiting = some l' → l'.tenure = none → l'.waiting = [] := by
  cases waiting with
  | nil => exact nofun
  | cons i waiting => rintro _ ⟨⟩ ⟨⟩

/-- The lock that `Lock.next` makes has no holder, and by `line_next` the queue as its line. -/
theorem holder?_next (waiting : List ι) : (Lock.next waiting).bind Lock.holder? = none := by
  cases waiting <;> rfl

theorem line_next (waiting : List ι) : ((Lock.next waiting).map Lock.line).getD [] = waiting := by
  cases waiting <;> rfl

/-- An `ask` that gets the key found neither holder nor line, and makes the claimant the holder. -/
theorem ask_eq_true (hgot : (t.ask key i).2 = true) (h : t.Served) :
    t.holder? key = none ∧ t.line key = [] ∧ (t.ask key i).1.Served ∧
      (t.ask key i).1.holder? = update t.holder? key (some i) ∧ (t.ask key i).1.line = t.line := by
  unfold ask at hgot ⊢
  have hnobody : t.line key = [] → update t.line key [] = t.line := fun hline => by
    rw [← hline, Function.update_eq_self]
  cases hfind : t.find? key with
  | none =>
    have hline : t.line key = [] := line_of_none hfind
    refine ⟨holder?_of_none hfind, hline, h.put nofun, holder?_put .., ?_⟩
    exact (line_put ..).trans (hnobody hline)
  | some l =>
    obtain ⟨tenure, waiting⟩ := l
    cases tenure with
    | some tenure =>
      rw [hfind] at hgot
      cases hgot
    | none =>
      -- the entry of a key whose claimant left between handing over and `pickUp`
      have hwaiting : waiting = [] := h key _ hfind rfl
      subst hwaiting
      have hline : t.line key = [] := line_of_some hfind
      refine ⟨holder?_of_some hfind, hline, h.put ?_, holder?_put .., ?_⟩
      · rintro _ ⟨⟩ ⟨⟩
      · exact (line_put ..).trans (hnobody hline)

/-- An `ask` that does not get the key found a holder or a line, and puts the claimant at the end of
the line. -/
theorem ask_eq_false (hgot : (t.ask key i).2 = false) (h : t.Served) :
    (t.holder? key ≠ none ∨ t.line key ≠ []) ∧ (t.ask key i).1.Served ∧
      (t.ask key i).1.holder? = t.holder? ∧
      (t.ask key i).1.line = update t.line key (t.line key ++ [i]) := by
  unfold ask at hgot ⊢
  cases hfind : t.find? key with
  | none =>
    rw [hfind] at hgot
    cases hgot
  | some l =>
    obtain ⟨tenure, waiting⟩ := l
    cases tenure with
    | none =>
      rw [hfind] at hgot
      cases hgot
    | some tenure =>
      have hholder : t.holder? key = Lock.holder? ⟨some tenure, waiting ++ [i]⟩ :=
        (holder?_of_some hfind).trans rfl
      have hline : t.line key ++ [i] = Lock.line ⟨some tenure, waiting ++ [i]⟩ := by
        rw [line_of_some hfind]
        cases tenure <;> rfl
      refine ⟨?_, h.put (by rintro _ ⟨⟩ ⟨⟩), ?_, ?_⟩
      · cases tenure with
        | held j =>
          left
          rw [hholder]
          exact nofun
        | handed j =>
          right
          rw [line_of_some hfind]
          exact nofun
      · refine (holder?_put ..).trans ?_
        rw [Option.bind_some, ← hholder, Function.update_eq_self]
      · refine (line_put ..).trans ?_
        rw [Option.map_some, Option.getD_some, hline]

variable [DecidableEq ι]

/-- `isHanded` is true of the head of a line whose key has no holder. -/
theorem isHanded_iff (h : t.Served) : t.isHanded key i = true ↔
    t.holder? key = none ∧ ∃ rest, t.line key = i :: rest := by
  unfold isHanded holder? line
  cases hfind : t.find? key with
  | none => simp
  | some l =>
    obtain ⟨tenure, waiting⟩ := l
    cases tenure with
    | none =>
      have hwaiting : waiting = [] := h key _ hfind rfl
      simp [Lock.line, hwaiting]
    | some tenure => cases tenure <;> simp [Lock.holder?, Lock.line]

/-- `pickUp` makes the claimant that was handed the key its holder, and takes it off the head of the
line. -/
theorem pickUp_of_isHanded (hhanded : t.isHanded key i = true) (h : t.Served) :
    ∃ rest, t.line key = i :: rest ∧ (t.pickUp key i).Served ∧
      (t.pickUp key i).holder? = update t.holder? key (some i) ∧
      (t.pickUp key i).line = update t.line key rest := by
  unfold isHanded at hhanded
  cases hfind : t.find? key with
  | none =>
    rw [hfind] at hhanded
    cases hhanded
  | some l =>
    obtain ⟨tenure, waiting⟩ := l
    rw [hfind, Option.any_some, decide_eq_true_eq] at hhanded
    subst hhanded
    have hpick : t.pickUp key i = t.put key (some ⟨some (.held i), waiting⟩) := by
      unfold pickUp
      simp only [hfind, if_true]
    refine ⟨waiting, line_of_some hfind, ?_, ?_, ?_⟩
    · rw [hpick]
      exact h.put (by rintro _ ⟨⟩ ⟨⟩)
    · rw [hpick, holder?_put]
      rfl
    · rw [hpick, line_put]
      rfl

/-- `release` by the holder leaves the key without holder and the line as it is. -/
theorem release_of_holder (hheld : t.holder? key = some i) (h : t.Served) :
    (t.release key i).Served ∧ (t.release key i).holder? = update t.holder? key none ∧
      (t.release key i).line = t.line := by
  unfold holder? at hheld
  obtain ⟨⟨tenure, waiting⟩, hfind, hl⟩ := Option.bind_eq_some_iff.1 hheld
  have htenure : tenure = some (.held i) := by
    unfold Lock.holder? at hl
    split at hl
    · rename_i hheld
      rw [← Option.some.inj hl]
      exact hheld
    · cases hl
  subst htenure
  have hrelease : t.release key i = t.put key (Lock.next waiting) := by
    unfold release
    simp only [hfind, if_true]
  have hline : t.line key = waiting := line_of_some hfind
  rw [hrelease, holder?_put, line_put, holder?_next, line_next, ← hline, Function.update_eq_self]
  exact ⟨h.put (served_next _), rfl, rfl⟩

/-- `leave` takes the claimant out of the line and changes no holder. -/
theorem leave_eq (h : t.Served) (key : κ) (i : ι) :
    (t.leave key i).Served ∧ (t.leave key i).holder? = t.holder? ∧
      (t.leave key i).line = update t.line key ((t.line key).erase i) := by
  cases hfind : t.find? key with
  | none =>
    have hleave : t.leave key i = t := by
      unfold leave
      rw [hfind]
    have hline : (t.line key).erase i = t.line key := by
      rw [line_of_none hfind]
      rfl
    rw [hleave, hline, Function.update_eq_self]
    exact ⟨h, rfl, rfl⟩
  | some l =>
    obtain ⟨tenure, waiting⟩ := l
    -- the lock that `leave` puts has the same holder and the line without the claimant
    obtain ⟨l', hleave, hserved, hholder, hline⟩ : ∃ l' : Lock ι,
        t.leave key i = t.put key (some l') ∧
        (l'.tenure = none → l'.waiting = []) ∧
        l'.holder? = Lock.holder? ⟨tenure, waiting⟩ ∧
        l'.line = (Lock.line ⟨tenure, waiting⟩).erase i := by
      unfold leave
      rw [hfind]
      cases tenure with
      | none =>
        have hwaiting : waiting = [] := h key _ hfind rfl
        subst hwaiting
        exact ⟨_, rfl, fun _ => rfl, rfl, rfl⟩
      | some tenure =>
        cases tenure with
        | held j => exact ⟨_, rfl, nofun, rfl, rfl⟩
        | handed j =>
          by_cases hij : i = j
          · subst hij
            refine ⟨_, if_pos rfl, ?_, ?_, ?_⟩
            · cases waiting with
              | nil => exact fun _ => rfl
              | cons k waiting => exact nofun
            · cases waiting <;> rfl
            · rw [show Lock.line ⟨some (.handed i), waiting⟩ = i :: waiting from rfl,
                List.erase_cons_head]
              cases waiting <;> rfl
          · refine ⟨_, if_neg hij, nofun, rfl, ?_⟩
            rw [show Lock.line ⟨some (.handed j), waiting⟩ = j :: waiting from rfl,
              List.erase_cons_tail (by simpa using Ne.symm hij)]
            rfl
    rw [hleave, holder?_put, line_put]
    refine ⟨h.put ?_, ?_, ?_⟩
    · rintro _ ⟨⟩
      exact hserved
    · rw [Option.bind_some, hholder, ← holder?_of_some hfind, Function.update_eq_self]
    · rw [Option.map_some, Option.getD_some, hline, ← line_of_some hfind]

end LockTable

end CloudRoster.Cache
