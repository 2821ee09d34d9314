import CloudRoster.Cache.SharedLocks
import Mathlib.Data.List.Induction

/-!
# The steps of shared locks, one by one

What the last of a row of steps does, and what the operations of a lock table do to the lock that
is found under each key.
-/

namespace CloudRoster.Cache

open Function (update)

theorem LockPool.after_concat {κ : Type} [DecidableEq κ] (steps : List (κ × LockStep))
    (c : κ × LockStep) : after (steps ++ [c]) = (after steps).take c.1 c.2 := by
  simp [after, List.foldl_append]

theorem NumberedLocks.after_concat {κ : Type} [DecidableEq κ] (steps : List (κ × LockStep))
    (c : κ × LockStep) : after (steps ++ [c]) = (after steps).take c.1 c.2 := by
  simp [after, List.foldl_append]

namespace LockTable

variable {κ ι : Type} [DecidableEq κ]

theorem find?_put (t : LockTable κ ι) (key : κ) (l : Option (Lock ι)) :
    (t.put key l).find? = update t.find? key l := by
  funext other
  by_cases h : other = key
  · subst h
    rw [Function.update_self, find?_put_self]
  · rw [Function.update_of_ne h, find?_put_of_ne t h]

theorem find?_ask (t : LockTable κ ι) (key : κ) (i : ι) :
    (t.ask key i).1.find? = update t.find? key (some (((t.find? key).getD .free).ask i)) := by
  unfold ask
  split <;> (next hfind => rw [hfind]; exact find?_put ..)

/-- A table in which nothing is found is empty. -/
theorem eq_empty {t : LockTable κ ι} (h : ∀ key, t.find? key = none) : t = empty := by
  obtain ⟨_ | ⟨⟨key, l⟩, entries⟩⟩ := t
  · rfl
  · have hfound : find? ⟨(key, l) :: entries⟩ key = some l := by simp [find?]
    cases (h key).symm.trans hfound

variable [DecidableEq ι]

theorem find?_pickUp (t : LockTable κ ι) (key : κ) (i : ι) :
    (t.pickUp key i).find? = update t.find? key ((t.find? key).map (·.pickUp i)) := by
  unfold pickUp
  split
  · next j waiting hfind =>
    rw [hfind]
    by_cases h : i = j
    · subst h
      simp [find?_put, Lock.pickUp]
    · have hsame : (some ⟨some (.handed j), waiting⟩ : Option (Lock ι)).map (·.pickUp i) =
          some ⟨some (.handed j), waiting⟩ := by
        simp [Lock.pickUp, Ne.symm h]
      rw [if_neg h, hsame, ← hfind, Function.update_eq_self]
  · next hother =>
    have hsame : (t.find? key).map (·.pickUp i) = t.find? key := by
      cases hfind : t.find? key with
      | none => rfl
      | some l =>
        have hnot : l.tenure ≠ some (.handed i) := fun htenure =>
          hother i l.waiting (by rw [hfind, ← htenure])
        simp [Lock.pickUp, hnot]
    rw [hsame, Function.update_eq_self]

theorem find?_release (t : LockTable κ ι) (key : κ) (i : ι) :
    (t.release key i).find? = update t.find? key ((t.find? key).bind (·.release i)) := by
  unfold release
  split
  · next j waiting hfind =>
    rw [hfind]
    by_cases h : i = j
    · subst h
      simp [find?_put, Lock.release]
    · have hsame : (some ⟨some (.held j), waiting⟩ : Option (Lock ι)).bind (·.release i) =
          some ⟨some (.held j), waiting⟩ := by
        simp [Lock.release, Ne.symm h]
      rw [if_neg h, hsame, ← hfind, Function.update_eq_self]
  · next hother =>
    have hsame : (t.find? key).bind (·.release i) = t.find? key := by
      cases hfind : t.find? key with
      | none => rfl
      | some l =>
        have hnot : l.tenure ≠ some (.held i) := fun htenure =>
          hother i l.waiting (by rw [hfind, ← htenure])
        simp [Lock.release, hnot]
    rw [hsame, Function.update_eq_self]

theorem find?_leave (t : LockTable κ ι) (key : κ) (i : ι) :
    (t.leave key i).find? = update t.find? key ((t.find? key).map (·.leave i)) := by
  unfold leave
  split
  · next j waiting hfind =>
    rw [hfind]
    by_cases h : i = j
    · subst h
      simp only [if_true, find?_put, Option.map_some, Lock.leave]
      rfl
    · simp [h, Ne.symm h, Lock.leave, find?_put]
  · next tenure waiting hother hfind =>
    have hnot : tenure ≠ some (.handed i) := fun htenure => hother i htenure
    simp [hfind, hnot, Lock.leave, find?_put]
  · next hfind =>
    rw [hfind, Option.map_none, ← hfind, Function.update_eq_self]

end LockTable

end CloudRoster.Cache
