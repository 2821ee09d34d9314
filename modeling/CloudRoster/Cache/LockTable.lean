/-!
# Locks by key

At most one claimant has a key at a time, and the others wait in the order in which they called
`ask`. `release` hands the key to the claimant at the head of the queue (`Lock.next`), which has it
from then on (`Tenure.handed`) but still has to pick it up (`Tenure.held`).

A key without tenure and queue has no entry, with one exception: `leave` of a claimant between the
handing over and its `pickUp` keeps the entry, until the next `release` of the key.
-/

namespace CloudRoster.Cache

/-- How a claimant has a key. -/
inductive Tenure (ι : Type) where
  /-- The key was handed over and has not been picked up yet. -/
  | handed (i : ι)
  | held (i : ι)
  deriving Repr, DecidableEq

/-- The lock of one key. -/
structure Lock (ι : Type) where
  tenure : Option (Tenure ι)
  /-- The claimants who wait, in the order in which they asked. -/
  waiting : List ι
  deriving Repr, DecidableEq

/-- The locks of all keys in use. -/
structure LockTable (κ ι : Type) where
  entries : List (κ × Lock ι)
  deriving Repr, DecidableEq

namespace Lock

variable {ι : Type}

/-- The lock as `release` hands it on: to the head of the queue, and without an entry if the queue
is empty. -/
def next : List ι → Option (Lock ι)
  | [] => none
  | i :: waiting => some ⟨some (.handed i), waiting⟩

end Lock

namespace LockTable

variable {κ ι : Type} [DecidableEq κ]

/-- A table without locks. -/
def empty : LockTable κ ι := ⟨[]⟩

/-- The lock of a key. -/
def find? (t : LockTable κ ι) (key : κ) : Option (Lock ι) :=
  (t.entries.find? (·.1 = key)).map (·.2)

/-- The table with another lock of a key, or none. -/
def put (t : LockTable κ ι) (key : κ) (l : Option (Lock ι)) : LockTable κ ι :=
  ⟨t.entries.filter (·.1 ≠ key) ++ (l.map (key, ·)).toList⟩

/-! ## The lock of a key after a change -/

theorem find?_put_self (t : LockTable κ ι) (key : κ) (l : Option (Lock ι)) :
    (t.put key l).find? key = l := by
  have hnone : t.entries.find? (fun _ => false) = none := List.find?_eq_none.2 (by simp)
  cases l <;> simp [find?, put, List.find?_filter, hnone]

theorem find?_put_of_ne (t : LockTable κ ι) {key other : κ} (h : other ≠ key)
    (l : Option (Lock ι)) : (t.put key l).find? other = t.find? other := by
  have hk : (fun e : κ × Lock ι => !decide (e.1 = key) && decide (e.1 = other)) =
      fun e => decide (e.1 = other) := by
    funext e
    by_cases he : e.1 = other
    · simp [he, h]
    · simp [he]
  cases l <;> simp [find?, put, List.find?_filter, hk, Ne.symm h]

/-! ## Claimants -/

variable [DecidableEq ι]

/-- Whether a key has been handed to a claimant who has not picked it up yet. -/
def isHanded (t : LockTable κ ι) (key : κ) (i : ι) : Bool :=
  (t.find? key).any fun l => l.tenure = some (.handed i)

/-- The claimants who have been handed a key and have not picked it up yet. -/
def handed (t : LockTable κ ι) : List ι :=
  t.entries.filterMap fun (_, l) =>
    match l.tenure with
    | some (.handed i) => some i
    | _ => none

/-- A claimant asks for a key, and gets it at once or waits. -/
def ask (t : LockTable κ ι) (key : κ) (i : ι) : LockTable κ ι × Bool :=
  match t.find? key with
  | some ⟨some tenure, waiting⟩ => (t.put key (some ⟨some tenure, waiting ++ [i]⟩), false)
  | some ⟨none, waiting⟩ => (t.put key (some ⟨some (.held i), waiting⟩), true)
  | none => (t.put key (some ⟨some (.held i), []⟩), true)

/-- A claimant picks up the key that it was handed; a `pickUp` of any other claimant changes
nothing. -/
def pickUp (t : LockTable κ ι) (key : κ) (i : ι) : LockTable κ ι :=
  match t.find? key with
  | some ⟨some (.handed j), waiting⟩ =>
    if i = j then t.put key (some ⟨some (.held i), waiting⟩) else t
  | _ => t

/-- The holder gives a key back; a `release` of any other claimant changes nothing. -/
def release (t : LockTable κ ι) (key : κ) (i : ι) : LockTable κ ι :=
  match t.find? key with
  | some ⟨some (.held j), waiting⟩ => if i = j then t.put key (Lock.next waiting) else t
  | _ => t

/-- A claimant that does not hold a key gives its claim up: it leaves the queue, or the key that it
was handed goes to the head of the queue. The entry stays in any case. -/
def leave (t : LockTable κ ι) (key : κ) (i : ι) : LockTable κ ι :=
  match t.find? key with
  | some ⟨some (.handed j), waiting⟩ =>
    if i = j then t.put key (some ((Lock.next waiting).getD ⟨none, []⟩))
    else t.put key (some ⟨some (.handed j), waiting.erase i⟩)
  | some ⟨tenure, waiting⟩ => t.put key (some ⟨tenure, waiting.erase i⟩)
  | none => t

end LockTable

end CloudRoster.Cache
