import CloudRoster.Cache.LockTable
import Mathlib.Logic.Function.Basic

/-!
# Shared locks

How a lock table is kept: as a table of references to locks, of which every acquire has one as well.
An acquire takes a reference to the lock that stands under its key, or puts a new lock there, and
stays with that lock whatever becomes of the table. Once a guard has given its lock back, the lock
is taken out of the table if no other reference to it is left. Two locks of one key would be two
guards; that there are never two is what the references are counted for.

Acquires and guards do one step at a time, and the steps of all of them come in any order: between
two steps of one, others may do theirs. The acquires of a key are numbered in the order in which
they ask for the lock. Steps that do not fit are ignored: a poll of an acquire that is over, an
unlocking without a guard.

An acquire is suspended only while it waits for its lock. What touches the table and what touches
the lock are steps of their own all the same: to take a reference (`LockPool.enter`) and to ask
(`LockPool.ask`), to give the lock back (`LockPool.unlock`) and to look at the table
(`LockPool.sweep`). What a drop does to the lock is one step: a guard passes the lock on and gives
its reference up (`LockPool.unlock`), an acquire leaves the queue, or passes the lock on, and gives
its reference up (`LockPool.abandon`). Nothing is awaited in between. A look at the table that came
from another thread right between the two would still count the reference, and leave the entry for
the next guard of the key to take out; such looks are not among the steps.
-/

namespace CloudRoster.Cache

open Function (update)

/-! ## One lock -/

namespace Lock

variable {ι : Type}

/-- A lock without tenure and without a queue. -/
def free : Lock ι := ⟨none, []⟩

/-- A claimant joins: it has the lock at once if the lock has no tenure, and waits at the end of the
queue otherwise. -/
def ask (l : Lock ι) (i : ι) : Lock ι :=
  match l.tenure with
  | none => { l with tenure := some (.held i) }
  | some _ => { l with waiting := l.waiting ++ [i] }

/-- The lock is handed to the head of its queue (`next`), or is free. -/
def pass (l : Lock ι) : Lock ι := (next l.waiting).getD free

/-- The claimants of a lock in the order in which they asked: the one who has it, and those who
wait. -/
def claimants (l : Lock ι) : List ι :=
  match l.tenure with
  | none => l.waiting
  | some (.handed i) | some (.held i) => i :: l.waiting

variable [DecidableEq ι]

/-- A claimant picks up the lock if it was handed over. -/
def pickUp (l : Lock ι) (i : ι) : Lock ι :=
  if l.tenure = some (.handed i) then { l with tenure := some (.held i) } else l

/-- The holder gives the lock back. Nothing is left of the lock if its queue is empty. -/
def release (l : Lock ι) (i : ι) : Option (Lock ι) :=
  if l.tenure = some (.held i) then next l.waiting else some l

/-- A claimant that does not hold the lock gives its claim up: the lock that it was handed is passed
on, or its place in the queue is taken out. -/
def leave (l : Lock ι) (i : ι) : Lock ι :=
  if l.tenure = some (.handed i) then l.pass else { l with waiting := l.waiting.erase i }

end Lock

/-! ## The table of references -/

/-- A lock with the number of references to it, that of the table included. -/
structure SharedLock where
  lock : Lock Nat
  references : Nat
  deriving DecidableEq

/-- What is done at a key without a break. -/
inductive LockStep where
  /-- A new acquire takes a reference to the lock. -/
  | enter
  /-- One of the acquires that have a reference and nothing else asks for the lock, and has it or
  waits. -/
  | ask (i : Nat)
  /-- An acquire that had to wait is polled again. -/
  | poll (n : Nat)
  /-- A guard is dropped: the lock is given back, and so is the reference. -/
  | unlock (n : Nat)
  /-- After the drop of a guard: the entry in the table is taken out if no other reference to its
  lock is left. -/
  | sweep
  /-- An acquire that asked and has no guard yet is dropped. -/
  | abandon (n : Nat)
  deriving Repr, DecidableEq

/-- What is kept for one key. -/
structure KeyBooks where
  /-- The lock that stands under the key in the table. -/
  entry : Option Nat
  /-- The locks to which acquires have a reference that have not asked yet. -/
  entered : List Nat
  /-- How many acquires have asked. -/
  arrivals : Nat
  /-- The lock to which an acquire has a reference that has asked. -/
  seat : Nat → Option Nat
  /-- How many looks at the table are still to come after guards. -/
  due : Nat

/-- Locks that are shared between a table and the acquires of its keys. -/
structure LockPool (κ : Type) where
  /-- The locks by number. -/
  locks : Nat → SharedLock
  /-- How many locks have been made. -/
  made : Nat
  books : κ → KeyBooks

/-- How far an acquire is that has asked. -/
inductive AcquireState where
  | waiting
  /-- The lock was handed to it, and it has not been polled since. -/
  | granted
  /-- It is over, and its guard is there. -/
  | guard
  deriving Repr, DecidableEq

/-- How far a claimant of a lock is. -/
def Lock.stateOf (l : Lock Nat) (n : Nat) : AcquireState :=
  if l.tenure = some (.held n) then .guard
  else if l.tenure = some (.handed n) then .granted
  else .waiting

namespace LockPool

variable {κ : Type} [DecidableEq κ]

/-- No locks. -/
def empty : LockPool κ where
  locks _ := ⟨.free, 0⟩
  made := 0
  books _ := ⟨none, [], 0, fun _ => none, 0⟩

/-- Changes a lock. -/
def touch (p : LockPool κ) (m : Nat) (f : SharedLock → SharedLock) : LockPool κ :=
  { p with locks := update p.locks m (f (p.locks m)) }

/-- Changes what is kept for a key. -/
def note (p : LockPool κ) (key : κ) (b : KeyBooks) : LockPool κ :=
  { p with books := update p.books key b }

/-- Puts a new lock under a key. -/
def place (p : LockPool κ) (key : κ) : LockPool κ :=
  { p.touch p.made fun _ => ⟨.free, 1⟩ with made := p.made + 1 }.note key
    { p.books key with entry := some p.made }

/-- The lock that stands under a key, or a new one put there. -/
def entry (p : LockPool κ) (key : κ) : LockPool κ × Nat :=
  match (p.books key).entry with
  | some m => (p, m)
  | none => (p.place key, p.made)

/-- A new acquire of a key takes a reference to the lock. -/
def enter (p : LockPool κ) (key : κ) : LockPool κ :=
  let (p, m) := p.entry key
  let b := p.books key
  (p.touch m fun s => { s with references := s.references + 1 }).note key
    { b with entered := m :: b.entered }

/-- One of the acquires that have only a reference asks for the lock. -/
def ask (p : LockPool κ) (key : κ) (i : Nat) : LockPool κ :=
  let b := p.books key
  match b.entered[i]? with
  | none => p
  | some m =>
    (p.touch m fun s => { s with lock := s.lock.ask b.arrivals }).note key
      { b with
        entered := b.entered.eraseIdx i
        arrivals := b.arrivals + 1
        seat := update b.seat b.arrivals (some m) }

/-- An acquire is polled again, and is over if the lock was handed to it. -/
def poll (p : LockPool κ) (key : κ) (n : Nat) : LockPool κ :=
  match (p.books key).seat n with
  | none => p
  | some m => p.touch m fun s => { s with lock := s.lock.pickUp n }

/-- A guard is dropped with its reference. A look at the table is to follow. -/
def unlock (p : LockPool κ) (key : κ) (n : Nat) : LockPool κ :=
  let b := p.books key
  match b.seat n with
  | none => p
  | some m =>
    if (p.locks m).lock.stateOf n = .guard then
      (p.touch m fun s => ⟨s.lock.pass, s.references - 1⟩).note key
        { b with seat := update b.seat n none, due := b.due + 1 }
    else p

/-- The look at the table after a guard: the lock is taken out if the table has the only reference
to it. -/
def sweep (p : LockPool κ) (key : κ) : LockPool κ :=
  let b := p.books key
  if b.due = 0 then p
  else
    match b.entry with
    | none => p.note key { b with due := b.due - 1 }
    | some m =>
      if (p.locks m).references = 1 then
        (p.touch m fun s => { s with references := 0 }).note key
          { b with entry := none, due := b.due - 1 }
      else p.note key { b with due := b.due - 1 }

/-- An acquire that has no guard yet is dropped: it leaves the lock (`Lock.leave`) and gives its
reference up in the same step. -/
def abandon (p : LockPool κ) (key : κ) (n : Nat) : LockPool κ :=
  let b := p.books key
  match b.seat n with
  | none => p
  | some m =>
    if (p.locks m).lock.stateOf n = .guard then p
    else
      (p.touch m fun s => ⟨s.lock.leave n, s.references - 1⟩).note key
        { b with seat := update b.seat n none }

/-- Does a step at a key. -/
def take (p : LockPool κ) (key : κ) : LockStep → LockPool κ
  | .enter => p.enter key
  | .ask i => p.ask key i
  | .poll n => p.poll key n
  | .unlock n => p.unlock key n
  | .sweep => p.sweep key
  | .abandon n => p.abandon key n

/-- Does steps one after another, from nothing. -/
def after (steps : List (κ × LockStep)) : LockPool κ :=
  steps.foldl (fun p c => p.take c.1 c.2) empty

/-- How far an acquire is that has asked, if it is in flight. -/
def state? (p : LockPool κ) (key : κ) (n : Nat) : Option AcquireState :=
  ((p.books key).seat n).map fun m => (p.locks m).lock.stateOf n

/-- The lock that stands under a key. -/
def lock? (p : LockPool κ) (key : κ) : Option (Lock Nat) :=
  (p.books key).entry.map fun m => (p.locks m).lock

end LockPool

/-! ## One lock for each key -/

/-- A lock table whose acquires are numbered in the order in which they ask. -/
structure NumberedLocks (κ : Type) where
  table : LockTable κ Nat
  /-- How many acquires of a key are about to ask. -/
  entered : κ → Nat
  /-- How many acquires of a key have asked. -/
  arrivals : κ → Nat

namespace NumberedLocks

variable {κ : Type} [DecidableEq κ]

/-- No locks. -/
def empty : NumberedLocks κ := ⟨.empty, fun _ => 0, fun _ => 0⟩

/-- Does a step at a key. `NumberedLocks.table` changes with the claims; a sweep changes nothing. -/
def take (d : NumberedLocks κ) (key : κ) : LockStep → NumberedLocks κ
  | .enter => { d with entered := update d.entered key (d.entered key + 1) }
  | .ask i =>
    if i < d.entered key then
      ⟨(d.table.ask key (d.arrivals key)).1, update d.entered key (d.entered key - 1),
        update d.arrivals key (d.arrivals key + 1)⟩
    else d
  | .poll n => { d with table := d.table.pickUp key n }
  | .unlock n => { d with table := d.table.release key n }
  | .sweep => d
  | .abandon n => { d with table := d.table.leave key n }

/-- Does steps one after another, from nothing. -/
def after (steps : List (κ × LockStep)) : NumberedLocks κ :=
  steps.foldl (fun d c => d.take c.1 c.2) empty

end NumberedLocks

end CloudRoster.Cache
