import CloudRoster.Proofs.Cache.LockReferences

/-!
# Mutual exclusion

For every interleaving of steps at any number of keys: no key has two guards, acquires get their
guards in the order in which they asked, and a key is not affected by the steps at others
(`MutualExclusion`). `NumberedLocks`, which runs the same steps on a `LockTable` with one lock for
each key, shows the same locks.

A key has an entry exactly while one of its acquires has entered or is in flight, with one
exception. `LockPool.abandon` of an acquire that was granted the lock passes the lock on, but there
is no `sweep` after it. If the queue is empty then, the entry stays until the sweep after the next
guard of the key. `Patient` excludes that case.
-/

namespace CloudRoster.Cache

open Function (update)

/-! ## The table of locks -/

namespace NumberedLocks

variable {κ : Type} [DecidableEq κ] {d : NumberedLocks κ} {w : κ → KeyView}

/-- The table has of every key the lock that the key has by itself. Only of a lock that is free, one
of them may have an entry and the other one none. -/
structure Agrees (d : NumberedLocks κ) (w : κ → KeyView) : Prop where
  line : ∀ key, (d.table.find? key).getD .free = (w key).line
  entered : ∀ key, d.entered key = (w key).entered
  arrivals : ∀ key, d.arrivals key = (w key).arrivals

/-- A step changes the lock of its key in the table as it changes the view of the key. -/
theorem Agrees.find?_take (h : d.Agrees w) (key : κ) (c : LockStep) :
    ∃ l?, (d.take key c).table.find? = update d.table.find? key l? ∧
      l?.getD .free = c.onLine (w key) := by
  have hline := h.line key
  have hself : d.table.find? = update d.table.find? key (d.table.find? key) :=
    (Function.update_eq_self key _).symm
  cases c with
  | enter => exact ⟨_, hself, hline⟩
  | ask i =>
    simp only [take, LockStep.onLine, h.entered]
    split
    · refine ⟨_, d.table.find?_ask key _, ?_⟩
      rw [Option.getD_some, hline, h.arrivals]
    · exact ⟨_, hself, hline⟩
  | poll n =>
    refine ⟨_, d.table.find?_pickUp key n, ?_⟩
    rw [KeyView.getD_map rfl, hline]
    rfl
  | unlock n =>
    refine ⟨_, d.table.find?_release key n, ?_⟩
    rw [LockStep.onLine, ← hline]
    cases d.table.find? key with
    | none => rfl
    | some l =>
      rw [Option.bind_some, Option.getD_some]
      split
      · next hheld => exact Lock.getD_release_of_held hheld
      · next hheld => rw [Lock.release, if_neg hheld, Option.getD_some]
  | sweep => exact ⟨_, hself, hline⟩
  | abandon n =>
    refine ⟨_, d.table.find?_leave key n, ?_⟩
    rw [KeyView.getD_map rfl, hline]
    rfl

/-- A step counts the acquires that have entered as it does in the view of the key. -/
theorem Agrees.entered_take (h : d.Agrees w) (key : κ) (c : LockStep) :
    (d.take key c).entered = update d.entered key (c.on (w key)).entered := by
  have hself : d.entered = update d.entered key (w key).entered := by
    rw [← h.entered, Function.update_eq_self]
  cases c with
  | enter =>
    rw [LockStep.on, ← h.entered]
    rfl
  | ask i =>
    simp only [NumberedLocks.take, LockStep.on, h.entered]
    split
    · rfl
    · exact hself
  | unlock | sweep =>
    simp only [LockStep.on, apply_ite KeyView.entered, ite_self]
    exact hself
  | poll | abandon => exact hself

/-- A step counts the acquires that have asked as it does in the view of the key. -/
theorem Agrees.arrivals_take (h : d.Agrees w) (key : κ) (c : LockStep) :
    (d.take key c).arrivals = update d.arrivals key (c.on (w key)).arrivals := by
  have hself : d.arrivals = update d.arrivals key (w key).arrivals := by
    rw [← h.arrivals, Function.update_eq_self]
  cases c with
  | ask i =>
    simp only [NumberedLocks.take, LockStep.on, h.entered, h.arrivals]
    split
    · rfl
    · exact hself
  | unlock | sweep =>
    simp only [LockStep.on, apply_ite KeyView.arrivals, ite_self]
    exact hself
  | enter | poll | abandon => exact hself

theorem Agrees.take (h : d.Agrees w) (key : κ) (c : LockStep)
    (horderly : (w key).line.Orderly (w key).arrivals) :
    (d.take key c).Agrees (update w key (c.on (w key))) := by
  obtain ⟨l?, hfind, hl?⟩ := h.find?_take key c
  refine ⟨fun other => ?_, fun other => ?_, fun other => ?_⟩
  · rw [hfind]
    by_cases hother : other = key
    · subst hother
      rw [Function.update_self, Function.update_self, hl?, KeyView.line_on horderly]
    · rw [Function.update_of_ne hother, Function.update_of_ne hother, h.line]
  · rw [h.entered_take]
    by_cases hother : other = key
    · subst hother
      rw [Function.update_self, Function.update_self]
    · rw [Function.update_of_ne hother, Function.update_of_ne hother, h.entered]
  · rw [h.arrivals_take]
    by_cases hother : other = key
    · subst hother
      rw [Function.update_self, Function.update_self]
    · rw [Function.update_of_ne hother, Function.update_of_ne hother, h.arrivals]

theorem agrees_after (steps : List (κ × LockStep)) :
    (after steps).Agrees (KeyView.after steps) := by
  induction steps using List.reverseRecOn with
  | nil => exact ⟨fun _ => rfl, fun _ => rfl, fun _ => rfl⟩
  | append_singleton steps c ih =>
    rw [after_concat, KeyView.after_concat]
    exact ih.take c.1 c.2 ((LockPool.follows_after steps).orderly c.1)

/-- Steps keep a tenure on every lock of the table, except the `abandon` of an acquire that was
granted the lock. -/
theorem tenure_take {key : κ} {c : LockStep}
    (h : ∀ l, d.table.find? key = some l → l.tenure ≠ none)
    (hc : ∀ n, c = .abandon n → ((d.table.find? key).getD .free).state? n ≠ some .granted) :
    ∀ l, (d.take key c).table.find? key = some l → l.tenure ≠ none := by
  intro l hl
  cases c with
  | enter | sweep => exact h l hl
  | ask i =>
    simp only [take] at hl
    split at hl
    · rw [LockTable.find?_ask, Function.update_self, Option.some.injEq] at hl
      exact hl ▸ Lock.tenure_ask _ _
    · exact h l hl
  | poll n =>
    simp only [take, LockTable.find?_pickUp, Function.update_self] at hl
    obtain ⟨l₀, hl₀, rfl⟩ := Option.map_eq_some_iff.1 hl
    exact mt Lock.tenure_pickUp.1 (h l₀ hl₀)
  | unlock n =>
    simp only [take, LockTable.find?_release, Function.update_self] at hl
    obtain ⟨l₀, hl₀, hrelease⟩ := Option.bind_eq_some_iff.1 hl
    exact Lock.tenure_release hrelease (h l₀ hl₀)
  | abandon n =>
    simp only [take, LockTable.find?_leave, Function.update_self] at hl
    obtain ⟨l₀, hl₀, rfl⟩ := Option.map_eq_some_iff.1 hl
    have hhanded : l₀.tenure ≠ some (.handed n) := fun hhanded =>
      hc n rfl (hl₀ ▸ Lock.state?_eq_granted.2 hhanded)
    exact Lock.tenure_leave hhanded ▸ h l₀ hl₀

end NumberedLocks

/-! ## Acquires in flight -/

namespace LockPool

variable {κ : Type} {p : LockPool κ} {key : κ} {w : κ → KeyView} {n : Nat}

/-- The acquires of a key that have asked and are in flight. -/
def inFlight (p : LockPool κ) (key : κ) : List Nat :=
  (List.range (p.books key).arrivals).filter fun n => (p.state? key n).isSome

theorem mem_inFlight (h : Follows p w) : n ∈ p.inFlight key ↔ p.state? key n ≠ none := by
  unfold inFlight
  rw [List.mem_filter, List.mem_range, Option.isSome_iff_ne_none, and_iff_right_iff_imp]
  intro hstate
  rw [(h.shows key).state?_eq, Ne, Lock.state?_eq_none, not_not] at hstate
  rw [(h.shows key).arrivals]
  exact (h.orderly key).below n hstate

theorem length_inFlight (h : Follows p w) :
    (p.inFlight key).length = (w key).line.claimants.length := by
  unfold inFlight
  rw [(h.shows key).state?_eq, (h.shows key).arrivals]
  exact Lock.length_filter_state? (h.orderly key)

theorem inFlight_eq_nil (h : Follows p w) : p.inFlight key = [] ↔ (w key).line.claimants = [] := by
  rw [← List.length_eq_zero_iff, length_inFlight h, List.length_eq_zero_iff]

/-- An acquire has been granted the lock of its key, or has its guard. -/
def Owns (p : LockPool κ) (key : κ) (n : Nat) : Prop :=
  p.state? key n = some .granted ∨ p.state? key n = some .guard

/-- An acquire waits, and has the smallest number of those that wait. -/
def First (p : LockPool κ) (key : κ) (n : Nat) : Prop :=
  p.state? key n = some .waiting ∧ ∀ j, p.state? key j = some .waiting → n ≤ j

/-- A step by which an acquire that owns the lock gives it up: `unlock` of a guard, `abandon` before
it. -/
def GivesUp (p : LockPool κ) (key : κ) (n : Nat) (c : LockStep) : Prop :=
  c = .unlock n ∧ p.state? key n = some .guard ∨ c = .abandon n ∧ p.state? key n = some .granted

variable [DecidableEq κ]

/-- Whether a step is the `abandon` of an acquire of a key that was granted the lock. -/
def deserts (p : LockPool κ) (key : κ) : κ × LockStep → Bool
  | (other, .abandon n) => other = key && p.state? key n = some .granted
  | _ => false

/-- No acquire of a key is dropped between the grant of the lock and its guard. -/
def Patient (key : κ) (steps : List (κ × LockStep)) : Prop :=
  ∀ k (h : k < steps.length), (after (steps.take k)).deserts key steps[k] = false

variable {steps : List (κ × LockStep)}

theorem Patient.init {c : κ × LockStep} (h : Patient key (steps ++ [c])) :
    Patient key steps ∧ (after steps).deserts key c = false := by
  refine ⟨fun k hk => ?_, ?_⟩
  · have hbefore := h k (by rw [List.length_append]; omega)
    rwa [List.take_append_of_le_length (Nat.le_of_lt hk), List.getElem_append_left hk] at hbefore
  · have hlast := h steps.length (by simp)
    rwa [List.take_left, List.getElem_concat_length rfl] at hlast

/-- What holds of a key at first and is kept by the steps at it, but for the `abandon` of an acquire
that was granted the lock, holds after patient steps. -/
theorem Patient.induction {P : List (κ × LockStep) → Prop} (h : Patient key steps) (hnil : P [])
    (hothers : ∀ steps c, c.1 ≠ key → P steps → P (steps ++ [c]))
    (hown : ∀ steps c, (∀ n, c = .abandon n →
        (KeyView.after steps key).line.state? n ≠ some .granted) →
      P steps → P (steps ++ [(key, c)])) : P steps := by
  induction steps using List.reverseRecOn with
  | nil => exact hnil
  | append_singleton steps c ih =>
    obtain ⟨hbefore, hlast⟩ := h.init
    obtain ⟨other, c⟩ := c
    by_cases hother : other = key
    · subst hother
      refine hown steps c (fun n hc hgranted => ?_) (ih hbefore)
      rw [← ((follows_after steps).shows other).state?_eq] at hgranted
      have hdeserts : (after steps).deserts other (other, .abandon n) = true := by
        simp [deserts, hgranted]
      rw [← hc, hlast] at hdeserts
      cases hdeserts
    · exact hothers steps (other, c) hother (ih hbefore)

theorem Patient.tended (h : Patient key steps) : (KeyView.after steps key).Tended := by
  refine h.induction (P := fun steps => (KeyView.after steps key).Tended) nofun
    (fun steps c hother ih => ?_) fun steps c hc ih => ?_
  · rw [KeyView.after_concat, Function.update_of_ne (Ne.symm hother)]
    exact ih
  · rw [KeyView.after_concat, Function.update_self]
    exact ih.on ((follows_after steps).orderly key) hc

theorem Patient.tenure (h : Patient key steps) :
    ∀ l, (NumberedLocks.after steps).table.find? key = some l → l.tenure ≠ none := by
  refine h.induction
    (P := fun steps => ∀ l, (NumberedLocks.after steps).table.find? key = some l → l.tenure ≠ none)
    nofun (fun steps c hother ih => ?_) fun steps c hc ih => ?_
  · obtain ⟨l?, hfind, -⟩ := (NumberedLocks.agrees_after steps).find?_take c.1 c.2
    rw [NumberedLocks.after_concat, hfind, Function.update_of_ne (Ne.symm hother)]
    exact ih
  · rw [NumberedLocks.after_concat]
    rw [← (NumberedLocks.agrees_after steps).line] at hc
    exact NumberedLocks.tenure_take ih hc

variable (steps)

/-- The states of the acquires are those of the claimants of the lock of the key. -/
theorem state?_after (key : κ) :
    (after steps).state? key = (KeyView.after steps key).line.state? :=
  ((follows_after steps).shows key).state?_eq

/-- What a step at a key makes of the states of its acquires. -/
theorem state?_take (key : κ) (c : LockStep) :
    ((after steps).take key c).state? key = (c.onLine (KeyView.after steps key)).state? := by
  have hshows := ((follows_after steps).take key c).shows key
  rw [Function.update_self] at hshows
  rw [hshows.state?_eq, KeyView.line_on ((follows_after steps).orderly key)]

variable {steps}

/-- After an acquire has given the lock up, the states are those after `Lock.pass`. -/
theorem GivesUp.passes {c : LockStep} (h : (after steps).GivesUp key n c) :
    ((KeyView.after steps key).line.tenure = some (.handed n) ∨
      (KeyView.after steps key).line.tenure = some (.held n)) ∧
      c.onLine (KeyView.after steps key) = (KeyView.after steps key).line.pass := by
  unfold GivesUp at h
  rw [state?_after, Lock.state?_eq_guard, Lock.state?_eq_granted] at h
  rcases h with ⟨rfl, hheld⟩ | ⟨rfl, hhanded⟩
  · exact ⟨.inr hheld, if_pos hheld⟩
  · exact ⟨.inl hhanded, if_pos hhanded⟩

theorem Owns.unique {i j : Nat} (hi : (after steps).Owns key i) (hj : (after steps).Owns key j) :
    i = j := by
  unfold Owns at hi hj
  rw [state?_after, Lock.state?_eq_granted, Lock.state?_eq_guard] at hi hj
  rcases hi with hi | hi <;> rcases hj with hj | hj <;> cases hi.symm.trans hj <;> rfl

/-- After patient steps a key has no entry if no acquire is in flight, none has entered and no sweep
is due. -/
theorem Patient.swept (h : Patient key steps) (hflight : (after steps).inFlight key = [])
    (hentered : ((after steps).books key).entered = []) (hdue : ((after steps).books key).due = 0) :
    ((after steps).books key).entry = none := by
  have hfollows := follows_after steps
  have hshows := hfollows.shows key
  rcases hshows.cases with ⟨-, -, hvacant⟩ | ⟨m, hlock, -⟩
  · exact hvacant.entry
  · -- a lock without claimants is free, and such an entry would still be tended to
    rw [inFlight_eq_nil hfollows] at hflight
    have hfree := (hfollows.orderly key).eq_free hflight
    have htended := h.tended _ hlock (hfree ▸ rfl)
    rw [← hshows.entered, ← hshows.due, hentered, hdue] at htended
    exact absurd htended (by decide)

theorem Patient.find?_eq_none (h : Patient key steps) (hflight : (after steps).inFlight key = []) :
    (NumberedLocks.after steps).table.find? key = none := by
  rw [inFlight_eq_nil (follows_after steps)] at hflight
  have hfree := ((follows_after steps).orderly key).eq_free hflight
  rw [← (NumberedLocks.agrees_after steps).line] at hfree
  cases hfind : (NumberedLocks.after steps).table.find? key with
  | none => rfl
  | some l =>
    rw [hfind, Option.getD_some] at hfree
    exact absurd (hfree ▸ rfl) (h.tenure l hfind)

/-- What holds after steps at any keys, in any order. -/
structure MutualExclusion (steps : List (κ × LockStep)) : Prop where
  /-- The table of the program has of every key the lock that is shared, but for locks that are
  free. -/
  tracked : ∀ key, ((NumberedLocks.after steps).table.find? key).getD .free =
    ((after steps).lock? key).getD .free
  /-- How far the acquires of a key are is told by that lock. -/
  told : ∀ key, (after steps).state? key = (((after steps).lock? key).getD .free).state?
  /-- All references of a key are to the lock that stands under it. -/
  shared : ∀ key m, (m ∈ ((after steps).books key).entered ∨
      ∃ n, ((after steps).books key).seat n = some m) →
    ((after steps).books key).entry = some m
  /-- No lock stands under two keys. -/
  single : ∀ key other m, ((after steps).books key).entry = some m →
    ((after steps).books other).entry = some m → key = other
  /-- A lock has a reference for each acquire that has entered or is in flight, and that of the
  table. -/
  counted : ∀ key m, ((after steps).books key).entry = some m →
    ((after steps).locks m).references =
      ((after steps).inFlight key).length + ((after steps).books key).entered.length + 1
  /-- An acquire is in flight if it waits, or was granted the lock, or has its guard. -/
  in_flight : ∀ key n, n ∈ (after steps).inFlight key ↔ (after steps).state? key n ≠ none
  /-- At most one acquire of a key owns the lock. -/
  exclusive : ∀ key i j, (after steps).Owns key i → (after steps).Owns key j → i = j
  /-- An acquire that asks has the lock at once if no other one is in flight, and waits
  otherwise. -/
  admitted : ∀ key i, i < ((after steps).books key).entered.length →
    ((after steps).take key (.ask i)).state? key =
      update ((after steps).state? key) ((after steps).books key).arrivals
        (some (if (after steps).inFlight key = [] then .guard else .waiting))
  /-- A lock that is given up is granted to the acquire that arrived first of those that wait. -/
  handed_on : ∀ key n c first, (after steps).GivesUp key n c → (after steps).First key first →
    ((after steps).take key c).state? key =
      update (update ((after steps).state? key) n none) first (some .granted)
  /-- If none waits, no acquire owns the lock any more. -/
  given_up : ∀ key n c, (after steps).GivesUp key n c →
    (∀ j, (after steps).state? key j ≠ some .waiting) →
    ((after steps).take key c).state? key = update ((after steps).state? key) n none
  picked_up : ∀ key n, (after steps).state? key n = some .granted →
    ((after steps).take key (.poll n)).state? key =
      update ((after steps).state? key) n (some .guard)
  withdrawn : ∀ key n, (after steps).state? key n = some .waiting →
    ((after steps).take key (.abandon n)).state? key = update ((after steps).state? key) n none
  /-- Other steps change no state: no acquire gets ahead by a poll. -/
  ignored : ∀ key c,
    ¬ c.Affects ((after steps).books key).entered.length ((after steps).state? key) →
    ((after steps).take key c).state? key = (after steps).state? key
  /-- What is about a key depends on the steps at that key alone. -/
  apart : ∀ key, (after steps).state? key = (after (steps.filter (·.1 = key))).state? key ∧
    (after steps).lock? key = (after (steps.filter (·.1 = key))).lock? key
  /-- A key has an entry while one of its acquires has entered or is in flight. -/
  needed : ∀ key, ((after steps).books key).entered ≠ [] ∨ (after steps).inFlight key ≠ [] →
    ((after steps).books key).entry ≠ none
  /-- After patient steps it has none otherwise, once all sweeps are done. -/
  swept : ∀ key, Patient key steps → (after steps).inFlight key = [] →
    ((after steps).books key).entered = [] → ((after steps).books key).due = 0 →
    ((after steps).books key).entry = none
  /-- After patient steps the table of the program has an entry for a key exactly while an acquire
  is in flight. -/
  in_use : ∀ key, Patient key steps →
    ((NumberedLocks.after steps).table.find? key ≠ none ↔ (after steps).inFlight key ≠ [])
  /-- That table is empty when nothing is in flight. -/
  emptied : (∀ key, Patient key steps ∧ (after steps).inFlight key = []) →
    (NumberedLocks.after steps).table = .empty

/-- For every interleaving of steps at any number of keys, the locks give mutual exclusion, first
come first served, and the table has the entries that it needs. -/
theorem locks_exclude (steps : List (κ × LockStep)) : MutualExclusion steps where
  tracked key := by
    rw [(NumberedLocks.agrees_after steps).line, ((follows_after steps).shows key).lock?_eq]
    rfl
  told key := by
    rw [state?_after, ((follows_after steps).shows key).lock?_eq]
    rfl
  shared key _ := ((follows_after steps).shows key).entry_of_reference
  single := (follows_after steps).apart
  counted key m hentry := by
    obtain ⟨-, hstands⟩ := ((follows_after steps).shows key).stands hentry
    rw [hstands.lock, length_inFlight (follows_after steps)]
  in_flight _ _ := mem_inFlight (follows_after steps)
  exclusive _ _ _ := Owns.unique
  admitted key i hi := by
    have hask := Lock.state?_ask ((follows_after steps).orderly key)
    rw [((follows_after steps).shows key).entered] at hi
    rw [state?_take, LockStep.onLine, if_pos hi, hask, ← state?_after,
      ((follows_after steps).shows key).arrivals]
    simp only [inFlight_eq_nil (follows_after steps)]
  handed_on key n c first hgives hfirst := by
    obtain ⟨howner, hpass⟩ := hgives.passes
    have horderly := (follows_after steps).orderly key
    unfold First at hfirst
    simp only [state?_after, Lock.state?_eq_waiting horderly] at hfirst
    obtain ⟨head, rest, hqueue⟩ := List.exists_cons_of_ne_nil (List.ne_nil_of_mem hfirst.1)
    rw [state?_take, hpass, state?_after, Lock.state?_pass horderly howner hqueue,
      horderly.eq_first hqueue hfirst.1 hfirst.2]
  given_up key n c hgives hnobody := by
    obtain ⟨howner, hpass⟩ := hgives.passes
    simp only [state?_after, Ne, Lock.state?_eq_waiting ((follows_after steps).orderly key)]
      at hnobody
    rw [state?_take, hpass, state?_after,
      Lock.state?_pass_of_nobody howner (List.eq_nil_iff_forall_not_mem.2 hnobody)]
  picked_up key n hgranted := by
    rw [state?_after, Lock.state?_eq_granted] at hgranted
    rw [state?_take, state?_after]
    exact Lock.state?_pickUp hgranted
  withdrawn key n hwaiting := by
    have horderly := (follows_after steps).orderly key
    rw [state?_after, Lock.state?_eq_waiting horderly] at hwaiting
    rw [state?_take, state?_after]
    exact Lock.state?_leave horderly hwaiting
  ignored key c haffects := by
    rw [state?_after, ((follows_after steps).shows key).entered] at haffects
    rw [state?_take, state?_after,
      LockStep.onLine_of_not_affects ((follows_after steps).orderly key) haffects]
  apart key := by
    have hview : KeyView.after steps key = KeyView.after (steps.filter (·.1 = key)) key := by
      unfold KeyView.after
      rw [List.filter_filter]
      simp only [Bool.and_self]
    rw [state?_after, state?_after, ((follows_after _).shows key).lock?_eq,
      ((follows_after _).shows key).lock?_eq, hview]
    exact ⟨rfl, rfl⟩
  needed key hneeded hnone := by
    obtain ⟨hentered, hflight⟩ := ((follows_after steps).shows key).idle_of_no_entry hnone
    rw [← inFlight_eq_nil (follows_after steps)] at hflight
    rcases hneeded with hneeded | hneeded
    · exact hneeded hentered
    · exact hneeded hflight
  swept key := Patient.swept
  in_use key hpatient := by
    refine ⟨mt fun hflight => hpatient.find?_eq_none hflight, mt fun hnone => ?_⟩
    rw [inFlight_eq_nil (follows_after steps), ← (NumberedLocks.agrees_after steps).line, hnone]
    rfl
  emptied h := LockTable.eq_empty fun key => (h key).1.find?_eq_none (h key).2

/-- Two keys. At one of them, an acquire gives up and another one waits until the lock is handed to
it; a third one enters after its guard is dropped and before the look at the table, and so finds the
entry still there. -/
def contended : List (Bool × LockStep) :=
  [(true, .enter), (true, .enter), (true, .ask 1), (false, .enter), (true, .ask 0),
    (true, .enter), (false, .ask 0), (true, .ask 0), (true, .abandon 1), (true, .unlock 0),
    (true, .poll 2), (true, .sweep), (true, .unlock 2), (true, .enter), (false, .unlock 0),
    (true, .sweep), (false, .sweep), (true, .ask 0), (true, .unlock 3), (true, .sweep)]

theorem locks_exclude_contended :
    (∀ key, Patient key contended) ∧ (∀ key, (after contended).inFlight key = []) ∧
      (NumberedLocks.after contended).table = .empty ∧
      ∀ key, ((after contended).books key).entry = none := by
  have hpatient : ∀ key, Patient key contended := by
    unfold Patient
    decide +kernel
  have hflight : ∀ key, (after contended).inFlight key = [] := by decide +kernel
  have hrest : ∀ key, ((after contended).books key).entered = [] ∧
      ((after contended).books key).due = 0 := by
    decide +kernel
  have hexclude := locks_exclude contended
  exact ⟨hpatient, hflight, hexclude.emptied fun key => ⟨hpatient key, hflight key⟩,
    fun key => hexclude.swept key (hpatient key) (hflight key) (hrest key).1 (hrest key).2⟩

/-- The entry that stays: the acquire that was granted the lock is dropped, with an empty queue. -/
example :
    let steps := [((), .enter), ((), .ask 0), ((), .enter), ((), .ask 0), ((), .unlock 0),
      ((), .sweep), ((), .abandon 1)]
    (after steps).inFlight () = [] ∧ ((after steps).books ()).entry = some 0 ∧
      (NumberedLocks.after steps).table.entries = [((), ⟨none, []⟩)] := by
  decide

end LockPool

end CloudRoster.Cache
