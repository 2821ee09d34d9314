import CloudRoster.Proofs.Cache.SharedLocks

/-!
# The queue of a lock

`Lock.claimants` lists the claimants of one lock in the order in which they asked: the one with the
tenure first, and behind it the queue. The operations keep this list sorted by the numbers that
claimants get as they arrive (`Lock.Orderly`), so the head of the queue is the claimant that arrived
first. What an operation does to the claimants is stated as an update of `Lock.state?`.

`KeyView` is a key by itself: its lock as the table has it, with the acquires that have entered and
not asked, and the sweeps that are still due. A step is a function of this view (`LockStep.on`), in
which references do not occur.
-/

namespace CloudRoster.Cache

open Function (update)

namespace Lock

/-- The claimants of a lock stand in the order of their numbers, and a lock without tenure has an
empty queue. -/
structure Orderly (l : Lock Nat) (arrivals : Nat) : Prop where
  sorted : l.claimants.Pairwise (· < ·)
  below : ∀ n ∈ l.claimants, n < arrivals
  served : l.tenure = none → l.waiting = []

variable {l : Lock Nat} {n j bound : Nat}

theorem orderly_free (bound : Nat) : (free : Lock Nat).Orderly bound :=
  ⟨.nil, nofun, fun _ => rfl⟩

theorem mem_claimants : n ∈ l.claimants ↔
    l.tenure = some (.handed n) ∨ l.tenure = some (.held n) ∨ n ∈ l.waiting := by
  obtain ⟨tenure, waiting⟩ := l
  rcases tenure with _ | i | i <;> simp [claimants, eq_comm]

theorem Orderly.nodup (h : l.Orderly bound) : l.claimants.Nodup :=
  h.sorted.imp Nat.ne_of_lt

/-- The claimant with the tenure has a smaller number than those in the queue. -/
theorem Orderly.owner_lt (h : l.Orderly bound)
    (hn : l.tenure = some (.handed n) ∨ l.tenure = some (.held n)) (hj : j ∈ l.waiting) :
    n < j := by
  have hsorted := h.sorted
  unfold claimants at hsorted
  rcases hn with hn | hn <;>
  · rw [hn] at hsorted
    exact List.rel_of_pairwise_cons hsorted hj

theorem Orderly.waiting_sorted (h : l.Orderly bound) : l.waiting.Pairwise (· < ·) := by
  have hsorted := h.sorted
  unfold claimants at hsorted
  split at hsorted
  · exact hsorted
  · exact hsorted.of_cons
  · exact hsorted.of_cons

theorem stateOf_eq_guard : l.stateOf n = .guard ↔ l.tenure = some (.held n) := by
  unfold stateOf
  split
  · next h => simp [h]
  · next h => split <;> simp [h]

/-! ## What the operations do to it -/

theorem claimants_ask (h : l.Orderly bound) (n : Nat) :
    (l.ask n).claimants = l.claimants ++ [n] := by
  obtain ⟨tenure, waiting⟩ := l
  rcases tenure with _ | i | i
  · have hwaiting : waiting = [] := h.served rfl
    subst hwaiting
    rfl
  · rfl
  · rfl

theorem claimants_pickUp (l : Lock Nat) (n : Nat) : (l.pickUp n).claimants = l.claimants := by
  unfold pickUp
  split
  · next h => simp [claimants, h]
  · rfl

theorem claimants_pass (l : Lock Nat) : l.pass.claimants = l.waiting := by
  obtain ⟨tenure, waiting⟩ := l
  cases waiting <;> rfl

theorem claimants_of_owner (h : l.tenure = some (.handed n) ∨ l.tenure = some (.held n)) :
    l.claimants = n :: l.waiting := by
  unfold claimants
  rcases h with h | h <;> rw [h]

theorem claimants_leave (h : l.Orderly bound) (hn : l.tenure ≠ some (.held n)) :
    (l.leave n).claimants = l.claimants.erase n := by
  unfold leave
  split
  · next hhanded =>
    rw [claimants_pass, claimants_of_owner (.inl hhanded), List.erase_cons_head]
  · next hhanded =>
    obtain ⟨tenure, waiting⟩ := l
    rcases tenure with _ | i | i
    · rfl
    · have hi : i ≠ n := fun e => hhanded (by rw [e])
      simp [claimants, hi]
    · have hi : i ≠ n := fun e => hn (by rw [e])
      simp [claimants, hi]

/-- `leave` of a claimant that neither waits nor was handed the lock changes nothing. -/
theorem leave_eq_self (h : l.Orderly bound)
    (hn : l.tenure = some (.held n) ∨ n ∉ l.claimants) : l.leave n = l := by
  have hhanded : l.tenure ≠ some (.handed n) := by
    intro hhanded
    rcases hn with hheld | hgone
    · rw [hhanded] at hheld
      cases hheld
    · exact hgone (mem_claimants.2 (.inl hhanded))
  have hwaiting : n ∉ l.waiting := by
    intro hwaiting
    rcases hn with hheld | hgone
    · exact Nat.lt_irrefl n (h.owner_lt (.inr hheld) hwaiting)
    · exact hgone (mem_claimants.2 (.inr (.inr hwaiting)))
  unfold leave
  rw [if_neg hhanded, List.erase_of_not_mem hwaiting]

theorem tenure_ask (l : Lock Nat) (n : Nat) : (l.ask n).tenure ≠ none := by
  unfold ask
  split
  · exact nofun
  · next htenure => exact fun hnone => nomatch htenure.symm.trans hnone

theorem Orderly.ask (h : l.Orderly bound) : (l.ask bound).Orderly (bound + 1) := by
  refine ⟨?_, ?_, ?_⟩
  · rw [claimants_ask h]
    refine List.pairwise_append.2 ⟨h.sorted, List.pairwise_singleton .., fun a ha b hb => ?_⟩
    rw [List.mem_singleton.1 hb]
    exact h.below a ha
  · intro n hn
    rw [claimants_ask h] at hn
    rcases List.mem_append.1 hn with hn | hn
    · exact Nat.lt_succ_of_lt (h.below n hn)
    · rw [List.mem_singleton.1 hn]
      exact Nat.lt_succ_self bound
  · exact fun hfree => absurd hfree (tenure_ask l bound)

theorem Orderly.pickUp (h : l.Orderly bound) (n : Nat) : (l.pickUp n).Orderly bound := by
  refine ⟨(claimants_pickUp l n).symm ▸ h.sorted, (claimants_pickUp l n).symm ▸ h.below, ?_⟩
  unfold Lock.pickUp
  split
  · exact nofun
  · exact h.served

theorem Orderly.pass (h : l.Orderly bound) : l.pass.Orderly bound := by
  refine ⟨(claimants_pass l).symm ▸ h.waiting_sorted, fun n hn => ?_, ?_⟩
  · rw [claimants_pass] at hn
    exact h.below n (mem_claimants.2 (.inr (.inr hn)))
  · obtain ⟨tenure, waiting⟩ := l
    cases waiting with
    | nil => exact fun _ => rfl
    | cons i waiting => exact nofun

theorem Orderly.leave (h : l.Orderly bound) (n : Nat) : (l.leave n).Orderly bound := by
  by_cases hn : l.tenure = some (.held n)
  · rw [leave_eq_self h (.inl hn)]
    exact h
  · have hclaimants := claimants_leave h hn
    refine ⟨hclaimants ▸ h.sorted.sublist List.erase_sublist,
      fun i hi => h.below i (List.mem_of_mem_erase (hclaimants ▸ hi)), ?_⟩
    unfold Lock.leave
    split
    · exact h.pass.served
    · intro hfree
      show l.waiting.erase n = []
      rw [h.served hfree]
      rfl

/-- What `release` by the holder leaves of a lock is the lock after `pass`. -/
theorem getD_release_of_held (hn : l.tenure = some (.held n)) :
    (l.release n).getD free = l.pass := by
  rw [release, if_pos hn]
  rfl

/-! ## How far its claimants are -/

/-- How far an acquire is, if it is a claimant. -/
def state? (l : Lock Nat) (n : Nat) : Option AcquireState :=
  if n ∈ l.claimants then some (l.stateOf n) else none

theorem state?_eq (l : Lock Nat) (n : Nat) : l.state? n =
    if l.tenure = some (.held n) then some .guard
    else if l.tenure = some (.handed n) then some .granted
    else if n ∈ l.waiting then some .waiting
    else none := by
  unfold state? stateOf
  by_cases hheld : l.tenure = some (.held n)
  · simp [mem_claimants, hheld]
  · by_cases hhanded : l.tenure = some (.handed n)
    · simp [mem_claimants, hhanded]
    · simp [mem_claimants, hheld, hhanded]

theorem state?_eq_none : l.state? n = none ↔ n ∉ l.claimants := by
  unfold state?
  split <;> simp_all

theorem state?_eq_guard : l.state? n = some .guard ↔ l.tenure = some (.held n) := by
  rw [state?_eq]
  split
  · next h => simp [h]
  · next h => simp only [h, iff_false]; split_ifs <;> simp

theorem state?_eq_granted : l.state? n = some .granted ↔ l.tenure = some (.handed n) := by
  rw [state?_eq]
  split
  · next h => simp [h]
  · split
    · next h => simp [h]
    · next h => simp only [h, iff_false]; split <;> simp

theorem Orderly.not_owner (h : l.Orderly bound) (hn : n ∈ l.waiting) :
    l.tenure ≠ some (.held n) ∧ l.tenure ≠ some (.handed n) :=
  ⟨fun howner => Nat.lt_irrefl n (h.owner_lt (.inr howner) hn),
    fun howner => Nat.lt_irrefl n (h.owner_lt (.inl howner) hn)⟩

theorem state?_eq_waiting (h : l.Orderly bound) : l.state? n = some .waiting ↔ n ∈ l.waiting := by
  rw [state?_eq]
  constructor
  · intro hstate
    split_ifs at hstate with hheld hhanded hwaiting
    · cases hstate
    · cases hstate
    · exact hwaiting
  · intro hwaiting
    obtain ⟨hheld, hhanded⟩ := h.not_owner hwaiting
    rw [if_neg hheld, if_neg hhanded, if_pos hwaiting]

/-- After `ask` a new claimant holds a free lock, and waits for any other one. -/
theorem state?_ask (h : l.Orderly bound) : (l.ask bound).state? =
    update l.state? bound (some (if l.claimants = [] then .guard else .waiting)) := by
  obtain ⟨tenure, waiting⟩ := l
  funext j
  cases tenure with
  | none =>
    obtain rfl : waiting = [] := h.served rfl
    by_cases hj : j = bound
    · simp [hj, state?_eq, ask, claimants]
    · simp [hj, state?_eq, ask, Ne.symm hj]
  | some tenure =>
    have hclaimants : (⟨some tenure, waiting⟩ : Lock Nat).claimants ≠ [] := by
      cases tenure <;> simp [claimants]
    rw [if_neg hclaimants]
    by_cases hj : j = bound
    · subst hj
      rw [Function.update_self, state?_eq_waiting h.ask]
      exact List.mem_append_right _ (List.mem_singleton_self j)
    · simp [hj, state?_eq, ask]

/-- After `pickUp` the claimant that was handed the lock has its guard. -/
theorem state?_pickUp (hn : l.tenure = some (.handed n)) :
    (l.pickUp n).state? = update l.state? n (some .guard) := by
  funext j
  by_cases hj : j = n
  · simp [hj, state?_eq, pickUp, hn]
  · simp [hj, state?_eq, pickUp, hn, Ne.symm hj]

/-- After `leave` a claimant that waited has no state. -/
theorem state?_leave (h : l.Orderly bound) (hn : n ∈ l.waiting) :
    (l.leave n).state? = update l.state? n none := by
  obtain ⟨hheld, hhanded⟩ := h.not_owner hn
  funext j
  by_cases hj : j = n
  · subst hj
    rw [Function.update_self, state?_eq_none, claimants_leave h hheld]
    exact h.nodup.not_mem_erase
  · simp [hj, state?_eq, leave, hhanded, List.mem_erase_of_ne hj]

/-- After `pass` of a lock with an empty queue no claimant has a state. -/
theorem state?_pass_of_nobody (hn : l.tenure = some (.handed n) ∨ l.tenure = some (.held n))
    (hnobody : l.waiting = []) : l.pass.state? = update l.state? n none := by
  have hclaimants := claimants_of_owner hn
  funext j
  by_cases hj : j = n
  · rw [hj, Function.update_self, state?_eq_none, claimants_pass, hnobody]
    exact List.not_mem_nil
  · rw [Function.update_of_ne hj, state?_eq_none.2, state?_eq_none.2]
    · simp [hclaimants, hnobody, hj]
    · simp [claimants_pass, hnobody]

/-- After `pass` the lock is granted to the head of the queue. -/
theorem state?_pass (h : l.Orderly bound)
    (hn : l.tenure = some (.handed n) ∨ l.tenure = some (.held n)) {first : Nat}
    {rest : List Nat} (hqueue : l.waiting = first :: rest) :
    l.pass.state? = update (update l.state? n none) first (some .granted) := by
  have hpass : l.pass = ⟨some (.handed first), rest⟩ := by
    rw [pass, hqueue]
    rfl
  have hrest : n ∉ rest := fun hmem =>
    Nat.lt_irrefl n (h.owner_lt hn (hqueue ▸ List.mem_cons_of_mem _ hmem))
  rw [hpass]
  funext j
  by_cases hfirst : j = first
  · simp [hfirst, state?_eq]
  · by_cases hj : j = n
    · subst hj
      simp [state?_eq, hfirst, Ne.symm hfirst, hrest]
    · rcases hn with hn | hn <;>
        simp [state?_eq, hfirst, hj, Ne.symm hfirst, Ne.symm hj, hn, hqueue]

/-- The head of the queue is the claimant with the smallest number of those that wait. -/
theorem Orderly.eq_first (h : l.Orderly bound) {first : Nat} {rest : List Nat}
    (hqueue : l.waiting = first :: rest) (hn : n ∈ l.waiting) (hfirst : ∀ j ∈ l.waiting, n ≤ j) :
    n = first := by
  have hsorted := h.waiting_sorted
  rw [hqueue] at hsorted hn hfirst
  rcases List.mem_cons.1 hn with rfl | hrest
  · rfl
  · have hlt := List.rel_of_pairwise_cons hsorted hrest
    have hle := hfirst first List.mem_cons_self
    omega

/-- There are as many claimants as numbers with a state. -/
theorem length_filter_state? (h : l.Orderly bound) :
    ((List.range bound).filter fun n => (l.state? n).isSome).length = l.claimants.length := by
  refine List.Perm.length_eq ?_
  rw [List.perm_ext_iff_of_nodup (List.nodup_range.filter _) h.nodup]
  intro n
  have hstate : (l.state? n).isSome = true ↔ n ∈ l.claimants := by
    rw [Option.isSome_iff_ne_none, Ne, state?_eq_none, not_not]
  rw [List.mem_filter, List.mem_range, hstate]
  exact ⟨fun hn => hn.2, fun hn => ⟨h.below n hn, hn⟩⟩

/-! ## Tenure after an operation -/

theorem tenure_pickUp : (l.pickUp n).tenure = none ↔ l.tenure = none := by
  unfold pickUp
  split
  · next hhanded => simp [hhanded]
  · rfl

theorem tenure_leave (hn : l.tenure ≠ some (.handed n)) : (l.leave n).tenure = l.tenure := by
  unfold leave
  rw [if_neg hn]

theorem tenure_release {r : Lock Nat} (hrelease : l.release n = some r) (hl : l.tenure ≠ none) :
    r.tenure ≠ none := by
  unfold release at hrelease
  split at hrelease
  · obtain ⟨tenure, _ | ⟨first, rest⟩⟩ := l
    · cases hrelease
    · obtain rfl := Option.some.inj hrelease
      exact nofun
  · exact Option.some.inj hrelease ▸ hl

/-- An orderly lock without tenure is free. -/
theorem Orderly.eq_free_of_tenure (h : l.Orderly bound) (hnone : l.tenure = none) : l = free := by
  obtain ⟨tenure, waiting⟩ := l
  obtain rfl : tenure = none := hnone
  obtain rfl : waiting = [] := h.served rfl
  rfl

/-- An orderly lock without claimants is free. -/
theorem Orderly.eq_free (h : l.Orderly bound) (hnobody : l.claimants = []) : l = free := by
  refine h.eq_free_of_tenure ?_
  obtain ⟨_ | _ | _, waiting⟩ := l
  · rfl
  · cases hnobody
  · cases hnobody

end Lock

/-! ## What there is of one key -/

/-- A key as its acquires see it, without the references that they have to its lock. -/
structure KeyView where
  /-- The lock of the key, if there is an entry. -/
  lock : Option (Lock Nat)
  /-- How many acquires have a reference and have not asked. -/
  entered : Nat
  /-- How many acquires have asked. -/
  arrivals : Nat
  /-- How many sweeps are still to come after the drops of guards. -/
  due : Nat

/-- The lock of a key, which is free if there is no entry. -/
def KeyView.line (v : KeyView) : Lock Nat := v.lock.getD .free

/-- The view of a key after a step at it. -/
def LockStep.on : LockStep → KeyView → KeyView
  | enter, v => { v with lock := some v.line, entered := v.entered + 1 }
  | ask i, v =>
    if i < v.entered then
      { v with
        lock := some (v.line.ask v.arrivals)
        entered := v.entered - 1
        arrivals := v.arrivals + 1 }
    else v
  | poll n, v => { v with lock := v.lock.map (·.pickUp n) }
  | unlock n, v =>
    if v.line.tenure = some (.held n) then { v with lock := some v.line.pass, due := v.due + 1 }
    else v
  | sweep, v =>
    if v.due = 0 then v
    else
      { v with
        lock := if v.line.claimants = [] ∧ v.entered = 0 then none else v.lock
        due := v.due - 1 }
  | abandon n, v => { v with lock := v.lock.map (·.leave n) }

/-- A key at which nothing has happened. -/
def KeyView.new : KeyView := ⟨none, 0, 0, 0⟩

/-- The view of a key after the steps at it, among steps at any keys. -/
def KeyView.after {κ : Type} [DecidableEq κ] (steps : List (κ × LockStep)) (key : κ) : KeyView :=
  (steps.filter (·.1 = key)).foldl (fun v c => c.2.on v) new

theorem KeyView.after_concat {κ : Type} [DecidableEq κ] (steps : List (κ × LockStep))
    (c : κ × LockStep) :
    after (steps ++ [c]) = update (after steps) c.1 (c.2.on (after steps c.1)) := by
  funext key
  unfold after
  rw [List.filter_append, List.foldl_append]
  by_cases h : key = c.1
  · subst h
    simp
  · simp [h, Ne.symm h]

/-- The lock of a key after a step at it; it does not depend on the entry in the table. -/
def LockStep.onLine : LockStep → KeyView → Lock Nat
  | ask i, v => if i < v.entered then v.line.ask v.arrivals else v.line
  | poll n, v => v.line.pickUp n
  | unlock n, v => if v.line.tenure = some (.held n) then v.line.pass else v.line
  | abandon n, v => v.line.leave n
  | enter, v | sweep, v => v.line

namespace KeyView

variable {v : KeyView}

theorem getD_map {f : Lock Nat → Lock Nat} (hf : f .free = .free) (l? : Option (Lock Nat)) :
    (l?.map f).getD .free = f (l?.getD .free) := by
  cases l? with
  | none => exact hf.symm
  | some l => rfl

theorem map_lock_self {f : Lock Nat → Lock Nat} (hf : f v.line = v.line) :
    { v with lock := v.lock.map f } = v := by
  obtain ⟨_ | l, entered, arrivals, due⟩ := v
  · rfl
  · exact congrArg (KeyView.mk · entered arrivals due) (congrArg some hf)

theorem line_on (h : v.line.Orderly v.arrivals) (c : LockStep) : (c.on v).line = c.onLine v := by
  cases c with
  | enter => rfl
  | ask i =>
    simp only [LockStep.on, LockStep.onLine]
    split <;> rfl
  | poll n => exact getD_map rfl v.lock
  | unlock n =>
    simp only [LockStep.on, LockStep.onLine]
    split <;> rfl
  | sweep =>
    simp only [LockStep.on, LockStep.onLine]
    split
    · rfl
    · show Option.getD (if _ then none else v.lock) .free = _
      split
      · next hidle => exact (h.eq_free hidle.1).symm
      · rfl
  | abandon n => exact getD_map rfl v.lock

/-- Steps keep the queue of a key orderly. -/
theorem orderly_on (h : v.line.Orderly v.arrivals) (c : LockStep) :
    (c.on v).line.Orderly (c.on v).arrivals := by
  rw [line_on h]
  cases c with
  | enter => exact h
  | ask i =>
    simp only [LockStep.on, LockStep.onLine]
    split
    · exact h.ask
    · exact h
  | poll n => exact h.pickUp n
  | unlock n =>
    simp only [LockStep.on, LockStep.onLine]
    split
    · exact h.pass
    · exact h
  | sweep =>
    simp only [LockStep.on, LockStep.onLine]
    split <;> exact h
  | abandon n => exact h.leave n

/-- An entry without claimants still has an acquire that has entered, or a sweep that is due. -/
def Tended (v : KeyView) : Prop :=
  ∀ l, v.lock = some l → l.tenure = none → 0 < v.entered ∨ 0 < v.due

/-- Steps keep entries tended, except the `abandon` of an acquire that was granted the lock. -/
theorem Tended.on (h : v.Tended) (horderly : v.line.Orderly v.arrivals) {c : LockStep}
    (hc : ∀ n, c = .abandon n → v.line.state? n ≠ some .granted) : (c.on v).Tended := by
  intro l hl hnone
  cases c with
  | enter => exact .inl (Nat.succ_pos _)
  | ask i =>
    simp only [LockStep.on] at hl ⊢
    split at hl
    · obtain rfl := Option.some.inj hl
      exact absurd hnone (Lock.tenure_ask _ _)
    · next hnobody =>
      rw [if_neg hnobody]
      exact h l hl hnone
  | poll n =>
    obtain ⟨l₀, hl₀, rfl⟩ := Option.map_eq_some_iff.1 hl
    exact h l₀ hl₀ (Lock.tenure_pickUp.1 hnone)
  | unlock n =>
    simp only [LockStep.on] at hl ⊢
    split at hl
    · next hheld =>
      rw [if_pos hheld]
      exact .inr (Nat.succ_pos _)
    · next hheld =>
      rw [if_neg hheld]
      exact h l hl hnone
  | sweep =>
    simp only [LockStep.on] at hl ⊢
    split at hl
    · next hdue =>
      rw [if_pos hdue]
      exact h l hl hnone
    · next hdue =>
      rw [if_neg hdue]
      replace hl : (if v.line.claimants = [] ∧ v.entered = 0 then none else v.lock) = some l := hl
      split at hl
      · cases hl
      · next hneeded =>
        have hline : v.line = l := by rw [line, hl]; rfl
        have hnobody : v.line.claimants = [] := by
          rw [horderly.eq_free_of_tenure (hline ▸ hnone)]
          rfl
        exact .inl (Nat.pos_of_ne_zero fun hentered => hneeded ⟨hnobody, hentered⟩)
  | abandon n =>
    obtain ⟨l₀, hl₀, rfl⟩ := Option.map_eq_some_iff.1 hl
    have hhanded : l₀.tenure ≠ some (.handed n) := fun hhanded => by
      have hline : v.line = l₀ := by rw [line, hl₀]; rfl
      exact hc n rfl (hline ▸ Lock.state?_eq_granted.2 hhanded)
    exact h l₀ hl₀ (Lock.tenure_leave hhanded ▸ hnone)

end KeyView

/-- Whether a step changes how far the acquires of a key are that have asked. -/
def LockStep.Affects (entered : Nat) (state : Nat → Option AcquireState) : LockStep → Prop
  | enter | sweep => False
  | ask i => i < entered
  | poll n => state n = some .granted
  | unlock n => state n = some .guard
  | abandon n => state n = some .waiting ∨ state n = some .granted

theorem LockStep.onLine_of_not_affects {v : KeyView} (h : v.line.Orderly v.arrivals)
    {c : LockStep} (hc : ¬ c.Affects v.entered v.line.state?) : c.onLine v = v.line := by
  cases c with
  | enter => rfl
  | ask i => exact if_neg hc
  | poll n => exact if_neg (mt Lock.state?_eq_granted.2 hc)
  | unlock n => exact if_neg (mt Lock.state?_eq_guard.2 hc)
  | sweep => rfl
  | abandon n =>
    refine Lock.leave_eq_self h ?_
    rw [or_iff_not_imp_right, not_not, Lock.mem_claimants]
    rintro (hhanded | hheld | hwaiting)
    · exact absurd (.inr (Lock.state?_eq_granted.2 hhanded)) hc
    · exact hheld
    · exact absurd (.inl ((Lock.state?_eq_waiting h).2 hwaiting)) hc

end CloudRoster.Cache
