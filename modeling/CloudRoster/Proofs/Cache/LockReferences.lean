import CloudRoster.Proofs.Cache.LockQueue

/-!
# References to shared locks

What holds between two steps of a `LockPool`, whatever keys the steps are at. The references of a
key are those of its entry in the table, of the acquires that have entered, and of the claimants of
the lock. They are all to the lock that stands under the key, and `SharedLock.references` counts
them (`LockPool.Shows`). So `LockPool.sweep` takes an entry out exactly if its lock has no other
reference, and each key develops as its `KeyView` does.
-/

namespace CloudRoster.Cache.LockPool

open Function (update)

variable {κ : Type} {p q : LockPool κ} {key other : κ} {r : Lock Nat} {m n : Nat} {v : KeyView}

/-- A key without an entry: there are no references. -/
structure Vacant (p : LockPool κ) (key : κ) : Prop where
  entry : (p.books key).entry = none
  entered : (p.books key).entered = []
  seat : ∀ n, (p.books key).seat n = none

/-- A lock stands under a key: all references of the key are to it, and there are no others. -/
structure Stands (p : LockPool κ) (key : κ) (l : Lock Nat) (m : Nat) : Prop where
  made : m < p.made
  entry : (p.books key).entry = some m
  lock : p.locks m = ⟨l, l.claimants.length + (p.books key).entered.length + 1⟩
  entered : ∀ x ∈ (p.books key).entered, x = m
  seat : ∀ n, (p.books key).seat n = if n ∈ l.claimants then some m else none

/-- The references of a key. -/
def Refers (p : LockPool κ) (key : κ) : Option (Lock Nat) → Prop
  | none => p.Vacant key
  | some l => ∃ m, p.Stands key l m

/-- The pool has of a key what the key is by itself. -/
structure Shows (p : LockPool κ) (key : κ) (v : KeyView) : Prop where
  refers : p.Refers key v.lock
  entered : (p.books key).entered.length = v.entered
  arrivals : (p.books key).arrivals = v.arrivals
  due : (p.books key).due = v.due

theorem Shows.cases (h : p.Shows key v) :
    (v.lock = none ∧ v.line = .free ∧ p.Vacant key) ∨
      ∃ m, v.lock = some v.line ∧ p.Stands key v.line m := by
  have hrefers := h.refers
  cases hl : v.lock with
  | none =>
    rw [hl] at hrefers
    exact .inl ⟨rfl, by rw [KeyView.line, hl]; rfl, hrefers⟩
  | some l =>
    rw [hl] at hrefers
    obtain ⟨m, hstands⟩ := hrefers
    have hline : v.line = l := by rw [KeyView.line, hl]; rfl
    exact .inr ⟨m, congrArg some hline.symm, hline ▸ hstands⟩

/-! ## What the references tell -/

/-- All references of a key are to the lock that stands under it. -/
theorem Shows.entry_of_reference (h : p.Shows key v)
    (hm : m ∈ (p.books key).entered ∨ ∃ n, (p.books key).seat n = some m) :
    (p.books key).entry = some m := by
  rcases h.cases with ⟨-, -, hvacant⟩ | ⟨m', -, hstands⟩
  · rcases hm with hm | ⟨n, hm⟩
    · rw [hvacant.entered] at hm
      cases hm
    · cases (hvacant.seat n).symm.trans hm
  · rw [hstands.entry]
    rcases hm with hm | ⟨n, hm⟩
    · rw [hstands.entered m hm]
    · rw [hstands.seat] at hm
      split at hm
      · exact hm
      · cases hm

/-- The lock that stands under a key, with its references. -/
theorem Shows.stands (h : p.Shows key v) (hm : (p.books key).entry = some m) :
    v.lock = some v.line ∧ p.Stands key v.line m := by
  rcases h.cases with ⟨-, -, hvacant⟩ | ⟨m', hlock, hstands⟩
  · cases hvacant.entry.symm.trans hm
  · cases hstands.entry.symm.trans hm
    exact ⟨hlock, hstands⟩

/-- A key without an entry has no claimants and no acquires that have entered. -/
theorem Shows.idle_of_no_entry (h : p.Shows key v) (hnone : (p.books key).entry = none) :
    (p.books key).entered = [] ∧ v.line.claimants = [] := by
  rcases h.cases with ⟨-, hfree, hvacant⟩ | ⟨m, -, hstands⟩
  · exact ⟨hvacant.entered, hfree ▸ rfl⟩
  · cases hnone.symm.trans hstands.entry

/-- An acquire that is a claimant of the lock of its key has a reference to it; any other one that
has asked has none. -/
theorem Shows.seat_cases (h : p.Shows key v) (n : Nat) :
    ((p.books key).seat n = none ∧ n ∉ v.line.claimants) ∨
    ∃ m, v.lock = some v.line ∧ p.Stands key v.line m ∧ n ∈ v.line.claimants ∧
      (p.books key).seat n = some m := by
  rcases h.cases with ⟨-, hfree, hvacant⟩ | ⟨m, hlock, hstands⟩
  · exact .inl ⟨hvacant.seat n, hfree ▸ List.not_mem_nil⟩
  · by_cases hn : n ∈ v.line.claimants
    · exact .inr ⟨m, hlock, hstands, hn, (hstands.seat n).trans (if_pos hn)⟩
    · exact .inl ⟨(hstands.seat n).trans (if_neg hn), hn⟩

theorem Shows.lock?_eq (h : p.Shows key v) : p.lock? key = v.lock := by
  unfold lock?
  rcases h.cases with ⟨hlock, -, hvacant⟩ | ⟨m, hlock, hstands⟩
  · rw [hvacant.entry, hlock, Option.map_none]
  · rw [hstands.entry, hlock, Option.map_some, hstands.lock]

/-- How far the acquires are is told by the claimants of the lock. -/
theorem Shows.state?_eq (h : p.Shows key v) : p.state? key = v.line.state? := by
  funext n
  unfold LockPool.state? Lock.state?
  rcases h.seat_cases n with ⟨hseat, hgone⟩ | ⟨m, -, hstands, hn, hseat⟩
  · rw [hseat, if_neg hgone, Option.map_none]
  · rw [hseat, if_pos hn, Option.map_some, hstands.lock]

/-! ## What is about other keys -/

/-- A pool differs from an earlier one only in what is about a key. -/
structure Beside (p q : LockPool κ) (key : κ) : Prop where
  made : p.made ≤ q.made
  books : ∀ other ≠ key, q.books other = p.books other
  /-- Of the locks that there were, only that of the key was touched. -/
  locks : ∀ m < p.made, (p.books key).entry ≠ some m → q.locks m = p.locks m
  /-- The lock of the key is the one that it had, or a new one. -/
  placed : ∀ m, (q.books key).entry = some m → (p.books key).entry = some m ∨ p.made ≤ m

theorem Beside.refl (p : LockPool κ) (key : κ) : Beside p p key :=
  ⟨Nat.le_refl _, fun _ _ => rfl, fun _ _ _ => rfl, fun _ h => .inl h⟩

theorem Beside.trans {r : LockPool κ} (h : Beside p q key) (h' : Beside q r key) :
    Beside p r key where
  made := Nat.le_trans h.made h'.made
  books other hother := (h'.books other hother).trans (h.books other hother)
  locks m hm hkey := by
    refine (h'.locks m (Nat.lt_of_lt_of_le hm h.made) fun hplaced => ?_).trans (h.locks m hm hkey)
    rcases h.placed m hplaced with hplaced | hnew
    · exact hkey hplaced
    · omega
  placed m hm := by
    rcases h'.placed m hm with hm | hnew
    · exact h.placed m hm
    · exact .inr (Nat.le_trans h.made hnew)

/-- What the pool has of another key stays. -/
theorem Shows.frame (h : p.Shows other v) (hbeside : Beside p q key) (hother : other ≠ key)
    (hapart : ∀ m, (p.books other).entry = some m → (p.books key).entry ≠ some m) :
    q.Shows other v := by
  have hbooks := hbeside.books other hother
  refine ⟨?_, hbooks ▸ h.entered, hbooks ▸ h.arrivals, hbooks ▸ h.due⟩
  rcases h.cases with ⟨hlock, -, hvacant⟩ | ⟨m, hlock, hstands⟩
  · rw [hlock]
    exact ⟨hbooks ▸ hvacant.entry, hbooks ▸ hvacant.entered, hbooks ▸ hvacant.seat⟩
  · rw [hlock]
    have hsame := hbeside.locks m hstands.made (hapart m hstands.entry)
    exact ⟨m, Nat.lt_of_lt_of_le hstands.made hbeside.made, hbooks ▸ hstands.entry,
      hbooks ▸ hsame.trans hstands.lock, hbooks ▸ hstands.entered, hbooks ▸ hstands.seat⟩

/-! ## The steps -/

variable [DecidableEq κ]

theorem books_note (p : LockPool κ) (key : κ) (b : KeyBooks) : (p.note key b).books key = b :=
  Function.update_self ..

theorem note_self (p : LockPool κ) (key : κ) : p.note key (p.books key) = p := by
  unfold note
  rw [Function.update_eq_self]

theorem beside_note {b : KeyBooks} (hb : b.entry = (p.books key).entry) :
    Beside p (p.note key b) key where
  made := Nat.le_refl _
  books _ hother := Function.update_of_ne hother ..
  locks _ _ _ := rfl
  placed k hk := by
    rw [books_note, hb] at hk
    exact .inl hk

theorem beside_touch_note (hm : (p.books key).entry = some m) (f : SharedLock → SharedLock)
    {b : KeyBooks} (hb : b.entry = some m ∨ b.entry = none) :
    Beside p ((p.touch m f).note key b) key where
  made := Nat.le_refl _
  books _ hother := Function.update_of_ne hother ..
  locks k _ hk := by
    have hne : k ≠ m := fun e => hk (e ▸ hm)
    exact Function.update_of_ne hne ..
  placed k hk := by
    rw [books_note] at hk
    rcases hb with hb | hb
    · exact .inl (hm.trans (hb ▸ hk))
    · cases hb.symm.trans hk

/-- The lock of a key is changed, and what is kept for the key with it. -/
theorem Shows.change (h : p.Shows key v) (hm : p.Stands key v.line m)
    {f : SharedLock → SharedLock} {b : KeyBooks} {w : KeyView} (hr : w.lock = some r)
    (hentry : b.entry = some m)
    (hf : f ⟨v.line, v.line.claimants.length + v.entered + 1⟩ =
      ⟨r, r.claimants.length + w.entered + 1⟩)
    (hall : ∀ x ∈ b.entered, x = m)
    (hseat : ∀ n, b.seat n = if n ∈ r.claimants then some m else none)
    (hentered : b.entered.length = w.entered) (harrivals : b.arrivals = w.arrivals)
    (hdue : b.due = w.due) :
    ((p.touch m f).note key b).Shows key w ∧ Beside p ((p.touch m f).note key b) key := by
  have hbooks := books_note (p.touch m f) key b
  have hlock : ((p.touch m f).note key b).locks m = f (p.locks m) := Function.update_self ..
  rw [hm.lock, h.entered, hf, ← hentered] at hlock
  refine ⟨⟨?_, ?_, ?_, ?_⟩, beside_touch_note hm.entry f (.inl hentry)⟩
  · rw [hr]
    refine ⟨m, hm.made, ?_, ?_, ?_, ?_⟩ <;> rw [hbooks]
    · exact hentry
    · exact hlock
    · exact hall
    · exact hseat
  · rw [hbooks, hentered]
  · rw [hbooks, harrivals]
  · rw [hbooks, hdue]

/-- A new lock stands under a key that had none. -/
theorem Vacant.place (h : p.Vacant key) :
    (p.place key).Stands key .free p.made ∧ Beside p (p.place key) key := by
  have hlock : (p.place key).locks p.made = ⟨.free, 1⟩ := Function.update_self ..
  have hbooks : (p.place key).books key = { p.books key with entry := some p.made } :=
    books_note ..
  refine ⟨⟨Nat.lt_succ_self _, ?_, ?_, ?_, ?_⟩, ⟨Nat.le_succ _,
    fun other hother => Function.update_of_ne hother ..,
    fun k hk _ => Function.update_of_ne (Nat.ne_of_lt hk) .., fun k hk => .inr ?_⟩⟩
  · rw [hbooks]
  · rw [hlock, hbooks, h.entered]
    rfl
  · rw [hbooks, h.entered]
    exact nofun
  · rw [hbooks]
    exact h.seat
  · rw [hbooks] at hk
    exact Nat.le_of_eq (Option.some.inj hk)

/-- After the look at the table that `enter` begins with, a lock stands under the key. -/
theorem Shows.entry (h : p.Shows key v) :
    (p.entry key).1.Shows key { v with lock := some v.line } ∧ Beside p (p.entry key).1 key ∧
      (p.entry key).1.Stands key v.line (p.entry key).2 := by
  rcases h.cases with ⟨-, hfree, hvacant⟩ | ⟨m, hlock, hstands⟩
  · have heq : p.entry key = (p.place key, p.made) := by
      unfold LockPool.entry
      rw [hvacant.entry]
    have hbooks : (p.place key).books key = { p.books key with entry := some p.made } :=
      books_note ..
    obtain ⟨hstands, hbeside⟩ := hvacant.place
    rw [heq, hfree]
    refine ⟨⟨⟨p.made, hstands⟩, ?_, ?_, ?_⟩, hbeside, hstands⟩
    · rw [hbooks]
      exact h.entered
    · rw [hbooks]
      exact h.arrivals
    · rw [hbooks]
      exact h.due
  · have heq : p.entry key = (p, m) := by
      unfold LockPool.entry
      rw [hstands.entry]
    have hsame : { v with lock := some v.line } = v := by rw [← hlock]
    rw [heq, hsame]
    exact ⟨h, Beside.refl p key, hstands⟩

/-- A new acquire has a reference, to the lock that stands under the key. -/
theorem Shows.enter (h : p.Shows key v) :
    (p.enter key).Shows key (LockStep.on .enter v) ∧ Beside p (p.enter key) key := by
  obtain ⟨hshows, hbeside, hstands⟩ := h.entry
  obtain ⟨hshows', hbeside'⟩ := hshows.change hstands (w := LockStep.on .enter v)
    (f := fun s => { s with references := s.references + 1 })
    (b := { (p.entry key).1.books key with
      entered := (p.entry key).2 :: ((p.entry key).1.books key).entered })
    rfl hstands.entry (congrArg (SharedLock.mk _) (Nat.add_right_comm ..))
    (List.forall_mem_cons.2 ⟨rfl, hstands.entered⟩) hstands.seat
    (congrArg (· + 1) hshows.entered) hshows.arrivals hshows.due
  exact ⟨hshows', hbeside.trans hbeside'⟩

/-- An acquire that asks is a claimant from then on, with the reference that it has. -/
theorem Shows.ask (h : p.Shows key v) (horderly : v.line.Orderly v.arrivals) (i : Nat) :
    (p.ask key i).Shows key (LockStep.on (.ask i) v) ∧ Beside p (p.ask key i) key := by
  by_cases hi : i < v.entered
  · have hi' : i < (p.books key).entered.length := h.entered ▸ hi
    obtain ⟨-, hstands⟩ := h.stands (h.entry_of_reference (.inl (List.getElem_mem hi')))
    generalize (p.books key).entered[i] = m at hstands
    have hget : (p.books key).entered[i]? = some m := by
      rw [List.getElem?_eq_getElem hi', hstands.entered _ (List.getElem_mem hi')]
    have heq : p.ask key i =
        (p.touch m fun s => { s with lock := s.lock.ask (p.books key).arrivals }).note key
          { p.books key with
            entered := (p.books key).entered.eraseIdx i
            arrivals := (p.books key).arrivals + 1
            seat := update (p.books key).seat (p.books key).arrivals (some m) } := by
      unfold LockPool.ask
      simp only [hget]
    have hclaimants := Lock.claimants_ask horderly v.arrivals
    rw [heq, LockStep.on, if_pos hi, h.arrivals]
    refine h.change hstands rfl hstands.entry ?_
      (fun x hx => hstands.entered x (List.mem_of_mem_eraseIdx hx)) (fun j => ?_) ?_ rfl h.due
    · simp only [hclaimants, List.length_append, List.length_singleton]
      congr 1
      omega
    · rw [hclaimants]
      by_cases hj : j = v.arrivals
      · simp [hj]
      · simp [hj, hstands.seat]
    · rw [List.length_eraseIdx_of_lt hi', h.entered]
  · have hget : (p.books key).entered[i]? = none :=
      List.getElem?_eq_none (h.entered ▸ Nat.not_lt.1 hi)
    have heq : p.ask key i = p := by
      unfold LockPool.ask
      simp only [hget]
    rw [heq, LockStep.on, if_neg hi]
    exact ⟨h, Beside.refl p key⟩

theorem Shows.poll (h : p.Shows key v) (n : Nat) :
    (p.poll key n).Shows key (LockStep.on (.poll n) v) ∧ Beside p (p.poll key n) key := by
  rcases h.seat_cases n with ⟨hseat, hgone⟩ | ⟨m, hlock, hstands, -, hseat⟩
  · have heq : p.poll key n = p := by
      unfold LockPool.poll
      rw [hseat]
    have hsame : LockStep.on (.poll n) v = v :=
      KeyView.map_lock_self (if_neg fun hhanded => hgone (Lock.mem_claimants.2 (.inl hhanded)))
    rw [heq, hsame]
    exact ⟨h, Beside.refl p key⟩
  · have heq : p.poll key n =
        (p.touch m fun s => { s with lock := s.lock.pickUp n }).note key (p.books key) := by
      unfold LockPool.poll
      rw [hseat]
      exact (note_self (p.touch m _) key).symm
    have hclaimants := Lock.claimants_pickUp v.line n
    have hlock' : (LockStep.on (.poll n) v).lock = some (v.line.pickUp n) :=
      congrArg (Option.map (Lock.pickUp · n)) hlock
    rw [heq]
    exact h.change hstands hlock' hstands.entry
      (congrArg (SharedLock.mk _ <| List.length · + v.entered + 1) hclaimants.symm)
      hstands.entered (hclaimants ▸ hstands.seat) h.entered h.arrivals h.due

/-- An acquire gives its reference up, and the lock is that without the claim. -/
theorem Shows.withdraw (h : p.Shows key v) (hm : p.Stands key v.line m)
    (hn : n ∈ v.line.claimants) (hnodup : v.line.claimants.Nodup) {f : Lock Nat → Lock Nat}
    (hclaimants : (f v.line).claimants = v.line.claimants.erase n) {w : KeyView}
    (hlock : w.lock = some (f v.line)) (hentered : w.entered = v.entered)
    (harrivals : w.arrivals = v.arrivals) :
    ((p.touch m fun s => ⟨f s.lock, s.references - 1⟩).note key
        { p.books key with seat := update (p.books key).seat n none, due := w.due }).Shows key w ∧
      Beside p ((p.touch m fun s => ⟨f s.lock, s.references - 1⟩).note key
        { p.books key with seat := update (p.books key).seat n none, due := w.due }) key := by
  refine h.change hm hlock hm.entry ?_ hm.entered (fun j => ?_) (h.entered.trans hentered.symm)
    (h.arrivals.trans harrivals.symm) rfl
  · have hlength := List.length_erase_of_mem hn
    have hpos := List.length_pos_of_mem hn
    show SharedLock.mk (f v.line) (v.line.claimants.length + v.entered + 1 - 1) = _
    rw [hclaimants, hlength, hentered]
    congr 1
    omega
  · show update (p.books key).seat n none j = _
    rw [hclaimants]
    by_cases hj : j = n
    · rw [hj, Function.update_self, if_neg hnodup.not_mem_erase]
    · rw [Function.update_of_ne hj, hm.seat, if_congr (List.mem_erase_of_ne hj) rfl rfl]

theorem Shows.unlock (h : p.Shows key v) (horderly : v.line.Orderly v.arrivals) (n : Nat) :
    (p.unlock key n).Shows key (LockStep.on (.unlock n) v) ∧ Beside p (p.unlock key n) key := by
  by_cases hheld : v.line.tenure = some (.held n)
  · have hn : n ∈ v.line.claimants := Lock.mem_claimants.2 (.inr (.inl hheld))
    rcases h.seat_cases n with ⟨-, hgone⟩ | ⟨m, -, hstands, -, hseat⟩
    · exact absurd hn hgone
    · have heq : p.unlock key n = (p.touch m fun s => ⟨s.lock.pass, s.references - 1⟩).note key
          { p.books key with
            seat := update (p.books key).seat n none
            due := (p.books key).due + 1 } := by
        unfold LockPool.unlock
        simp only [hseat, hstands.lock, Lock.stateOf_eq_guard.2 hheld, if_true]
      have hclaimants : v.line.pass.claimants = v.line.claimants.erase n := by
        rw [Lock.claimants_pass, Lock.claimants_of_owner (.inr hheld), List.erase_cons_head]
      rw [heq, LockStep.on, if_pos hheld, h.due]
      exact h.withdraw hstands hn horderly.nodup (f := Lock.pass) hclaimants
        (w := { v with lock := some v.line.pass, due := v.due + 1 }) rfl rfl rfl
  · have heq : p.unlock key n = p := by
      unfold LockPool.unlock
      rcases h.seat_cases n with ⟨hseat, -⟩ | ⟨m, -, hstands, -, hseat⟩
      · simp only [hseat]
      · simp only [hseat, hstands.lock]
        exact if_neg (mt Lock.stateOf_eq_guard.1 hheld)
    rw [heq, LockStep.on, if_neg hheld]
    exact ⟨h, Beside.refl p key⟩

theorem Shows.abandon (h : p.Shows key v) (horderly : v.line.Orderly v.arrivals) (n : Nat) :
    (p.abandon key n).Shows key (LockStep.on (.abandon n) v) ∧ Beside p (p.abandon key n) key := by
  by_cases hself : v.line.tenure = some (.held n) ∨ n ∉ v.line.claimants
  · have heq : p.abandon key n = p := by
      unfold LockPool.abandon
      rcases h.seat_cases n with ⟨hseat, -⟩ | ⟨m, -, hstands, hn, hseat⟩
      · simp only [hseat]
      · have hheld := hself.resolve_right (not_not.2 hn)
        simp only [hseat, hstands.lock, Lock.stateOf_eq_guard.2 hheld, if_true]
    have hsame : LockStep.on (.abandon n) v = v :=
      KeyView.map_lock_self (Lock.leave_eq_self horderly hself)
    rw [heq, hsame]
    exact ⟨h, Beside.refl p key⟩
  · obtain ⟨hheld, hn⟩ := not_or.1 hself
    rcases h.seat_cases n with ⟨-, hgone⟩ | ⟨m, hlock, hstands, hn, hseat⟩
    · exact absurd hgone hn
    · have heq : p.abandon key n =
          (p.touch m fun s => ⟨s.lock.leave n, s.references - 1⟩).note key
            { p.books key with
              seat := update (p.books key).seat n none
              due := (p.books key).due } := by
        unfold LockPool.abandon
        simp only [hseat, hstands.lock]
        exact if_neg (mt Lock.stateOf_eq_guard.1 hheld)
      rw [heq, h.due]
      exact h.withdraw hstands hn horderly.nodup (f := (Lock.leave · n))
        (Lock.claimants_leave horderly hheld) (w := LockStep.on (.abandon n) v)
        (congrArg (Option.map (Lock.leave · n)) hlock) rfl rfl

/-- A sweep that leaves the entry as it is. -/
theorem Shows.looked (h : p.Shows key v) (d : Nat) :
    (p.note key { p.books key with due := d }).Shows key { v with due := d } ∧
      Beside p (p.note key { p.books key with due := d }) key := by
  have hbooks := books_note p key { p.books key with due := d }
  refine ⟨⟨?_, ?_, ?_, ?_⟩, beside_note rfl⟩
  · show Refers _ key v.lock
    rcases h.cases with ⟨hlock, -, hvacant⟩ | ⟨m, hlock, hstands⟩ <;> rw [hlock]
    · refine ⟨?_, ?_, ?_⟩ <;> rw [hbooks]
      · exact hvacant.entry
      · exact hvacant.entered
      · exact hvacant.seat
    · refine ⟨m, hstands.made, ?_, ?_, ?_, ?_⟩ <;> rw [hbooks]
      · exact hstands.entry
      · exact hstands.lock
      · exact hstands.entered
      · exact hstands.seat
  · rw [hbooks]
    exact h.entered
  · rw [hbooks]
    exact h.arrivals
  · rw [hbooks]

/-- A sweep takes a lock without further references out of the table. -/
theorem Shows.cleared (h : p.Shows key v) (hm : p.Stands key v.line m)
    (hnobody : v.line.claimants = []) (hnone : v.entered = 0) (f : SharedLock → SharedLock)
    (d : Nat) :
    ((p.touch m f).note key { p.books key with entry := none, due := d }).Shows key
        { v with lock := none, due := d } ∧
      Beside p ((p.touch m f).note key { p.books key with entry := none, due := d }) key := by
  have hbooks := books_note (p.touch m f) key { p.books key with entry := none, due := d }
  refine ⟨⟨⟨?_, ?_, fun n => ?_⟩, ?_, ?_, ?_⟩, beside_touch_note hm.entry f (.inr rfl)⟩ <;>
    rw [hbooks]
  · exact List.length_eq_zero_iff.1 (h.entered.trans hnone)
  · exact (hm.seat n).trans (if_neg (hnobody ▸ List.not_mem_nil))
  · exact h.entered
  · exact h.arrivals

theorem Shows.sweep (h : p.Shows key v) :
    (p.sweep key).Shows key (LockStep.on .sweep v) ∧ Beside p (p.sweep key) key := by
  by_cases hdue : v.due = 0
  · have heq : p.sweep key = p := if_pos (h.due.trans hdue)
    rw [heq, LockStep.on, if_pos hdue]
    exact ⟨h, Beside.refl p key⟩
  · rw [LockStep.on, if_neg hdue]
    rcases h.cases with ⟨hlock, -, hvacant⟩ | ⟨m, hlock, hstands⟩
    · have heq : p.sweep key = p.note key { p.books key with due := v.due - 1 } := by
        unfold LockPool.sweep
        simp only [hdue, hvacant.entry, h.due, if_false]
      rw [heq, hlock, ite_self, ← hlock]
      exact h.looked (v.due - 1)
    · have hreferences :
          (p.locks m).references = 1 ↔ v.line.claimants = [] ∧ v.entered = 0 := by
        rw [hstands.lock, h.entered, ← List.length_eq_zero_iff]
        show _ + _ + 1 = 1 ↔ _
        omega
      by_cases hidle : v.line.claimants = [] ∧ v.entered = 0
      · have heq : p.sweep key = (p.touch m fun s => { s with references := 0 }).note key
            { p.books key with entry := none, due := v.due - 1 } := by
          unfold LockPool.sweep
          simp only [hdue, hstands.entry, hreferences.2 hidle, h.due, if_false, if_true]
        rw [heq, if_pos hidle]
        exact h.cleared hstands hidle.1 hidle.2 _ (v.due - 1)
      · have heq : p.sweep key = p.note key { p.books key with due := v.due - 1 } := by
          unfold LockPool.sweep
          simp only [hdue, hstands.entry, mt hreferences.1 hidle, h.due, if_false]
        rw [heq, if_neg hidle]
        exact h.looked (v.due - 1)

/-- A step changes its key as `LockStep.on` changes the view, and changes nothing about other
keys. -/
theorem Shows.take (h : p.Shows key v) (horderly : v.line.Orderly v.arrivals) (c : LockStep) :
    (p.take key c).Shows key (c.on v) ∧ Beside p (p.take key c) key := by
  cases c with
  | enter => exact h.enter
  | ask i => exact h.ask horderly i
  | poll n => exact h.poll n
  | unlock n => exact h.unlock horderly n
  | sweep => exact h.sweep
  | abandon n => exact h.abandon horderly n

/-! ## Runs -/

/-- The pool has of every key what the key is by itself, and no lock stands under two keys. -/
structure Follows (p : LockPool κ) (w : κ → KeyView) : Prop where
  shows : ∀ key, p.Shows key (w key)
  orderly : ∀ key, (w key).line.Orderly (w key).arrivals
  apart : ∀ key other m, (p.books key).entry = some m → (p.books other).entry = some m → key = other

variable {w : κ → KeyView}

omit [DecidableEq κ] in
/-- The locks of different keys stay different: a lock that is new stands nowhere else. -/
theorem Follows.apart_beside (h : Follows p w) (hbeside : Beside p q key) (a b : κ) (m : Nat)
    (ha : (q.books a).entry = some m) (hb : (q.books b).entry = some m) : a = b := by
  have hkey : ∀ other ≠ key, (q.books key).entry = some m → (q.books other).entry ≠ some m := by
    intro other hother hm hm'
    rw [hbeside.books other hother] at hm'
    rcases hbeside.placed m hm with hm | hnew
    · exact hother (h.apart other key m hm' hm)
    · exact Nat.not_lt.2 hnew ((h.shows other).stands hm').2.made
  by_cases ha' : a = key
  · subst ha'
    by_contra hne
    exact hkey b (Ne.symm hne) ha hb
  · by_cases hb' : b = key
    · subst hb'
      exact absurd ha (hkey a ha' hb)
    · rw [hbeside.books a ha'] at ha
      rw [hbeside.books b hb'] at hb
      exact h.apart a b m ha hb

theorem Follows.take (h : Follows p w) (key : κ) (c : LockStep) :
    Follows (p.take key c) (update w key (c.on (w key))) := by
  obtain ⟨hshows, hbeside⟩ := (h.shows key).take (h.orderly key) c
  refine ⟨fun other => ?_, fun other => ?_, h.apart_beside hbeside⟩ <;>
    by_cases hother : other = key
  · subst hother
    rw [Function.update_self]
    exact hshows
  · rw [Function.update_of_ne hother]
    exact (h.shows other).frame hbeside hother fun m hm hm' => hother (h.apart other key m hm hm')
  · subst hother
    rw [Function.update_self]
    exact KeyView.orderly_on (h.orderly other) c
  · rw [Function.update_of_ne hother]
    exact h.orderly other

omit [DecidableEq κ] in
theorem follows_empty : Follows (empty : LockPool κ) fun _ => .new :=
  ⟨fun _ => ⟨⟨rfl, rfl, fun _ => rfl⟩, rfl, rfl, rfl⟩, fun _ => Lock.orderly_free 0, nofun⟩

theorem follows_after (steps : List (κ × LockStep)) :
    Follows (after steps) (KeyView.after steps) := by
  induction steps using List.reverseRecOn with
  | nil => exact follows_empty
  | append_singleton steps c ih =>
    rw [after_concat, KeyView.after_concat]
    exact ih.take c.1 c.2

end CloudRoster.Cache.LockPool
