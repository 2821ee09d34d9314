import CloudRoster.Cache.LockTable

/-!
# Holders and queues of a lock table

`LockTable.Tracks` follows a lock table by two functions: the key that a claimant holds, and the key
that a claimant waits for. As long as no claimant calls `leave` for a key that it was handed, the
table says nothing more than these two and the order of the queues. Each of `ask`, `pickUp`,
`release` and `leave` assigns the functions anew for one claimant.
-/

namespace CloudRoster.Cache

namespace Lock

variable {ι : Type}

/-- The lock with a holder and a queue. Without a holder the key is handed to the head of the
queue. -/
def of : Option ι → List ι → Option (Lock ι)
  | some i, queue => some ⟨some (.held i), queue⟩
  | none, queue => next queue

end Lock

namespace LockTable

variable {κ ι : Type} [DecidableEq κ] [DecidableEq ι]

/-- The function with another value for one claimant. -/
def assign (f : ι → Option κ) (i : ι) (x : Option κ) : ι → Option κ :=
  fun j => if j = i then x else f j

omit [DecidableEq κ] in
@[simp] theorem assign_self (f : ι → Option κ) (i : ι) (x : Option κ) : assign f i x i = x :=
  if_pos rfl

omit [DecidableEq κ] in
theorem assign_of_ne (f : ι → Option κ) {i j : ι} (h : j ≠ i) (x : Option κ) :
    assign f i x j = f j := if_neg h

/-- The table has for every key the claimant that holds it and those that wait for it. -/
def Tracks (t : LockTable κ ι) (hold pend : ι → Option κ) : Prop :=
  ∀ key, ∃ holder queue, t.find? key = Lock.of holder queue ∧ queue.Nodup ∧
    (∀ i, holder = some i ↔ hold i = some key) ∧ ∀ i, i ∈ queue ↔ pend i = some key

variable {t : LockTable κ ι} {hold pend : ι → Option κ} {key : κ} {i : ι}

omit [DecidableEq ι] in
theorem tracks_empty : Tracks (empty : LockTable κ ι) (fun _ => none) fun _ => none :=
  fun _ => ⟨none, [], rfl, List.nodup_nil, by simp, by simp⟩

omit [DecidableEq ι] in
/-- A `put` at one key, with the functions assigned for claimants of that key, keeps `Tracks`. -/
theorem Tracks.put (h : Tracks t hold pend) {hold' pend' : ι → Option κ} {holder : Option ι}
    {queue : List ι} (hnodup : queue.Nodup) (hholder : ∀ i, holder = some i ↔ hold' i = some key)
    (hqueue : ∀ i, i ∈ queue ↔ pend' i = some key)
    (hothers : ∀ other, other ≠ key → ∀ i, (hold' i = some other ↔ hold i = some other) ∧
      (pend' i = some other ↔ pend i = some other)) :
    Tracks (t.put key (Lock.of holder queue)) hold' pend' := by
  intro other
  by_cases hother : other = key
  · subst hother
    exact ⟨holder, queue, find?_put_self t other _, hnodup, hholder, hqueue⟩
  · obtain ⟨holder', queue', hfind, hnodup', hholder', hqueue'⟩ := h other
    refine ⟨holder', queue', (find?_put_of_ne t hother _).trans hfind, hnodup', ?_, ?_⟩
    · intro i
      rw [hholder' i, (hothers other hother i).1]
    · intro i
      rw [hqueue' i, (hothers other hother i).2]

omit [DecidableEq κ] in
/-- Assigning a key to a claimant that had none, or this one, changes nothing about other keys. -/
theorem assign_eq_iff {f : ι → Option κ} {x : Option κ} (hf : f i = none ∨ f i = some key)
    (hx : x = none ∨ x = some key) {other : κ} (hother : other ≠ key) (j : ι) :
    assign f i x j = some other ↔ f j = some other := by
  by_cases hj : j = i
  · subst hj
    rw [assign_self]
    constructor
    · rintro rfl
      rcases hx with hx | hx
      · cases hx
      · exact absurd (Option.some.inj hx) hother
    · intro hj
      rw [hj] at hf
      rcases hf with hf | hf
      · cases hf
      · exact absurd (Option.some.inj hf) hother
  · rw [assign_of_ne f hj]

omit [DecidableEq ι] in
/-- No two claimants hold the same key. -/
theorem Tracks.holder_unique (h : Tracks t hold pend) {j : ι} (hi : hold i = some key)
    (hj : hold j = some key) : i = j := by
  obtain ⟨holder, queue, -, -, hholder, -⟩ := h key
  have hi' := (hholder i).2 hi
  have hj' := (hholder j).2 hj
  rw [hi'] at hj'
  exact Option.some.inj hj'

/-- After `ask` the claimant holds the key, or waits for it. -/
theorem Tracks.ask (h : Tracks t hold pend) (hhold : hold i = none) (hpend : pend i = none)
    (key : κ) :
    ((t.ask key i).2 = true ∧ (∀ j, hold j ≠ some key) ∧
      Tracks (t.ask key i).1 (assign hold i (some key)) pend) ∨
    ((t.ask key i).2 = false ∧ Tracks (t.ask key i).1 hold (assign pend i (some key))) := by
  obtain ⟨holder, queue, hfind, hnodup, hholder, hqueue⟩ := h key
  -- who waits for nothing is in no queue, so its place at the end is its only one
  have hnotin : i ∉ queue := fun hin => by
    rw [hqueue, hpend] at hin
    cases hin
  have happend : ∀ j, j ∈ queue ++ [i] ↔ assign pend i (some key) j = some key := by
    intro j
    rw [List.mem_append, List.mem_singleton]
    by_cases hj : j = i
    · simp [hj]
    · rw [assign_of_ne pend hj, ← hqueue]
      simp [hj]
  have hnodup' : (queue ++ [i]).Nodup := by
    rw [List.nodup_append]
    refine ⟨hnodup, by simp, ?_⟩
    intro a ha b hb hab
    rw [hab, List.mem_singleton.1 hb] at ha
    exact hnotin ha
  have hothers : ∀ other, other ≠ key → ∀ j, (hold j = some other ↔ hold j = some other) ∧
      (assign pend i (some key) j = some other ↔ pend j = some other) :=
    fun other hother j => ⟨Iff.rfl, assign_eq_iff (.inl hpend) (.inr rfl) hother j⟩
  cases holder with
  | some k =>
    right
    have hask : t.ask key i = (t.put key (Lock.of (some k) (queue ++ [i])), false) := by
      unfold LockTable.ask
      rw [hfind]
      rfl
    rw [hask]
    exact ⟨rfl, h.put hnodup' hholder happend hothers⟩
  | none =>
    have hnobody : ∀ j, hold j ≠ some key := fun j hj => by
      have := (hholder j).2 hj
      cases this
    cases queue with
    | cons k rest =>
      right
      have hask : t.ask key i = (t.put key (Lock.of none ((k :: rest) ++ [i])), false) := by
        unfold LockTable.ask
        rw [hfind]
        rfl
      rw [hask]
      exact ⟨rfl, h.put hnodup' hholder happend hothers⟩
    | nil =>
      left
      have hask : t.ask key i = (t.put key (Lock.of (some i) []), true) := by
        unfold LockTable.ask
        rw [hfind]
        rfl
      rw [hask]
      refine ⟨rfl, hnobody, h.put List.nodup_nil ?_ hqueue ?_⟩
      · intro j
        by_cases hj : j = i
        · simp [hj]
        · rw [assign_of_ne hold hj, iff_false_right (hnobody j)]
          exact fun e => hj (Option.some.inj e).symm
      · exact fun other hother j => ⟨assign_eq_iff (.inl hhold) (.inr rfl) hother j, Iff.rfl⟩

/-- `isHanded` is true of the head of the queue of a key without holder. -/
theorem Tracks.isHanded_iff {holder : Option ι} {queue : List ι}
    (hfind : t.find? key = Lock.of holder queue) :
    t.isHanded key i = true ↔ holder = none ∧ ∃ rest, queue = i :: rest := by
  unfold isHanded
  rw [hfind]
  cases holder with
  | some k => simp [Lock.of]
  | none =>
    cases queue with
    | nil => simp [Lock.of, Lock.next]
    | cons k rest => simp [Lock.of, Lock.next]

/-- `isHanded` is true of one claimant of a key at a time. -/
theorem isHanded_unique {j : ι} (hi : t.isHanded key i = true) (hj : t.isHanded key j = true) :
    i = j := by
  unfold isHanded at hi hj
  cases hfind : t.find? key with
  | none =>
    rw [hfind] at hi
    cases hi
  | some l =>
    rw [hfind, Option.any_some, decide_eq_true_eq] at hi hj
    rw [hi] at hj
    exact Tenure.handed.inj (Option.some.inj hj)

/-- After `pickUp` a claimant that was handed a key holds it and waits for it no more. -/
theorem Tracks.pickUp (h : Tracks t hold pend) (hhold : hold i = none)
    (hhanded : t.isHanded key i = true) :
    pend i = some key ∧ (∀ j, hold j ≠ some key) ∧
      Tracks (t.pickUp key i) (assign hold i (some key)) (assign pend i none) := by
  obtain ⟨holder, queue, hfind, hnodup, hholder, hqueue⟩ := h key
  obtain ⟨rfl, rest, rfl⟩ := (isHanded_iff hfind).1 hhanded
  have hpend : pend i = some key := (hqueue i).1 List.mem_cons_self
  -- a key that was handed over has no holder yet
  have hnobody : ∀ j, hold j ≠ some key := fun j hj => by
    have := (hholder j).2 hj
    cases this
  obtain ⟨hnotin, hrest⟩ := List.nodup_cons.1 hnodup
  have hpick : t.pickUp key i = t.put key (Lock.of (some i) rest) := by
    unfold LockTable.pickUp
    rw [hfind]
    show (if i = i then _ else _) = _
    rw [if_pos rfl]
    rfl
  refine ⟨hpend, hnobody, ?_⟩
  rw [hpick]
  refine h.put hrest ?_ ?_ ?_
  · intro j
    by_cases hj : j = i
    · simp [hj]
    · rw [assign_of_ne hold hj, iff_false_right (hnobody j)]
      exact fun e => hj (Option.some.inj e).symm
  · intro j
    by_cases hj : j = i
    · subst hj
      simp [hnotin]
    · rw [assign_of_ne pend hj, ← hqueue, List.mem_cons]
      simp [hj]
  · exact fun other hother j => ⟨assign_eq_iff (.inl hhold) (.inr rfl) hother j,
      assign_eq_iff (.inr hpend) (.inl rfl) hother j⟩

/-- After `release` by its holder a key has no holder, and is handed to the head of its queue. -/
theorem Tracks.release (h : Tracks t hold pend) (hhold : hold i = some key) :
    Tracks (t.release key i) (assign hold i none) pend := by
  obtain ⟨holder, queue, hfind, hnodup, hholder, hqueue⟩ := h key
  have hi : holder = some i := (hholder i).2 hhold
  subst hi
  have hrelease : t.release key i = t.put key (Lock.of none queue) := by
    unfold LockTable.release
    rw [hfind]
    show (if i = i then _ else _) = _
    rw [if_pos rfl]
    rfl
  rw [hrelease]
  refine h.put hnodup ?_ hqueue ?_
  · intro j
    by_cases hj : j = i
    · simp [hj]
    · rw [assign_of_ne hold hj, ← hholder]
      simp only [reduceCtorEq, Option.some.injEq, false_iff]
      exact fun e => hj e.symm
  · exact fun other hother j => ⟨assign_eq_iff (.inr hhold) (.inl rfl) hother j, Iff.rfl⟩

/-- After `leave` a claimant that waited for a key waits no more. Another claimant holds the key or
was handed it. -/
theorem Tracks.leave (h : Tracks t hold pend) (hhold : hold i = none) (hpend : pend i = some key)
    (hhanded : t.isHanded key i = false) :
    Tracks (t.leave key i) hold (assign pend i none) ∧
      ∃ j, j ≠ i ∧ (hold j = some key ∨ (pend j = some key ∧ t.isHanded key j = true)) := by
  obtain ⟨holder, queue, hfind, hnodup, hholder, hqueue⟩ := h key
  have hin : i ∈ queue := (hqueue i).2 hpend
  have hmem : ∀ j, j ∈ queue.erase i ↔ assign pend i none j = some key := by
    intro j
    rw [hnodup.mem_erase_iff]
    by_cases hj : j = i
    · simp [hj]
    · rw [assign_of_ne pend hj, ← hqueue]
      simp [hj]
  have hothers : ∀ other, other ≠ key → ∀ j, (hold j = some other ↔ hold j = some other) ∧
      (assign pend i none j = some other ↔ pend j = some other) :=
    fun other hother j => ⟨Iff.rfl, assign_eq_iff (.inr hpend) (.inl rfl) hother j⟩
  cases holder with
  | some k =>
    have hleave : t.leave key i = t.put key (Lock.of (some k) (queue.erase i)) := by
      unfold LockTable.leave
      rw [hfind]
      rfl
    rw [hleave]
    refine ⟨h.put (hnodup.erase i) hholder hmem hothers, ?_⟩
    have hk : hold k = some key := (hholder k).1 rfl
    refine ⟨k, ?_, .inl hk⟩
    rintro rfl
    rw [hhold] at hk
    cases hk
  | none =>
    cases queue with
    | nil => cases hin
    | cons k rest =>
      -- the first of the queue was handed the key, which is not so for the one who leaves
      have hk : k ≠ i := by
        rintro rfl
        rw [(isHanded_iff hfind).2 ⟨rfl, rest, rfl⟩] at hhanded
        cases hhanded
      have hleave : t.leave key i = t.put key (Lock.of none ((k :: rest).erase i)) := by
        unfold LockTable.leave
        rw [hfind]
        show (if i = k then _ else _) = _
        rw [if_neg (Ne.symm hk), List.erase_cons_tail (by simpa using hk)]
        rfl
      rw [hleave]
      refine ⟨h.put (hnodup.erase i) hholder hmem hothers, k, hk, .inr ⟨?_, ?_⟩⟩
      · exact (hqueue k).1 List.mem_cons_self
      · exact (isHanded_iff hfind).2 ⟨rfl, rest, rfl⟩

end LockTable

end CloudRoster.Cache
