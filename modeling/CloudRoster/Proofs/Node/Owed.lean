import CloudRoster.Proofs.Node.Claims
import CloudRoster.Proofs.Node.Journal
import CloudRoster.Proofs.Node.Rounds
import CloudRoster.Proofs.Node.Stores
import CloudRoster.Proofs.Storage.Filing

/-!
# What is owed to a store

An operation that has committed a change owes it to the store of the node until the store has been
told. What is owed is read off the phases. A step commits at most one change, which is owed from
then on, or tells a store of at most one change, which was owed; everything else that an operation
owes it still owes afterwards, however its rounds end. So the last that a store was told about a
value is the last change of the value that was committed, unless a change of it is owed.
-/

namespace CloudRoster

open Storage (Order Store lastAbout lastAbout_concat)

/-! ## What operations owe -/

/-- The round waits for a visit that owes the store of a node a change. -/
def Awaited.Owes (i : Nat) (c : Change) : Awaited → Prop
  | .outside => False
  | .visit v _ _ => v.stage = .committed ∧ v.node = i ∧ v.change = c

/-- The operation has committed a change on a node, and the store there was not told of it yet. -/
def Operation.Owes (o : Operation) (i : Nat) (c : Change) : Prop :=
  match o.phase with
  | .round c' r => (o.node = i ∧ c' = c) ∨ r.awaited.Owes i c
  | .storing c' _ => o.node = i ∧ c' = c
  | _ => False

/-- An operation that is over owes nothing. -/
theorem Operation.not_owes_of_isOver {o : Operation} (h : o.phase.isOver = true) (i : Nat)
    (c : Change) : ¬ o.Owes i c := by
  unfold Owes
  cases hphase : o.phase with
  | ended | abandoned => exact id
  | _ =>
    rw [hphase] at h
    cases h

/-! ## Managed changes -/

/-- A change is managed if it is of a kind and on a node. -/
def Change.KeptAt (i : Nat) (k : Kind) (node : Nat) (c : Change) : Prop :=
  node = i → c.kind = k → c.managed = true

/-- The change that a visit is to make is managed. -/
def Awaited.Managed : Awaited → Prop
  | .outside => True
  | .visit v _ _ => v.change.managed = true

namespace Operation

/-- What an operation changes of a kind on a node is a managed change. -/
def Orderly (i : Nat) (k : Kind) (o : Operation) : Prop :=
  match o.phase with
  | .fresh => ∀ c, o.task = .change c → c.KeptAt i k o.node
  | .waiting c => c.KeptAt i k o.node
  | .round c r => c.KeptAt i k o.node ∧ r.awaited.Managed
  | .storing c result => (c.managed && Node.keptLocally result) = true
  | .ended _ | .abandoned => True

end Operation

namespace Journal

/-- The changes about something that were committed on a node, oldest first. -/
def commitsAbout (i : Nat) (s : (k : Kind) × k.Key) (j : Journal) : List Change :=
  j.filterMap fun
    | .committed site _ c => if site.1 = i ∧ c.subject = s then some c else none
    | _ => none

/-- The last change about something that was committed on a node. -/
def latest (i : Nat) (s : (k : Kind) × k.Key) (j : Journal) : Option Change :=
  (j.commitsAbout i s).getLast?

variable {i : Nat} {s : (k : Kind) × k.Key} {j : Journal}

theorem subject_of_latest {c : Change} (h : j.latest i s = some c) : c.subject = s := by
  obtain ⟨x, -, hx⟩ := List.mem_filterMap.1 (List.mem_of_getLast? h)
  cases x with
  | committed site who c' =>
    obtain ⟨⟨-, hs⟩, heq⟩ := Option.ite_none_right_eq_some.1 hx
    cases heq
    exact hs
  | _ => cases hx

theorem latest_asked {site : Site} {who : Claimant} :
    Journal.latest i s (j ++ [.asked site who]) = j.latest i s := by
  simp [latest, commitsAbout]

theorem latest_handed {site : Site} {id : Nat} {u : CacheUpdate} :
    Journal.latest i s (j ++ [.handed site id u]) = j.latest i s := by
  simp [latest, commitsAbout]

theorem latest_committed (site : Site) (who : Claimant) (c : Change) :
    Journal.latest i s (j ++ [.committed site who c]) =
      if site.1 = i ∧ c.subject = s then some c else j.latest i s := by
  unfold latest commitsAbout
  rw [List.filterMap_append]
  by_cases h : site.1 = i ∧ c.subject = s
  · simp [h]
  · simp [h]

end Journal

/-! ## What a step leaves alone -/

/-- The store of a kind on a node. -/
def Traffic.storeAt (t : Traffic) (i : Nat) (k : Kind) : Option Store :=
  (t.world[i]?).bind (·.store? k)

/-- The store of a kind on a node, the operations and the last commits are the same. -/
structure SameBooks (i : Nat) (k : Kind) (t u : Traffic) : Prop where
  operations : u.operations = t.operations
  store : u.storeAt i k = t.storeAt i k
  latest : ∀ i s, Journal.latest i s u.journal = Journal.latest i s t.journal

/-- A change was committed on a node, and nothing else happened. -/
structure Commits (i : Nat) (k : Kind) (node : Nat) (c : Change) (t u : Traffic) : Prop where
  operations : u.operations = t.operations
  store : u.storeAt i k = t.storeAt i k
  latest : ∀ i s, Journal.latest i s u.journal =
    if node = i ∧ c.subject = s then some c else Journal.latest i s t.journal

/-- The stores of a node were told of a change, and nothing else happened. -/
structure Tells (i : Nat) (k : Kind) (node : Nat) (c : Change) (t u : Traffic) : Prop where
  operations : u.operations = t.operations
  store : u.storeAt i k = if node = i ∧ k = c.kind
    then (t.storeAt i k).map fun s => (Node.heed s c).1 else t.storeAt i k
  latest : ∀ i s, Journal.latest i s u.journal = Journal.latest i s t.journal

section

variable {i : Nat} {k : Kind} {t u v : Traffic} {c : Change}

theorem SameBooks.refl (t : Traffic) : SameBooks i k t t := ⟨rfl, rfl, fun _ _ => rfl⟩

theorem SameBooks.trans (h : SameBooks i k t u) (h' : SameBooks i k u v) : SameBooks i k t v :=
  ⟨h'.operations.trans h.operations, h'.store.trans h.store,
    fun i s => (h'.latest i s).trans (h.latest i s)⟩

theorem Commits.trans {node : Nat} (h : Commits i k node c t u) (h' : SameBooks i k u v) :
    Commits i k node c t v :=
  ⟨h'.operations.trans h.operations, h'.store.trans h.store,
    fun i s => (h'.latest i s).trans (h.latest i s)⟩

theorem Tells.trans {node : Nat} (h : Tells i k node c t u) (h' : SameBooks i k u v) :
    Tells i k node c t v :=
  ⟨h'.operations.trans h.operations, h'.store.trans h.store,
    fun i s => (h'.latest i s).trans (h.latest i s)⟩

/-- Changes of the locks alone keep `SameBooks`. -/
theorem sameBooks_locks (t : Traffic) (locks : Cache.LockTable Site Claimant) :
    SameBooks i k t { t with locks := locks } := ⟨rfl, rfl, fun _ _ => rfl⟩

theorem sameBooks_claim (t : Traffic) (site : Site) (who : Claimant) :
    SameBooks i k t (t.claim site who).1 :=
  ⟨rfl, rfl, fun _ _ => Journal.latest_asked⟩

theorem storeAt_setNode {j : Nat} {n : Node} (hn : t.world[j]? = some n) (n' : Node) :
    (t.setNode j n').storeAt i k = if j = i then n'.store? k else t.storeAt i k := by
  show ((t.world.update j n')[i]?).bind (·.store? k) = _
  by_cases hj : j = i
  · subst hj
    rw [World.getElem?_update_self hn, if_pos rfl]
    rfl
  · rw [World.getElem?_update_of_ne _ (Ne.symm hj), if_neg hj]
    rfl

theorem storeAt_of_node {n : Node} (hn : t.world[i]? = some n) : t.storeAt i k = n.store? k := by
  unfold Traffic.storeAt
  rw [hn]
  rfl

/-- Handing out a message. -/
theorem sameBooks_hand {j : Nat} {n : Node} (hn : t.world[j]? = some n) (m : Message) (site : Site)
    (id : Nat) (message : CacheUpdate) :
    SameBooks i k t ((t.setNode j (n.hand m)).note (.handed site id message)) := by
  refine ⟨rfl, ?_, fun _ _ => Journal.latest_handed⟩
  show (t.setNode j (n.hand m)).storeAt i k = _
  rw [storeAt_setNode hn]
  split
  · subst j
    rw [storeAt_of_node hn]
    cases k <;> rfl
  · rfl

theorem commits_of_commit {j : Nat} {n n' : Node} {outbox : List CacheUpdate}
    (hn : t.world[j]? = some n) (hcommit : n.commit c = .ok (n', outbox)) (who : Claimant) :
    Commits i k j c t ((t.setNode j n').note (.committed (j, c.subject) who c)) := by
  refine ⟨rfl, ?_, fun _ _ => Journal.latest_committed ..⟩
  show (t.setNode j n').storeAt i k = _
  rw [storeAt_setNode hn]
  split
  · subst j
    obtain ⟨-, commit, -, rfl, -⟩ := Node.commit_cases hcommit
    rw [storeAt_of_node hn]
    cases k <;> rfl
  · rfl

theorem tells_of_persist {j : Nat} {n : Node} (hn : t.world[j]? = some n)
    {result : Except SyncError Unit} (htold : (c.managed && Node.keptLocally result) = true) :
    Tells i k j c t (t.setNode j (n.persist c result).1) := by
  refine ⟨rfl, ?_, fun _ _ => rfl⟩
  rw [storeAt_setNode hn]
  by_cases hj : j = i
  · subst hj
    rw [if_pos rfl, storeAt_of_node hn, Node.store?_persist]
    simp only [htold, and_true, true_and]
  · rw [if_neg hj, if_neg fun h => hj h.1]

end

/-! ## Where functions of a step end -/

/-- An operation goes on from the rounds of a change, and still owes it. -/
def GoesOwing (i : Nat) (k : Kind) (id : Nat) (o : Operation) (c : Change) (t t' : Traffic) :
    Prop :=
  ∃ u p, t' = u.enter id p ∧ SameBooks i k t u ∧ ({ o with phase := p }).Orderly i k ∧
    (o.node = i → c.kind = k → ({ o with phase := p }).Owes i c)

section Rounds

variable {i : Nat} {k : Kind} {id : Nat} {o : Operation} {c : Change} {t u : Traffic}

theorem GoesOwing.of_same (h : SameBooks i k t u) {t' : Traffic}
    (hgoes : GoesOwing i k id o c u t') : GoesOwing i k id o c t t' := by
  obtain ⟨v, p, rfl, hbooks, hrest⟩ := hgoes
  exact ⟨v, p, rfl, h.trans hbooks, hrest⟩

/-- A store that a node has is told of a managed change that the lists kept. -/
theorem isSome_storeFor? (hstore : (t.storeAt i k).isSome) (hi : o.node = i) (hk : c.kind = k)
    (hmanaged : c.managed = true) {result : Except SyncError Unit}
    (hresult : Node.keptLocally result = true) :
    ((t.world[o.node]?).bind (·.storeFor? c result)).isSome := by
  subst hi hk
  have hfor : ∀ n : Node, n.storeFor? c result = n.store? c.kind := by
    intro n
    unfold Node.storeFor?
    rw [hmanaged, hresult]
    rfl
  simp only [hfor]
  exact hstore

/-- After the last round of a managed change `Traffic.conclude` waits for the store. -/
theorem goesOwing_conclude (hkept : c.KeptAt i k o.node) (hstore : (t.storeAt i k).isSome)
    {result : Except SyncError Unit} (hresult : Node.keptLocally result = true) :
    GoesOwing i k id o c t (t.conclude id o c result) := by
  unfold Traffic.conclude
  split
  · rename_i hfor
    refine ⟨t, _, rfl, .refl t, ?_, fun hi _ => ⟨hi, rfl⟩⟩
    show (c.managed && Node.keptLocally result) = true
    obtain ⟨s, hs⟩ := Option.isSome_iff_exists.1 hfor
    obtain ⟨n, -, hn⟩ := Option.bind_eq_some_iff.1 hs
    exact (Option.ite_none_right_eq_some.1 hn).1
  · rename_i hfor
    exact ⟨_, _, rfl, sameBooks_locks t _, trivial, fun hi hk =>
      absurd (isSome_storeFor? hstore hi hk (hkept hi hk) hresult) hfor⟩

/-- What a message asks of a node is a managed change. -/
theorem managed_of_arrival {n : Node} {m : Message} (h : n.arrival m = .change c) :
    c.managed = true := by
  unfold Node.arrival at h
  cases m with
  | cacheUpdate u =>
    simp only at h
    split at h
    · cases h
    · rename_i asked hasked
      cases h
      unfold Node.requestedChange at hasked
      split at hasked
      · cases hasked
      · rename_i list _
        cases hdecode : ValueTypes.all.decode u.valueType u.jsonData with
        | error e =>
          rw [hdecode] at hasked
          cases hasked
        | ok decoded =>
          simp only [hdecode, bind, Except.bind] at hasked
          split at hasked
          · cases hasked
            rfl
          · cases hasked
    · cases h
  | _ => cases h

/-- `Traffic.visitAll` only ever waits for a managed change. -/
theorem managed_of_visitAll {m : Message} {peers : List (String × Nat)} {r : Report} {a : Awaited}
    (h : t.visitAll m peers r = .inr a) : a.Managed := by
  induction peers generalizing r with
  | nil => cases h
  | cons peer peers ih =>
    unfold Traffic.visitAll at h
    split at h
    · exact ih h
    · rename_i v hvisit
      cases h
      show v.change.managed = true
      unfold Traffic.visit at hvisit
      split at hvisit
      · cases hvisit
      · split at hvisit
        · cases hvisit
        · cases hvisit
          exact managed_of_arrival ‹_›

/-- A report never tells of a value that cannot be written. -/
theorem keptLocally_result (r : Report) : Node.keptLocally r.result = true := by
  unfold Report.result
  split <;> rfl

theorem keptLocally_outcome {outcome : Except SyncError Report}
    (h : ∀ reason, outcome ≠ .error (.serialization reason)) :
    Node.keptLocally (outcome.bind Report.result) = true := by
  cases outcome with
  | ok r => exact keptLocally_result r
  | error e =>
    refine Node.keptLocally_of_written fun reason heq => h reason ?_
    cases heq
    rfl

/-- What may come of handing out a message: no outcome hides that the lists kept the change, and
whatever is waited for is a managed change. -/
def Sends (i : Nat) (k : Kind) (t : Traffic) (x : Traffic × (Except SyncError Report ⊕ Awaited)) :
    Prop :=
  SameBooks i k t x.1 ∧
    x.2.elim (fun outcome => Node.keptLocally (outcome.bind Report.result) = true) Awaited.Managed

theorem sends_sendOne (t : Traffic) (id : Nat) (o : Operation) (c : Change) (m : CacheUpdate) :
    Sends i k t (t.sendOne id o c m) := by
  unfold Traffic.sendOne
  cases hn : t.world[o.node]? with
  | none => exact ⟨.refl t, rfl⟩
  | some n =>
    have hhand := sameBooks_hand (i := i) (k := k) hn (.cacheUpdate m) (o.node, c.subject) id m
    simp only
    cases n.broadcaster with
    | none => exact ⟨hhand, rfl⟩
    | recording peers failing cleared => exact ⟨hhand, keptLocally_result _⟩
    | external peers answer => exact ⟨hhand, trivial⟩
    | loopback peers =>
      simp only
      split
      · exact ⟨hhand, keptLocally_result _⟩
      · exact ⟨hhand, managed_of_visitAll ‹_›⟩

theorem goesOwing_sendAll (hkept : c.KeptAt i k o.node) (outbox : List CacheUpdate) {t : Traffic}
    (hstore : (t.storeAt i k).isSome) :
    GoesOwing i k id o c t (Traffic.sendAll id o c t outbox) := by
  induction outbox generalizing t with
  | nil => exact goesOwing_conclude hkept hstore rfl
  | cons m later ih =>
    obtain ⟨hbooks, hsent⟩ := sends_sendOne (i := i) (k := k) t id o c m
    unfold Traffic.sendAll
    cases hsend : t.sendOne id o c m with
    | mk u outcome =>
      rw [hsend] at hbooks hsent
      have hstore' : (u.storeAt i k).isSome := hbooks.store ▸ hstore
      refine .of_same hbooks ?_
      cases outcome with
      | inl outcome =>
        have hresult : Node.keptLocally (outcome.bind Report.result) = true := hsent
        simp only
        split
        · exact ih hstore'
        · rename_i e he
          rw [he] at hresult
          exact goesOwing_conclude hkept hstore' hresult
      | inr a =>
        exact ⟨u, .round c ⟨m, u.deadline o.node, a, later⟩, rfl, .refl u, ⟨hkept, hsent⟩,
          fun hi _ => .inl ⟨hi, rfl⟩⟩

theorem goesOwing_afterRound (hkept : c.KeptAt i k o.node) (hstore : (t.storeAt i k).isSome)
    (later : List CacheUpdate) {outcome : Except SyncError Report}
    (houtcome : ∀ reason, outcome ≠ .error (.serialization reason)) :
    GoesOwing i k id o c t (t.afterRound id o c later outcome) := by
  have hresult := keptLocally_outcome houtcome
  unfold Traffic.afterRound
  split
  · exact goesOwing_sendAll hkept later hstore
  · rename_i e he
    rw [he] at hresult
    exact goesOwing_conclude hkept hstore hresult

/-- The reply of a peer takes a round on. -/
theorem goesOwing_afterReply (hkept : c.KeptAt i k o.node) (hstore : (t.storeAt i k).isSome)
    (r : Round) (later : List (String × Nat)) (report : Report) (name : String) (reply : Message) :
    GoesOwing i k id o c t (t.afterVisit id o c r later report name (.inl reply)) := by
  unfold Traffic.afterVisit
  simp only
  split
  · exact goesOwing_afterRound hkept hstore r.later nofun
  · rename_i a hall
    exact ⟨t, _, rfl, .refl t, ⟨hkept, managed_of_visitAll hall⟩, fun hi _ => .inl ⟨hi, rfl⟩⟩

end Rounds

/-! ## What a step does to the books -/

/-- What a step of an operation comes to: it owes what it owed before, and one change more that it
has committed, or one less that a store was told of. -/
inductive Turnover (i : Nat) (k : Kind) (id : Nat) (o : Operation) (t : Traffic) : Traffic → Prop
  | same {u : Traffic} {p : Phase} (hbooks : SameBooks i k t u)
      (horderly : ({ o with phase := p }).Orderly i k)
      (howes : ∀ c, c.kind = k → o.Owes i c → ({ o with phase := p }).Owes i c) :
      Turnover i k id o t (u.enter id p)
  | commits {u : Traffic} {p : Phase} {node : Nat} {c : Change} (hbooks : Commits i k node c t u)
      (horderly : ({ o with phase := p }).Orderly i k)
      (howes : ∀ c, c.kind = k → o.Owes i c → ({ o with phase := p }).Owes i c)
      (hnew : node = i → c.kind = k → ({ o with phase := p }).Owes i c) :
      Turnover i k id o t (u.enter id p)
  | tells {u : Traffic} {p : Phase} {node : Nat} {c : Change} (howed : o.Owes node c)
      (hbooks : Tells i k node c t u) (horderly : ({ o with phase := p }).Orderly i k)
      (howes : ∀ c', c'.kind = k → o.Owes i c' →
        (node = i ∧ c' = c) ∨ ({ o with phase := p }).Owes i c') :
      Turnover i k id o t (u.enter id p)

section Steps

variable {i : Nat} {k : Kind} {id : Nat} {o : Operation} {c : Change} {r : Round} {t u : Traffic}

theorem SameBooks.commits (h : SameBooks i k t u) {node : Nat} {v : Traffic}
    (h' : Commits i k node c u v) : Commits i k node c t v :=
  ⟨h'.operations.trans h.operations, h'.store.trans h.store,
    fun i s => by rw [h'.latest i s, h.latest i s]⟩

theorem SameBooks.tells (h : SameBooks i k t u) {node : Nat} {v : Traffic}
    (h' : Tells i k node c u v) : Tells i k node c t v :=
  ⟨h'.operations.trans h.operations, by rw [h'.store, h.store],
    fun i s => (h'.latest i s).trans (h.latest i s)⟩

theorem Turnover.of_same (h : SameBooks i k t u) {t' : Traffic} (hturn : Turnover i k id o u t') :
    Turnover i k id o t t' := by
  cases hturn with
  | same hbooks horderly howes => exact .same (h.trans hbooks) horderly howes
  | commits hbooks horderly howes hnew => exact .commits (h.commits hbooks) horderly howes hnew
  | tells howed hbooks horderly howes => exact .tells howed (h.tells hbooks) horderly howes

/-- An operation that goes on owing a change only, if at all, turns over what it owed before, if
that was no other change. -/
theorem GoesOwing.turnover {t' : Traffic} (h : GoesOwing i k id o c t t')
    (hhome : ∀ c', o.Owes i c' → o.node = i ∧ c = c') : Turnover i k id o t t' := by
  obtain ⟨u, p, rfl, hbooks, horderly, howes⟩ := h
  refine .same hbooks horderly fun c' hkind howed => ?_
  obtain ⟨hi, rfl⟩ := hhome c' howed
  exact howes hi hkind

/-- The same after a commit: the change that was committed is owed as well. -/
theorem GoesOwing.commits {node : Nat} {c' : Change} {t' : Traffic}
    (h : GoesOwing i k id o c u t') (hbooks : Commits i k node c' t u)
    (hhome : ∀ c', o.Owes i c' → o.node = i ∧ c = c')
    (hnew : node = i → c'.kind = k → o.node = i ∧ c = c') : Turnover i k id o t t' := by
  obtain ⟨v, p, rfl, hsame, horderly, howes⟩ := h
  refine .commits (hbooks.trans hsame) horderly (fun c'' hkind howed => ?_) fun hi hk => ?_
  · obtain ⟨hi, rfl⟩ := hhome c'' howed
    exact howes hi hkind
  · obtain ⟨hhere, rfl⟩ := hnew hi hk
    exact howes hhere hk

/-- The same after a store was told: all else that was owed still is. -/
theorem GoesOwing.tells {node : Nat} {c' : Change} {t' : Traffic}
    (h : GoesOwing i k id o c u t') (hbooks : Tells i k node c' t u) (howed : o.Owes node c')
    (hhome : ∀ c'', o.Owes i c'' → (node = i ∧ c'' = c') ∨ (o.node = i ∧ c = c'')) :
    Turnover i k id o t t' := by
  obtain ⟨v, p, rfl, hsame, horderly, howes⟩ := h
  refine .tells howed (hbooks.trans hsame) horderly fun c'' hkind howed' => ?_
  refine (hhome c'' howed').imp_right fun hhere => ?_
  obtain ⟨hi, rfl⟩ := hhere
  exact howes hi hkind

/-- What an operation owes in a round whose visit has not committed anything on a node. -/
theorem Operation.owes_at_home (hphase : o.phase = .round c r) (hvisit : ∀ c, ¬ r.awaited.Owes i c)
    {c' : Change} (h : o.Owes i c') : o.node = i ∧ c = c' := by
  unfold Owes at h
  rw [hphase] at h
  exact h.resolve_right (hvisit c')

theorem turnover_carryOut (hfree : ∀ c, ¬ o.Owes i c) (hkept : c.KeptAt i k o.node)
    (hstore : (t.storeAt i k).isSome) : Turnover i k id o t (t.carryOut id o c) := by
  have hended : ∀ result, Turnover i k id o t (t.finish id o c result) := fun result =>
    .same (sameBooks_locks t _) trivial fun c' _ howed => absurd howed (hfree c')
  unfold Traffic.carryOut
  cases hn : t.world[o.node]? with
  | none => exact hended _
  | some n =>
    simp only
    cases hcommit : n.commit c with
    | error e => exact hended _
    | ok committed =>
      obtain ⟨n', outbox⟩ := committed
      have hbooks := commits_of_commit (i := i) (k := k) hn hcommit ⟨id, false⟩
      exact (goesOwing_sendAll hkept outbox (hbooks.store ▸ hstore)).commits hbooks
        (fun c' howed => absurd howed (hfree c')) fun hi _ => ⟨hi, rfl⟩

theorem turnover_request (hfree : ∀ c, ¬ o.Owes i c) (hkept : c.KeptAt i k o.node)
    (hstore : (t.storeAt i k).isSome) : Turnover i k id o t (t.request id o c) := by
  have hclaim := sameBooks_claim (i := i) (k := k) t (o.node, c.subject) ⟨id, false⟩
  unfold Traffic.request
  split
  · rename_i u hasked
    rw [hasked] at hclaim
    exact .of_same hclaim (turnover_carryOut hfree hkept (hclaim.store ▸ hstore))
  · rename_i u hasked
    rw [hasked] at hclaim
    exact .same hclaim hkept fun c' _ howed => absurd howed (hfree c')

theorem turnover_begin (hphase : o.phase = .fresh) (horderly : o.Orderly i k)
    (hstore : (t.storeAt i k).isSome) : Turnover i k id o t (t.begin id o) := by
  have hfree : ∀ c, ¬ o.Owes i c := by
    intro c howed
    unfold Operation.Owes at howed
    rw [hphase] at howed
    exact howed
  have hended : ∀ outcome, Turnover i k id o t (t.enter id (.ended outcome)) := fun outcome =>
    .same (.refl t) trivial fun c' _ howed => absurd howed (hfree c')
  unfold Operation.Orderly at horderly
  rw [hphase] at horderly
  unfold Traffic.begin
  cases htask : o.task with
  | change c => exact turnover_request hfree (horderly c htask) hstore
  | deleteTemplate name =>
    simp only
    split
    · exact hended _
    · exact turnover_request hfree (fun _ _ => rfl) hstore
  | message m =>
    simp only
    split
    · exact hended _
    · split
      · exact hended _
      · rename_i harrival
        exact turnover_request hfree (fun _ _ => managed_of_arrival harrival) hstore

/-! ### Visits -/

section Visits

variable {v : Visit} {peers : List (String × Nat)} {report : Report}

/-- A visit that has its site: its change is committed and owed, or it is sent away. -/
theorem turnover_commitVisit (hphase : o.phase = .round c r) (hkept : c.KeptAt i k o.node)
    (hmanaged : v.change.managed = true) (hvisit : ∀ c, ¬ r.awaited.Owes i c)
    (hstore : (t.storeAt i k).isSome) :
    Turnover i k id o t ((t.commitVisit id v).1.afterVisit id o c r peers report v.name
      (t.commitVisit id v).2) := by
  have hhome : ∀ c', o.Owes i c' → o.node = i ∧ c = c' := fun c' => o.owes_at_home hphase hvisit
  have hrefused : ∀ reply, Turnover i k id o t ((t.release v.site ⟨id, true⟩).afterVisit id o c r
      peers report v.name (.inl reply)) := fun reply =>
    .of_same (sameBooks_locks t _) ((goesOwing_afterReply (t := t.release v.site ⟨id, true⟩) hkept
      hstore r peers report v.name reply).turnover hhome)
  unfold Traffic.commitVisit
  cases hn : t.world[v.node]? with
  | none => exact hrefused _
  | some n =>
    simp only
    cases hcommit : n.commit v.change with
    | error e => exact hrefused _
    | ok committed =>
      obtain ⟨n', outbox⟩ := committed
      have hbooks := commits_of_commit (i := i) (k := k) hn hcommit ⟨id, true⟩
      have hstore' := hbooks.store ▸ hstore
      simp only
      split
      · refine .commits (p := .round c
          { r with awaited := .visit { v with stage := .committed } peers report })
          hbooks ⟨hkept, hmanaged⟩ (fun c' _ howed => .inl (hhome c' howed)) fun hi _ =>
            .inr ⟨rfl, hi, rfl⟩
      · -- the peer keeps no store of this kind
        rename_i hfor
        have hreleased : (Traffic.storeAt (((t.setNode v.node n').note
            (.committed v.site ⟨id, true⟩ v.change)).release v.site ⟨id, true⟩) i k).isSome :=
          hstore'
        refine GoesOwing.commits (goesOwing_afterReply hkept hreleased r peers report v.name .ack)
          (hbooks.trans (sameBooks_locks _ _)) hhome fun hi hk => absurd ?_ hfor
        subst hi hk
        have hn' : ((t.setNode v.node n').note (.committed v.site ⟨id, true⟩ v.change)).world[
            v.node]? = some n' := World.getElem?_update_self hn n'
        have hsome : (n'.store? v.change.kind).isSome := storeAt_of_node hn' ▸ hstore'
        unfold Node.storeFor?
        rw [hmanaged]
        exact hsome

theorem turnover_askVisit (hphase : o.phase = .round c r) (hkept : c.KeptAt i k o.node)
    (hmanaged : v.change.managed = true) (hvisit : ∀ c, ¬ r.awaited.Owes i c)
    (hstore : (t.storeAt i k).isSome) :
    Turnover i k id o t ((t.askVisit id v).1.afterVisit id o c r peers report v.name
      (t.askVisit id v).2) := by
  have hclaim := sameBooks_claim (i := i) (k := k) t v.site ⟨id, true⟩
  unfold Traffic.askVisit
  split
  · rename_i u hasked
    rw [hasked] at hclaim
    exact .of_same hclaim (turnover_commitVisit hphase hkept hmanaged hvisit
      (hclaim.store ▸ hstore))
  · rename_i u hasked
    rw [hasked] at hclaim
    exact .same (p := .round c { r with awaited := .visit { v with stage := .asked } peers report })
      hclaim ⟨hkept, hmanaged⟩ fun c' _ howed => .inl (o.owes_at_home hphase hvisit howed)

end Visits

/-! ### The steps of an operation -/

/-- A visit that has not committed anything owes nothing. -/
theorem Awaited.not_owes_of_stage {v : Visit} {peers : List (String × Nat)} {report : Report}
    (h : v.stage ≠ .committed) (c : Change) : ¬ (Awaited.visit v peers report).Owes i c :=
  fun howed => h howed.1

theorem turnover_poll (horderly : o.Orderly i k) (hstore : (t.storeAt i k).isSome) :
    t.poll id o = t ∨ Turnover i k id o t (t.poll id o) := by
  unfold Traffic.poll
  cases hphase : o.phase with
  | fresh => exact .inr (turnover_begin hphase horderly hstore)
  | waiting c =>
    unfold Operation.Orderly at horderly
    rw [hphase] at horderly
    simp only
    split
    · refine .inr (.of_same (sameBooks_locks t _) (turnover_carryOut ?_ horderly hstore))
      intro c' howed
      unfold Operation.Owes at howed
      rw [hphase] at howed
      exact howed
    · exact .inl rfl
  | round c r =>
    unfold Operation.Orderly at horderly
    rw [hphase] at horderly
    obtain ⟨message, deadline, awaited, later⟩ := r
    cases awaited with
    | outside => exact .inl rfl
    | visit v peers report =>
      obtain ⟨hkept, hmanaged⟩ := horderly
      simp only
      cases hstage : v.stage with
      | coming =>
        right
        exact turnover_askVisit hphase hkept hmanaged
          (Awaited.not_owes_of_stage (by rw [hstage]; exact nofun)) hstore
      | asked =>
        simp only
        split
        · right
          refine .of_same (sameBooks_locks t _) (turnover_commitVisit hphase hkept hmanaged
            (Awaited.not_owes_of_stage (by rw [hstage]; exact nofun)) hstore)
        · exact .inl rfl
      | committed => exact .inl rfl
  | storing | ended | abandoned => exact .inl rfl

theorem turnover_answer (horderly : o.Orderly i k) (hstore : (t.storeAt i k).isSome)
    {outcome : Except SyncError Report}
    (houtcome : ∀ reason, outcome ≠ .error (.serialization reason)) :
    t.answer id o outcome = t ∨ Turnover i k id o t (t.answer id o outcome) := by
  unfold Traffic.answer
  split
  · rename_i c message deadline later hphase
    unfold Operation.Orderly at horderly
    rw [hphase] at horderly
    exact .inr ((goesOwing_afterRound horderly.1 hstore later houtcome).turnover fun c' =>
      o.owes_at_home hphase fun _ h => h)
  · exact .inl rfl

theorem turnover_persist (horderly : o.Orderly i k) (hstore : (t.storeAt i k).isSome) :
    t.persist id o = t ∨ Turnover i k id o t (t.persist id o) := by
  unfold Traffic.persist
  cases hphase : o.phase with
  | storing c result =>
    unfold Operation.Orderly at horderly
    rw [hphase] at horderly
    cases hn : t.world[o.node]? with
    | none => exact .inl rfl
    | some n =>
      right
      have howes : ∀ {j c'}, o.Owes j c' ↔ o.node = j ∧ c = c' := by
        intro j c'
        unfold Operation.Owes
        rw [hphase]
      exact .tells (howes.2 ⟨rfl, rfl⟩) ((tells_of_persist hn horderly).trans (sameBooks_locks _ _))
        trivial fun c' _ howed => .inl ⟨(howes.1 howed).1, (howes.1 howed).2.symm⟩
  | round c r =>
    unfold Operation.Orderly at horderly
    rw [hphase] at horderly
    obtain ⟨message, deadline, awaited, later⟩ := r
    cases awaited with
    | outside => exact .inl rfl
    | visit v peers report =>
      obtain ⟨hkept, hmanaged⟩ := horderly
      simp only
      split
      · rename_i hstage
        cases hn : t.world[v.node]? with
        | none => exact .inl rfl
        | some n =>
          right
          have howes : ∀ {j c'}, o.Owes j c' ↔
              (o.node = j ∧ c = c') ∨ (v.node = j ∧ v.change = c') := by
            intro j c'
            unfold Operation.Owes
            rw [hphase]
            show (o.node = j ∧ c = c') ∨ (v.stage = .committed ∧ v.node = j ∧ v.change = c') ↔ _
            simp only [hstage, true_and]
          have htold : (v.change.managed && Node.keptLocally (.ok ())) = true := by
            rw [hmanaged]
            rfl
          have hbooks := tells_of_persist (i := i) (k := k) hn htold
          have hstore' : ((Traffic.release (t.setNode v.node (n.persist v.change (.ok ())).1) v.site
              ⟨id, true⟩).storeAt i k).isSome := by
            show ((t.setNode v.node (n.persist v.change (.ok ())).1).storeAt i k).isSome
            rw [hbooks.store]
            split
            · rw [Option.isSome_map]
              exact hstore
            · exact hstore
          simp only
          refine GoesOwing.tells (goesOwing_afterReply hkept hstore' _ peers report v.name _)
            (hbooks.trans (sameBooks_locks _ _)) (howes.2 (.inr ⟨rfl, rfl⟩)) fun c' howed => ?_
          rcases howes.1 howed with hhere | ⟨hi, rfl⟩
          · exact .inr hhere
          · exact .inl ⟨hi, rfl⟩
      · exact .inl rfl
  | _ => exact .inl rfl

/-- `giveUp` keeps `SameBooks`. -/
theorem sameBooks_giveUp (t : Traffic) (id : Nat) (a : Awaited) :
    SameBooks i k t (t.giveUp id a) := by
  cases a with
  | outside => exact .refl t
  | visit v peers report =>
    unfold Traffic.giveUp
    simp only
    split
    · exact .refl t
    · exact sameBooks_locks t _
    · exact sameBooks_locks t _

/-- A round whose time is up, unless a store has still to be told for its visit. -/
theorem turnover_expire (horderly : o.Orderly i k) (hstore : (t.storeAt i k).isSome)
    (hpatient : ∀ c r, o.phase = .round c r → r.deadline ≤ t.clock → ∀ c', ¬ r.awaited.Owes i c') :
    t.expire id o = t ∨ Turnover i k id o t (t.expire id o) := by
  unfold Traffic.expire
  cases hphase : o.phase with
  | round c r =>
    unfold Operation.Orderly at horderly
    rw [hphase] at horderly
    simp only
    split
    · rename_i hlate
      right
      have hbooks := sameBooks_giveUp (i := i) (k := k) t id r.awaited
      have hvisit := hpatient c r hphase (of_decide_eq_true ((Bool.and_eq_true _ _).mp hlate).1)
      exact .of_same hbooks ((goesOwing_afterRound horderly.1 (hbooks.store ▸ hstore) r.later
        (by rintro reason ⟨⟩)).turnover fun c' => o.owes_at_home hphase hvisit)
    · exact .inl rfl
  | _ => exact .inl rfl

/-- An operation that owes nothing can be abandoned. -/
theorem turnover_abandon (hfree : ∀ c, ¬ o.Owes i c) :
    t.abandon id o = t ∨ Turnover i k id o t (t.abandon id o) := by
  have hgone : ∀ {u : Traffic}, SameBooks i k t u →
      Turnover i k id o t (u.enter id .abandoned) := fun hbooks =>
    .same hbooks trivial fun c' _ howed => absurd howed (hfree c')
  unfold Traffic.abandon
  cases o.phase with
  | fresh => exact .inr (hgone (.refl t))
  | waiting c => exact .inr (hgone (sameBooks_locks t _))
  | round c r => exact .inr (hgone ((sameBooks_giveUp t id r.awaited).trans (sameBooks_locks _ _)))
  | storing c result => exact .inr (hgone (sameBooks_locks t _))
  | ended | abandoned => exact .inl rfl

end Steps

end CloudRoster
