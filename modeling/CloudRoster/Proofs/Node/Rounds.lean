import CloudRoster.Node.World
import CloudRoster.Proofs.Node.Changes

/-!
# Rounds over the loopback

A round brings one message to the peers in turn and collects their replies. As long as no peer is
busy with the subject of the message, no visit waits, and the round is an exchange
(`World.exchange`): each peer receives the message as if it came alone. The round leaves the node
that hands the message out as it is, and whether that node notes the message (`Node.hand`) before or
after the round makes no difference.
-/

namespace CloudRoster.World

/-- Brings a message to peers in turn, and collects the replies. -/
def exchange (m : Message) : World → List (String × Nat) → World × List (Nat × Message)
  | w, [] => (w, [])
  | w, (_, i) :: peers =>
    let (w, reply) := w.receive i m
    let (w, replies) := exchange m w peers
    (w, (i, reply) :: replies)

/-- Whether every reply tells of success. -/
def AllSucceed (replies : List (Nat × Message)) : Prop := ∀ a ∈ replies, a.2.isSuccess = true

instance (replies : List (Nat × Message)) : Decidable (AllSucceed replies) :=
  inferInstanceAs (Decidable (∀ a ∈ replies, _))

/-! ## The nodes after a round -/

theorem getElem?_update_self {w : World} {i : Nat} {n : Node} (h : w[i]? = some n) (n' : Node) :
    (w.update i n')[i]? = some n' := by
  obtain ⟨hi, -⟩ := List.getElem?_eq_some_iff.1 h
  exact List.getElem?_set_self hi

theorem getElem?_update_of_ne (w : World) {i j : Nat} (h : j ≠ i) (n : Node) :
    (w.update i n)[j]? = w[j]? :=
  List.getElem?_set_ne (Ne.symm h)

theorem receive_of_some {w : World} {i : Nat} {n : Node} (h : w[i]? = some n) (m : Message) :
    w.receive i m = (w.update i (n.receive m).1, (n.receive m).2) := by
  unfold receive
  rw [h]

theorem receive_of_none {w : World} {i : Nat} (h : w[i]? = none) (m : Message) :
    w.receive i m = (w, .ack) := by
  unfold receive
  rw [h]

/-- A message changes no node but the one that it is brought to. -/
theorem getElem?_receive_of_ne (w : World) {i j : Nat} (h : j ≠ i) (m : Message) :
    (w.receive i m).1[j]? = w[j]? := by
  cases hi : w[i]? with
  | none => rw [receive_of_none hi]
  | some n =>
    rw [receive_of_some hi]
    exact getElem?_update_of_ne w h _

/-- A message and another change of another node do not get in each other's way. -/
theorem receive_update_of_ne (w : World) {i j : Nat} (h : j ≠ i) (m : Message) (n : Node) :
    (w.update i n).receive j m = ((w.receive j m).1.update i n, (w.receive j m).2) := by
  have hget := getElem?_update_of_ne w h n
  cases hj : w[j]? with
  | none => rw [receive_of_none hj, receive_of_none (hget.trans hj)]
  | some p =>
    rw [receive_of_some hj, receive_of_some (hget.trans hj)]
    exact congrArg (·, (p.receive m).2) (List.set_comm _ _ (Ne.symm h))

theorem exchange_update_of_ne (m : Message) (n : Node) {i : Nat} {peers : List (String × Nat)}
    (h : ∀ p ∈ peers, p.2 ≠ i) (w : World) :
    (w.update i n).exchange m peers =
      ((w.exchange m peers).1.update i n, (w.exchange m peers).2) := by
  induction peers generalizing w with
  | nil => rfl
  | cons p peers ih =>
    obtain ⟨name, j⟩ := p
    simp only [exchange]
    rw [receive_update_of_ne w (h _ List.mem_cons_self) m n]
    simp only [ih (fun p hp => h p (List.mem_cons_of_mem _ hp))]

/-- A round touches only the nodes that it visits. -/
theorem getElem?_exchange_of_ne (m : Message) {i : Nat} {peers : List (String × Nat)}
    (h : ∀ p ∈ peers, p.2 ≠ i) (w : World) : (w.exchange m peers).1[i]? = w[i]? := by
  induction peers generalizing w with
  | nil => rfl
  | cons p peers ih =>
    obtain ⟨name, j⟩ := p
    simp only [exchange]
    rw [ih fun p hp => h p (List.mem_cons_of_mem _ hp)]
    exact getElem?_receive_of_ne w (Ne.symm (h _ List.mem_cons_self)) m

/-- What a node keeps whenever the message comes, it keeps in a round. -/
theorem exchange_keeps {P : Node → Prop} {m : Message} (hkeep : ∀ x, P x → P (x.receive m).1)
    {i : Nat} {n : Node} (hn : P n) (peers : List (String × Nat)) {w : World}
    (hnode : w[i]? = some n) : ∃ n', (w.exchange m peers).1[i]? = some n' ∧ P n' := by
  induction peers generalizing w n with
  | nil => exact ⟨n, hnode, hn⟩
  | cons p peers ih =>
    obtain ⟨name, j⟩ := p
    simp only [exchange]
    by_cases hj : j = i
    · subst hj
      rw [receive_of_some hnode]
      exact ih (hkeep n hn) (getElem?_update_self hnode _)
    · exact ih hn ((getElem?_receive_of_ne w (Ne.symm hj) m).trans hnode)

/-- What a node has from the message that it gave a reply to, and then keeps, it has after the
round. -/
theorem exchange_replied {I P : Node → Prop} {m reply : Message}
    (hinv : ∀ x, I x → I (x.receive m).1)
    (hmake : ∀ x, I x → (x.receive m).2 = reply → P (x.receive m).1)
    (hkeep : ∀ x, I x → P x → P (x.receive m).1) {i : Nat} {n : Node} (hn : I n)
    {peers : List (String × Nat)} {w : World} (hnode : w[i]? = some n)
    (hreply : (i, reply) ∈ (w.exchange m peers).2) :
    ∃ n', (w.exchange m peers).1[i]? = some n' ∧ P n' := by
  have hboth : ∀ x, I x ∧ P x → I (x.receive m).1 ∧ P (x.receive m).1 :=
    fun x hx => ⟨hinv x hx.1, hkeep x hx.1 hx.2⟩
  induction peers generalizing w n with
  | nil => cases hreply
  | cons p peers ih =>
    obtain ⟨name, j⟩ := p
    simp only [exchange] at hreply ⊢
    by_cases hj : j = i
    · subst hj
      rw [receive_of_some hnode] at hreply ⊢
      rcases List.mem_cons.1 hreply with heq | hlater
      · -- the reply is that of this visit; later visits of the same node keep what it made
        have hmade := hmake n hn (Prod.mk.inj heq).2.symm
        obtain ⟨n', hn', hI, hP⟩ := exchange_keeps hboth ⟨hinv n hn, hmade⟩ peers
          (getElem?_update_self hnode (n.receive m).1)
        exact ⟨n', hn', hP⟩
      · exact ih (hinv n hn) (getElem?_update_self hnode _) hlater
    · rcases List.mem_cons.1 hreply with heq | hlater
      · exact absurd (Prod.mk.inj heq).1.symm hj
      · exact ih hn ((getElem?_receive_of_ne w (Ne.symm hj) m).trans hnode) hlater

/-- A node that a round visits once receives the message once. -/
theorem getElem?_exchange_of_nodup {m : Message} {peers : List (String × Nat)}
    (hnodup : (peers.map (·.2)).Nodup) {i : Nat} (hpeer : ∃ p ∈ peers, p.2 = i) {w : World}
    {n : Node} (hnode : w[i]? = some n) : (w.exchange m peers).1[i]? = some (n.receive m).1 := by
  induction peers generalizing w with
  | nil =>
    obtain ⟨p, hp, -⟩ := hpeer
    cases hp
  | cons p peers ih =>
    obtain ⟨name, j⟩ := p
    obtain ⟨hj, hnodup⟩ := List.nodup_cons.1 hnodup
    simp only [exchange]
    by_cases hi : j = i
    · subst hi
      -- the node is visited now and never again
      have hlater : ∀ p ∈ peers, p.2 ≠ j := by
        rintro p hp rfl
        exact hj (List.mem_map.2 ⟨p, hp, rfl⟩)
      rw [getElem?_exchange_of_ne m hlater, receive_of_some hnode]
      exact getElem?_update_self hnode _
    · obtain ⟨p, hp, rfl⟩ := hpeer
      rcases List.mem_cons.1 hp with rfl | hp
      · exact absurd rfl hi
      · exact ih hnodup ⟨p, hp, rfl⟩ ((getElem?_receive_of_ne w (Ne.symm hi) m).trans hnode)

/-- In a round that visits nodes once every reply is that of the node as it was before. -/
theorem reply_of_nodup {m reply : Message} {peers : List (String × Nat)}
    (hnodup : (peers.map (·.2)).Nodup) {i : Nat} {w : World}
    (hreply : (i, reply) ∈ (w.exchange m peers).2) :
    (∃ p ∈ peers, p.2 = i) ∧ reply = (w.receive i m).2 := by
  induction peers generalizing w with
  | nil => cases hreply
  | cons p peers ih =>
    obtain ⟨name, j⟩ := p
    obtain ⟨hj, hnodup⟩ := List.nodup_cons.1 hnodup
    simp only [exchange] at hreply
    rcases List.mem_cons.1 hreply with heq | hlater
    · obtain ⟨rfl, rfl⟩ := Prod.mk.inj heq
      exact ⟨⟨_, List.mem_cons_self, rfl⟩, rfl⟩
    · -- a later reply: the visit before it was of another node
      obtain ⟨⟨q, hq, rfl⟩, rfl⟩ := ih hnodup hlater
      have hne : q.2 ≠ j := by
        rintro rfl
        exact hj (List.mem_map.2 ⟨q, hq, rfl⟩)
      refine ⟨⟨q, List.mem_cons_of_mem _ hq, rfl⟩, ?_⟩
      have hget := getElem?_receive_of_ne w hne m
      cases hw : w[q.2]? with
      | none => rw [receive_of_none hw, receive_of_none (hget.trans hw)]
      | some x => rw [receive_of_some hw, receive_of_some (hget.trans hw)]

theorem length_receive (w : World) (i : Nat) (m : Message) :
    (w.receive i m).1.length = w.length := by
  cases hi : w[i]? with
  | none => rw [receive_of_none hi]
  | some n =>
    rw [receive_of_some hi]
    exact List.length_set ..

theorem length_exchange (m : Message) (peers : List (String × Nat)) (w : World) :
    (w.exchange m peers).1.length = w.length := by
  induction peers generalizing w with
  | nil => rfl
  | cons p peers ih =>
    simp only [exchange]
    rw [ih, length_receive]

/-- Every peer gives a reply. -/
theorem exists_reply (m : Message) {i : Nat} {peers : List (String × Nat)}
    (h : ∃ p ∈ peers, p.2 = i) (w : World) : ∃ reply, (i, reply) ∈ (w.exchange m peers).2 := by
  induction peers generalizing w with
  | nil =>
    obtain ⟨p, hp, -⟩ := h
    cases hp
  | cons q peers ih =>
    obtain ⟨name, j⟩ := q
    simp only [exchange]
    obtain ⟨p, hp, hi⟩ := h
    rcases List.mem_cons.1 hp with rfl | hp
    · exact ⟨_, List.mem_cons.2 (.inl (by rw [← hi]))⟩
    · obtain ⟨reply, hreply⟩ := ih ⟨p, hp, hi⟩ (w.receive j m).1
      exact ⟨reply, List.mem_cons_of_mem _ hreply⟩

/-! ## The report of a round -/

/-- Visits of peers that are not busy are an exchange, and the report counts the replies. -/
theorem visitAll_eq {busy : Option (Nat × ((k : Kind) × k.Key))} {peers : List (String × Nat)}
    (hfree : ∀ b, busy = some b → ∀ p ∈ peers, p.2 ≠ b.1) (m : Message) (w : World) (r : Report) :
    ∃ r', visitAll busy m w peers r = ((w.exchange m peers).1, some r') ∧ r'.total = r.total ∧
      r'.delivered + r'.failures.length = r.delivered + r.failures.length + peers.length ∧
      (r'.failures = [] ↔ r.failures = [] ∧ AllSucceed (w.exchange m peers).2) := by
  induction peers generalizing w r with
  | nil => exact ⟨r, rfl, rfl, rfl, by simp [exchange, AllSucceed]⟩
  | cons p peers ih =>
    obtain ⟨name, i⟩ := p
    have hvisit : w.visit busy m name i r =
        some ((w.receive i m).1, r.count name (w.receive i m).2) := by
      cases hi : w[i]? with
      | none =>
        rw [receive_of_none hi]
        unfold visit
        rw [hi]
        rfl
      | some n =>
        rw [receive_of_some hi]
        unfold visit
        simp only [hi]
        rw [if_neg]
        have hbusy : ∀ s, busy ≠ some (i, s) := fun s hs =>
          hfree _ hs (name, i) List.mem_cons_self rfl
        cases n.arrival m with
        | change c => simpa using hbusy c.subject
        | reply _ => simp
    obtain ⟨r', hvisits, htotal, hcount, hfailures⟩ := ih
      (fun b hb p hp => hfree b hb p (List.mem_cons_of_mem _ hp)) (w.receive i m).1
      (r.count name (w.receive i m).2)
    refine ⟨r', ?_, ?_, ?_, ?_⟩
    · simp only [visitAll, hvisit, hvisits, exchange]
    · rw [htotal]
      unfold Report.count
      split <;> rfl
    · rw [hcount, List.length_cons]
      unfold Report.count
      split
      · simp only [Report.fail, List.length_append, List.length_singleton]
        omega
      · simp only [Report.deliver]
        omega
    · rw [hfailures]
      simp only [exchange, AllSucceed, List.forall_mem_cons]
      cases (w.receive i m).2 with
      | error e => simp [Report.count, Report.fail, Message.isSuccess]
      | _ => simp [Report.count, Report.deliver, Message.isSuccess]

/-- A round over the loopback whose peers are all other nodes ends with the exchange, and delivers
completely exactly if every reply tells of success. -/
theorem broadcast_loopback {w : World} {i : Nat} {n : Node} {peers : List (String × Nat)}
    (hnode : w[i]? = some n) (hpeers : n.broadcaster = .loopback peers)
    (hother : ∀ p ∈ peers, p.2 ≠ i) (busy : Option ((k : Kind) × k.Key)) (timeout : Option Nat)
    (m : Message) :
    ∃ r, w.broadcast i busy timeout m = ((w.exchange m peers).1.update i (n.hand m), .ok r) ∧
      (r.isComplete = true ↔ AllSucceed (w.exchange m peers).2) := by
  have hfree : ∀ b, busy.map (fun s => (i, s)) = some b → ∀ p ∈ peers, p.2 ≠ b.1 := by
    rintro b hb p hp
    obtain ⟨s, -, rfl⟩ := Option.map_eq_some_iff.1 hb
    exact hother p hp
  obtain ⟨r, hvisits, htotal, hcount, hfailures⟩ :=
    visitAll_eq hfree m (w.update i (n.hand m)) ⟨peers.length, 0, []⟩
  rw [exchange_update_of_ne m (n.hand m) hother] at hvisits hfailures
  refine ⟨r, ?_, ?_⟩
  · unfold broadcast
    simp only [hnode, hpeers, hvisits]
  · have hall : r.failures = [] ↔ AllSucceed (w.exchange m peers).2 := by simpa using hfailures
    unfold Report.isComplete
    simp only [htotal, Bool.and_eq_true, List.isEmpty_iff, beq_iff_eq, ← hall]
    constructor
    · exact fun h => h.1
    · intro h
      simp only [h, List.length_nil] at hcount
      exact ⟨h, by omega⟩

theorem update_update (w : World) (i : Nat) (n n' : Node) :
    (w.update i n).update i n' = w.update i n' := List.set_set ..

/-- The first of the rounds in which the messages of a node are handed out; `w` may hold the node as
it was before. -/
theorem spread_cons {w : World} {i : Nat} {before n : Node} {peers : List (String × Nat)}
    (hnode : w[i]? = some before) (hpeers : n.broadcaster = .loopback peers)
    (hother : ∀ p ∈ peers, p.2 ≠ i) (c : Change) (u : CacheUpdate) (outbox : List CacheUpdate) :
    let e := w.exchange (.cacheUpdate u) peers
    let w' := e.1.update i (n.hand (.cacheUpdate u))
    (AllSucceed e.2 → spread i c (w.update i n) (u :: outbox) = spread i c w' outbox) ∧
      (¬ AllSucceed e.2 → (spread i c (w.update i n) (u :: outbox)).1 = w') := by
  intro e w'
  obtain ⟨r, hround, hcomplete⟩ := broadcast_loopback (getElem?_update_self hnode n) hpeers hother
    (some c.subject) (((w.update i n)[i]?).map (·.config.broadcastTimeoutMs.toNat)) (.cacheUpdate u)
  rw [exchange_update_of_ne (.cacheUpdate u) n hother w, update_update] at hround
  rw [exchange_update_of_ne (.cacheUpdate u) n hother w] at hcomplete
  have hbind : (Except.ok r : Except SyncError Report).bind Report.result = r.result := rfl
  rw [spread]
  simp only [hround, hbind]
  -- the round is a success exactly if its report is complete
  refine ⟨fun hall => ?_, fun hfail => ?_⟩
  · have hresult : r.result = .ok () := if_pos (hcomplete.2 hall)
    rw [hresult]
  · have hresult : r.result = .error (.broadcast r.delivered r.total r.reasons) :=
      if_neg fun h => hfail (hcomplete.1 h)
    rw [hresult]

/-- A change whose messages have been handed out ends with the store. -/
theorem perform_of_commit {w : World} {i : Nat} {n n' : Node} {c : Change}
    {outbox : List CacheUpdate} (hnode : w[i]? = some n) (hcommit : n.commit c = .ok (n', outbox))
    {x : Node} (hx : (spread i c (w.update i n') outbox).1[i]? = some x) :
    w.perform i c =
      ((spread i c (w.update i n') outbox).1.update i
          (x.persist c (spread i c (w.update i n') outbox).2).1,
        (x.persist c (spread i c (w.update i n') outbox).2).2) := by
  unfold perform
  simp only [hnode, hcommit, hx]

/-! ## Tidy worlds -/

/-- All nodes are tidy. -/
def Tidy (w : World) : Prop := ∀ n ∈ w, n.Tidy

theorem Tidy.get {w : World} (h : w.Tidy) {i : Nat} {n : Node} (hnode : w[i]? = some n) : n.Tidy :=
  h n (List.mem_of_getElem? hnode)

theorem Tidy.update {w : World} (h : w.Tidy) (i : Nat) {n : Node} (hn : n.Tidy) :
    (w.update i n).Tidy := by
  intro x hx
  rcases List.mem_or_eq_of_mem_set hx with hmem | rfl
  · exact h x hmem
  · exact hn

theorem Tidy.receive {w : World} (h : w.Tidy) (i : Nat) (m : Message) : (w.receive i m).1.Tidy := by
  cases hi : w[i]? with
  | none =>
    rw [receive_of_none hi]
    exact h
  | some n =>
    rw [receive_of_some hi]
    exact h.update i ((h.get hi).receive m)

theorem Tidy.visit {w w' : World} (h : w.Tidy) {busy : Option (Nat × ((k : Kind) × k.Key))}
    {m : Message} {name : String} {i : Nat} {r r' : Report}
    (hvisit : w.visit busy m name i r = some (w', r')) : w'.Tidy := by
  unfold World.visit at hvisit
  cases hi : w[i]? with
  | none =>
    rw [hi] at hvisit
    cases hvisit
    exact h
  | some n =>
    simp only [hi] at hvisit
    obtain ⟨-, heq⟩ := Option.ite_none_left_eq_some.1 hvisit
    cases heq
    exact h.update i ((h.get hi).receive m)

theorem Tidy.visitAll {w : World} (h : w.Tidy) (busy : Option (Nat × ((k : Kind) × k.Key)))
    (m : Message) (peers : List (String × Nat)) (r : Report) :
    (World.visitAll busy m w peers r).1.Tidy := by
  induction peers generalizing w r with
  | nil => exact h
  | cons p peers ih =>
    obtain ⟨name, i⟩ := p
    unfold World.visitAll
    cases hvisit : w.visit busy m name i r with
    | none => exact h
    | some visited => exact ih (h.visit hvisit) visited.2

theorem Tidy.broadcast {w : World} (h : w.Tidy) (i : Nat) (busy : Option ((k : Kind) × k.Key))
    (timeout : Option Nat) (m : Message) : (w.broadcast i busy timeout m).1.Tidy := by
  unfold World.broadcast
  cases hi : w[i]? with
  | none => exact h
  | some n =>
    have hn : n.Tidy := h.get hi
    have hhanded : (w.update i (n.hand m)).Tidy := by
      refine h.update i ?_
      exact hn
    simp only
    split
    · exact hhanded
    · exact hhanded
    · split <;> exact hhanded
    · rename_i peers _
      have hvisits := hhanded.visitAll (busy.map fun s => (i, s)) m peers ⟨peers.length, 0, []⟩
      split <;> exact hvisits

theorem Tidy.spread {w : World} (h : w.Tidy) (i : Nat) (c : Change) (outbox : List CacheUpdate) :
    (World.spread i c w outbox).1.Tidy := by
  induction outbox generalizing w with
  | nil => exact h
  | cons u outbox ih =>
    rw [World.spread]
    have hround := h.broadcast i (some c.subject)
      ((w[i]?).map (·.config.broadcastTimeoutMs.toNat)) (.cacheUpdate u)
    simp only
    split
    · exact ih hround
    · exact hround

/-- Operations keep all nodes tidy, whatever the broadcasters and stores are. -/
theorem Tidy.perform {w : World} (h : w.Tidy) (i : Nat) (c : Change) : (w.perform i c).1.Tidy := by
  unfold World.perform
  cases hi : w[i]? with
  | none => exact h
  | some n =>
    cases hcommit : n.commit c with
    | error e =>
      simp only [hcommit]
      exact h
    | ok done =>
      have hspread : (World.spread i c (w.update i done.1) done.2).1.Tidy :=
        (h.update i ((h.get hi).commit hcommit)).spread i c done.2
      simp only [hcommit]
      cases hx : (World.spread i c (w.update i done.1) done.2).1[i]? with
      | none => exact hspread
      | some x =>
        obtain ⟨groups, templates, heq⟩ :=
          x.persist_eq c (World.spread i c (w.update i done.1) done.2).2
        have hn : x.Tidy := hspread.get hx
        simp only [heq]
        refine hspread.update i ?_
        exact hn

end CloudRoster.World
