import CloudRoster.Node.Traffic
import CloudRoster.Proofs.Node.Mesh

/-!
# Two nodes connected to each other

What the steps of operations come to on two nodes that are connected to each other and have no
stores. A local change is committed at home and then told to the other node, in one round or two;
each round is a single visit, which first comes to the peer, then asks for its site, and then
commits the change there. Changes of templates, wrappers and services are never held back, so the
peer always acknowledges.
-/

namespace CloudRoster

/-- The kinds of values whose changes are never held back and always told. -/
def Kind.Unguarded (k : Kind) : Prop := k = .template ∨ k = .wrapper ∨ k = .service

/-- A change of such a value that does not come from a peer. -/
structure Change.Local (c : Change) : Prop where
  fromPacket : c.fromPacket = false
  kind : c.kind.Unguarded

/-- A task that changes such a value. -/
def Task.Local : Task → Prop
  | .change c => c.Local
  | .deleteTemplate _ => True
  | .message _ => False

namespace World

/-- Two nodes, each of which has the other as its only peer, without stores and with all lists
open. -/
structure Pair (w : World) : Prop where
  length : w.length = 2
  tidy : w.Tidy
  bare : ∀ n ∈ w, n.Bare
  connected : ∀ (i : Nat) (n : Node), w[i]? = some n →
    ∃ name, n.broadcaster = .loopback [(name, 1 - i)]

/-- The value that a node holds of a subject. -/
def valueAt (w : World) (site : Site) : Option site.2.1.Val :=
  (w[site.1]?).bind fun n => (n.lists.get site.2.1).find? site.2.2

theorem valueAt_of_some {w : World} {site : Site} {n : Node} (h : w[site.1]? = some n) :
    w.valueAt site = (n.lists.get site.2.1).find? site.2.2 := by
  unfold valueAt
  rw [h]
  rfl

theorem valueAt_update_of_ne (w : World) {i : Nat} (n : Node) {site : Site} (h : site.1 ≠ i) :
    (w.update i n).valueAt site = w.valueAt site := by
  unfold valueAt
  rw [getElem?_update_of_ne w h]

/-- Taking note of a message leaves all values as they are. -/
theorem valueAt_update_hand {w : World} {i : Nat} {n : Node} (hnode : w[i]? = some n) (m : Message)
    (site : Site) : (w.update i (n.hand m)).valueAt site = w.valueAt site := by
  by_cases h : site.1 = i
  · subst h
    rw [valueAt_of_some (getElem?_update_self hnode _), valueAt_of_some hnode]
    rfl
  · exact valueAt_update_of_ne w _ h

namespace Pair

variable {w : World} {i : Nat} {n : Node}

theorem exists_node (h : w.Pair) (hi : i < 2) : ∃ n, w[i]? = some n :=
  ⟨_, List.getElem?_eq_getElem (by rw [h.length]; exact hi)⟩

/-- Two nodes stay connected when one of them changes but for its peers, lists and stores. -/
theorem update (h : w.Pair) (hnode : w[i]? = some n) {n' : Node} (hbare : n'.Bare) (htidy : n'.Tidy)
    (hpeers : n'.broadcaster = n.broadcaster) : (w.update i n').Pair := by
  refine ⟨(List.length_set ..).trans h.length, h.tidy.update i htidy, ?_, ?_⟩
  · intro x hx
    rcases List.mem_or_eq_of_mem_set hx with hmem | rfl
    · exact h.bare x hmem
    · exact hbare
  · intro j x hx
    by_cases hj : j = i
    · subst hj
      rw [getElem?_update_self hnode] at hx
      cases hx
      rw [hpeers]
      exact h.connected j n hnode
    · rw [getElem?_update_of_ne w hj] at hx
      exact h.connected j x hx

theorem hand (h : w.Pair) (hnode : w[i]? = some n) (m : Message) :
    (w.update i (n.hand m)).Pair := by
  obtain ⟨hopen, hgroups, htemplates⟩ := h.bare n (List.mem_of_getElem? hnode)
  have htidy : n.Tidy := h.tidy.get hnode
  exact h.update hnode ⟨hopen, hgroups, htemplates⟩ htidy rfl

/-- A change that is never held back changes what its node holds of its subject, and nothing
else. -/
theorem commit (h : w.Pair) (hnode : w[i]? = some n) {c : Change} (hkind : c.kind.Unguarded) :
    ∃ n', n.commit c = .ok (n', n.outbox c) ∧ n'.Bare ∧ (w.update i n').Pair ∧
      (w.update i n').valueAt (i, c.subject) = c.left ∧
      ∀ site, site ≠ (i, c.subject) → (w.update i n').valueAt site = w.valueAt site := by
  have hguard : n.guard c = .ok () := by
    obtain ⟨k, v, action, fromPacket, managed⟩ := c
    rcases hkind with rfl | rfl | rfl <;> rfl
  obtain ⟨bus, hcommit⟩ := Node.commit_of_guard hguard
  obtain ⟨hopen, hgroups, htemplates⟩ := h.bare n (List.mem_of_getElem? hnode)
  refine ⟨_, hcommit, ⟨hopen, hgroups, htemplates⟩, ?_, ?_, ?_⟩
  · exact h.update hnode ⟨hopen, hgroups, htemplates⟩ ((h.tidy.get hnode).applyTo c rfl) rfl
  · rw [valueAt_of_some (getElem?_update_self hnode _)]
    exact (h.tidy.get hnode).cached_applyTo c rfl
  · rintro ⟨j, k, key⟩ hsite
    by_cases hj : j = i
    · subst hj
      rw [valueAt_of_some (getElem?_update_self hnode _), valueAt_of_some hnode]
      by_cases hk : k = c.kind
      · subst hk
        rw [Lists.get_set_self]
        have hkey : key ≠ c.kind.key c.value := by
          rintro rfl
          exact hsite rfl
        exact Change.find?_applyTo_of_ne _ hkey
      · rw [Lists.get_set_of_ne _ hk]
    · exact valueAt_update_of_ne w _ hj

end Pair

end World

/-! ## Rounds -/

/-- What a round of a change tells, and the messages after it: the change itself, or the final state
of a value and then its removal. -/
def Change.Tells (c : Change) (action : Action) (later : List CacheUpdate) : Prop :=
  (action = c.action ∧ later = []) ∨
    (c.action = .delete ∧ action = .update ∧ later = [.about c.kind c.value .delete])

/-- The visit of the other node. -/
def Visit.other (node : Nat) (c : Change) (action : Action) (name : String) (stage : Stage) :
    Visit :=
  ⟨name, 1 - node, .asked c.kind c.value action, stage⟩

/-- The round in which a node tells the other one. -/
def Round.telling (node : Nat) (c : Change) (action : Action) (later : List CacheUpdate)
    (name : String) (deadline : Nat) (stage : Stage) : Round where
  message := .about c.kind c.value action
  deadline := deadline
  awaited := .visit (.other node c action name stage) [] ⟨1, 0, []⟩
  later := later

namespace Traffic

variable {t : Traffic} {o : Operation} {n : Node}

/-- Without stores a change ends after its last round. -/
theorem conclude_eq (hpair : t.world.Pair) (hnode : t.world[o.node]? = some n) (id : Nat)
    (c : Change) (result : Except SyncError Unit) :
    t.conclude id o c result = t.finish id o c result := by
  have hbare := hpair.bare n (List.mem_of_getElem? hnode)
  unfold conclude
  rw [hnode]
  show (if (n.storeFor? c result).isSome then _ else _) = _
  rw [Node.storeFor?_of_no_stores hbare.groupStore hbare.templateStore]
  rfl

/-- A message about a value is handed out, and then its visit comes to the other node. -/
theorem sendAll_about {peer : Node} {name : String} {c : Change} (ho : o.node < 2)
    (hnode : t.world[o.node]? = some n) (hpeers : n.broadcaster = .loopback [(name, 1 - o.node)])
    (hpeer : t.world[1 - o.node]? = some peer)
    (hopen : peer.registry.find? c.kind.listName = some c.kind) (id : Nat) (action : Action)
    (later : List CacheUpdate) :
    sendAll id o c t (.about c.kind c.value action :: later) =
      enter { t with
        world := t.world.update o.node (n.hand (.cacheUpdate (.about c.kind c.value action)))
        journal := t.journal ++
          [.handed (o.node, c.subject) id (.about c.kind c.value action)] } id
        (.round c (.telling o.node c action later name
          (t.clock + n.config.broadcastTimeoutMs.toNat) .coming)) := by
  -- the visit only comes to the peer in this step, and finds its list open
  have hne : 1 - o.node ≠ o.node := by omega
  have harrival := Node.arrival_about hopen c.value action
  rw [sendAll]
  unfold sendOne
  simp only [hnode, hpeers, visitAll, visit, setNode, note,
    World.getElem?_update_of_ne t.world hne, hpeer, harrival, Traffic.deadline,
    World.getElem?_update_self hnode]
  rfl

/-- Between two nodes that are connected to each other, whatever the change. -/
theorem exists_sendAll_about (hpair : t.world.Pair) (ho : o.node < 2)
    (hnode : t.world[o.node]? = some n) (id : Nat) (c : Change) (action : Action)
    (later : List CacheUpdate) :
    ∃ name deadline journal, sendAll id o c t (.about c.kind c.value action :: later) =
      enter { t with
        world := t.world.update o.node (n.hand (.cacheUpdate (.about c.kind c.value action)))
        journal := journal } id
        (.round c (.telling o.node c action later name deadline .coming)) := by
  obtain ⟨name, hpeers⟩ := hpair.connected o.node n hnode
  obtain ⟨peer, hpeer⟩ := hpair.exists_node (i := 1 - o.node) (by omega)
  have hopen := (hpair.bare peer (List.mem_of_getElem? hpeer)).isOpen c.kind
  exact ⟨name, _, _, sendAll_about ho hnode hpeers hpeer hopen id action later⟩

/-- A local change of a value that is not there to be removed comes to its end; any other one is
committed and goes into its first round. -/
theorem carryOut_eq (hpair : t.world.Pair) (ho : o.node < 2) (id : Nat) {c : Change}
    (hlocal : c.Local) :
    ∃ w journal, w.Pair ∧ w.valueAt (o.node, c.subject) = c.left ∧
      (∀ site, site ≠ (o.node, c.subject) → w.valueAt site = t.world.valueAt site) ∧
      ((c.action = .delete ∧ t.world.valueAt (o.node, c.subject) = none ∧
          t.carryOut id o c = finish { t with world := w, journal := journal } id o c (.ok ())) ∨
        ∃ action later name deadline, c.Tells action later ∧
          t.carryOut id o c = enter { t with world := w, journal := journal } id
            (.round c (.telling o.node c action later name deadline .coming))) := by
  obtain ⟨n, hnode⟩ := hpair.exists_node ho
  obtain ⟨n', hcommit, hbare, hpair', hleft, hothers⟩ := hpair.commit hnode hlocal.kind
  have hnode' := World.getElem?_update_self hnode n'
  have hspreads : n.spreads c.kind = true := by
    unfold Node.spreads
    rcases hlocal.kind with hk | hk | hk <;> simp [hk]
  have hvalue : t.world.valueAt (o.node, c.subject) = n.cached c.kind c.value :=
    World.valueAt_of_some hnode
  let t' : Traffic := { t with
    world := t.world.update o.node n'
    journal := t.journal ++ [.committed (o.node, c.subject) ⟨id, false⟩ c] }
  have hcarry : t.carryOut id o c = sendAll id o c t' (n.outbox c) := by
    unfold carryOut
    simp only [hnode, hcommit]
    rfl
  -- the first message, with what is told after it, is the same for updates and removals
  have hround : ∀ action later, c.Tells action later →
      n.outbox c = .about c.kind c.value action :: later →
      ∃ w journal, w.Pair ∧ w.valueAt (o.node, c.subject) = c.left ∧
        (∀ site, site ≠ (o.node, c.subject) → w.valueAt site = t.world.valueAt site) ∧
        ∃ name deadline, t.carryOut id o c = enter { t with world := w, journal := journal } id
          (.round c (.telling o.node c action later name deadline .coming)) := by
    intro action later htells houtbox
    obtain ⟨name, deadline, journal, hsend⟩ :=
      exists_sendAll_about (t := t') hpair' ho hnode' id c action later
    rw [← houtbox, ← hcarry] at hsend
    refine ⟨_, journal, hpair'.hand hnode' (.cacheUpdate (.about c.kind c.value action)), ?_, ?_,
      name, deadline, hsend⟩
    · rw [World.valueAt_update_hand hnode']
      exact hleft
    · intro site hsite
      rw [World.valueAt_update_hand hnode']
      exact hothers site hsite
  unfold Node.outbox at hround hcarry
  simp only [hspreads, hlocal.fromPacket] at hround hcarry
  cases haction : c.action with
  | update =>
    rw [haction] at hround
    obtain ⟨w, journal, hw, hself, hsame, name, deadline, heq⟩ :=
      hround .update [] (.inl ⟨haction.symm, rfl⟩) rfl
    exact ⟨w, journal, hw, hself, hsame, .inr ⟨_, _, name, deadline, .inl ⟨haction.symm, rfl⟩, heq⟩⟩
  | delete =>
    rw [haction] at hround hcarry
    cases hcached : n.cached c.kind c.value with
    | some old =>
      rw [hcached] at hround
      have htells : c.Tells .update [.about c.kind c.value .delete] := .inr ⟨haction, rfl, rfl⟩
      obtain ⟨w, journal, hw, hself, hsame, name, deadline, heq⟩ := hround _ _ htells rfl
      exact ⟨w, journal, hw, hself, hsame, .inr ⟨_, _, name, deadline, htells, heq⟩⟩
    | none =>
      rw [hcached] at hcarry
      refine ⟨_, t'.journal, hpair', hleft, hothers, .inl ⟨rfl, hvalue.trans hcached, ?_⟩⟩
      rw [hcarry]
      exact conclude_eq (t := t') hpair' hnode' id c (.ok ())

/-- A visit that has its site commits the change, gives the site back and is acknowledged. -/
theorem commitVisit_eq (hpair : t.world.Pair) (ho : o.node < 2) (id : Nat) {c : Change}
    (hlocal : c.Local) (action : Action) (name : String) (stage : Stage) :
    ∃ w journal, w.Pair ∧
      w.valueAt (1 - o.node, c.subject) = (Change.asked c.kind c.value action).left ∧
      (∀ site, site ≠ (1 - o.node, c.subject) → w.valueAt site = t.world.valueAt site) ∧
      t.commitVisit id (.other o.node c action name stage) =
        ({ t with
          world := w
          journal := journal
          locks := t.locks.release (1 - o.node, c.subject) ⟨id, true⟩ }, .inl .ack) := by
  obtain ⟨peer, hpeer⟩ := hpair.exists_node (i := 1 - o.node) (by omega)
  obtain ⟨peer', hcommit, hbare, hpair', hleft, hothers⟩ :=
    hpair.commit hpeer (c := .asked c.kind c.value action) hlocal.kind
  have hstore := Node.storeFor?_of_no_stores hbare.groupStore hbare.templateStore
    (.asked c.kind c.value action) (.ok ())
  refine ⟨_, t.journal ++ [.committed (1 - o.node, c.subject) ⟨id, true⟩
    (.asked c.kind c.value action)], hpair', hleft, hothers, ?_⟩
  unfold commitVisit Visit.other
  simp only [hpeer, hcommit, hstore]
  rfl

/-- After the visit that acknowledged the last message of a change the operation ends; after the one
that acknowledged the final state the round of the removal begins. -/
theorem afterVisit_ack (hpair : t.world.Pair) (ho : o.node < 2) (id : Nat) {c : Change}
    {action : Action} {later : List CacheUpdate} (htells : c.Tells action later)
    (name : String) (deadline : Nat) (stage : Stage) :
    let after := t.afterVisit id o c (.telling o.node c action later name deadline stage) []
      ⟨1, 0, []⟩ name (.inl .ack)
    (action = c.action ∧ after = t.finish id o c (.ok ())) ∨
      (c.action = .delete ∧ ∃ w journal name' deadline', w.Pair ∧
        (∀ site, w.valueAt site = t.world.valueAt site) ∧
        after = enter { t with world := w, journal := journal } id
          (.round c (.telling o.node c .delete [] name' deadline' .coming))) := by
  obtain ⟨n, hnode⟩ := hpair.exists_node ho
  intro after
  have hafter : after = sendAll id o c t later := rfl
  rw [hafter]
  rcases htells with ⟨haction, rfl⟩ | ⟨hdelete, rfl, rfl⟩
  · left
    exact ⟨haction, conclude_eq hpair hnode id c (.ok ())⟩
  · right
    obtain ⟨name', deadline', journal, hsend⟩ :=
      exists_sendAll_about hpair ho hnode id c .delete []
    exact ⟨hdelete, _, journal, name', deadline',
      hpair.hand hnode (.cacheUpdate (.about c.kind c.value .delete)),
      World.valueAt_update_hand hnode _, hsend⟩

/-- A visit that asked for its site and was not handed it is given up when the time of its round is
up, and its operation ends. -/
theorem expire_asked (hpair : t.world.Pair) (ho : o.node < 2) {id : Nat} {c : Change}
    {action : Action} {later : List CacheUpdate} {name : String} {deadline : Nat}
    (hphase : o.phase = .round c (.telling o.node c action later name deadline .asked))
    (htime : deadline ≤ t.clock)
    (haway : t.locks.isHanded (1 - o.node, c.subject) ⟨id, true⟩ = false) :
    t.expire id o =
      (t.leave (1 - o.node, c.subject) ⟨id, true⟩).finish id o c (.error .timeout) := by
  obtain ⟨n, hnode⟩ := hpair.exists_node ho
  have hup : (decide (deadline ≤ t.clock) &&
      !t.locks.isHanded (1 - o.node, c.subject) ⟨id, true⟩) = true := by
    rw [haway, decide_eq_true htime]
    rfl
  unfold expire
  rw [hphase]
  refine (if_pos hup).trans ?_
  exact conclude_eq (t := t.leave (1 - o.node, c.subject) ⟨id, true⟩) hpair hnode id c _

/-- Otherwise the operation goes on: its visit has not asked for its site yet, or was handed it. -/
theorem expire_telling (t : Traffic) (id : Nat) {c : Change} {action : Action}
    {later : List CacheUpdate} {name : String} {deadline : Nat} {stage : Stage}
    (hstage : stage ≠ .committed)
    (hphase : o.phase = .round c (.telling o.node c action later name deadline stage)) :
    t.expire id o = t ∨ (stage = .asked ∧ deadline ≤ t.clock ∧
      t.locks.isHanded (1 - o.node, c.subject) ⟨id, true⟩ = false) := by
  by_cases htime : deadline ≤ t.clock
  · cases stage with
    | committed => exact absurd rfl hstage
    | coming =>
      left
      unfold expire
      rw [hphase]
      show (if (_ && false) = true then _ else t) = t
      rw [Bool.and_false, if_neg Bool.false_ne_true]
    | asked =>
      cases hhanded : t.locks.isHanded (1 - o.node, c.subject) ⟨id, true⟩ with
      | false => exact .inr ⟨rfl, htime, rfl⟩
      | true =>
        left
        unfold expire
        rw [hphase]
        show (if (_ && !t.locks.isHanded (1 - o.node, c.subject) ⟨id, true⟩) = true then _ else t) =
          t
        rw [hhanded, Bool.not_true, Bool.and_false, if_neg Bool.false_ne_true]
  · left
    unfold expire
    rw [hphase]
    show (if (decide (deadline ≤ t.clock) && _) = true then _ else t) = t
    rw [decide_eq_false htime, Bool.false_and, if_neg Bool.false_ne_true]

end Traffic

end CloudRoster
