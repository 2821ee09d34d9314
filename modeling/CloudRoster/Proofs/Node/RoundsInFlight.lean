import CloudRoster.Proofs.Node.Linearization
import CloudRoster.Proofs.Node.Removal
import CloudRoster.Proofs.Node.RoundReports
import Mathlib.Data.List.Induction

/-!
# Rounds among other operations

The round of a local update visits its peers one after another, and between and during the visits
anything else may happen: peers change, their stores fail, visits wait for the peer to be done with
the same value. Every peer is visited all the same, after those before it, and replies as it does to
the message at that time. The result of the update is that of the report of all these replies, or
its time was up.

What an update has collected, and what it has changed at the peers, goes with its phase. Its own
steps are gone through case by case; the steps of others leave its phase alone and are noted of
others.
-/

namespace CloudRoster

/-- Peers have replied to a message in the course of a run: each after those before it, and as its
node replied at that time. -/
inductive Collected (w : World) (m : Message) :
    List Step → List (String × Nat) → List Message → Prop
  | start (steps : List Step) : Collected w m steps [] []
  | step {steps : List Step} {peers : List (String × Nat)} {replies : List Message} (step : Step)
      (h : Collected w m steps peers replies) : Collected w m (steps ++ [step]) peers replies
  | reply {steps : List Step} {peers : List (String × Nat)} {replies : List Message}
      (peer : String × Nat) (h : Collected w m steps peers replies) :
      Collected w m steps (peers ++ [peer])
        (replies ++ [(((Traffic.new w).run steps).world.receive peer.2 m).2])

namespace Collected

variable {w : World} {m : Message} {steps : List Step} {peers : List (String × Nat)}
  {replies : List Message}

/-- One reply for every peer. -/
theorem length_eq (h : Collected w m steps peers replies) : replies.length = peers.length := by
  induction h with
  | start => rfl
  | step _ _ ih => exact ih
  | reply _ _ ih => simp [ih]

/-- The report of those that have replied, with one more. -/
theorem count_reply (h : Collected w m steps peers replies) (total : Nat) (peer : String × Nat)
    (reply : Message) :
    (Report.among total (World.answers peers replies)).count peer.1 reply =
      .among total (World.answers (peers ++ [peer]) (replies ++ [reply])) := by
  rw [World.answers_append h.length_eq]
  exact Report.count_among ..

end Collected

/-! ## What stays of the nodes -/

/-- What no operation changes of a node. -/
def Node.setup (n : Node) : SyncConfig × Cache.Registry Kind × Broadcaster :=
  (n.config, n.registry, n.broadcaster)

/-- What a message asks of a node depends on nothing else. -/
theorem Node.arrival_congr {n n' : Node} (h : n'.setup = n.setup) (m : Message) :
    n'.arrival m = n.arrival m := by
  obtain ⟨hconfig, hrest⟩ := Prod.mk.inj h
  obtain ⟨hregistry, -⟩ := Prod.mk.inj hrest
  unfold arrival greet requestedChange
  rw [hconfig, hregistry]

/-- The nodes of a world are set up as those of another one. -/
def World.SetUpAs (w w' : World) : Prop :=
  ∀ j : Nat, (w'[j]?).map Node.setup = (w[j]?).map Node.setup

namespace World.SetUpAs

variable {w w' : World}

theorem update (h : w.SetUpAs w') {i : Nat} {n n' : Node} (hnode : w'[i]? = some n)
    (hsame : n'.setup = n.setup) : w.SetUpAs (w'.update i n') := by
  intro j
  by_cases hj : j = i
  · subst hj
    rw [getElem?_update_self hnode, ← h j, hnode]
    exact congrArg some hsame
  · rw [getElem?_update_of_ne w' hj, h j]

/-- Nodes that have continued are set up as before. -/
theorem of_serial {outcome : Nat → Except SyncError Report} {journal : Journal}
    (h : Serial outcome w w' journal) : w.SetUpAs w' := by
  intro j
  cases hj : w[j]? with
  | none =>
    have hbound : w'.length ≤ j := h.length ▸ List.getElem?_eq_none_iff.1 hj
    rw [List.getElem?_eq_none hbound]
  | some n =>
    obtain ⟨n', hn', hcontinues⟩ := h.node j n hj
    rw [hn']
    exact congrArg some
      (Prod.ext hcontinues.config (Prod.ext hcontinues.registry hcontinues.broadcaster))

/-- The same messages ask the same of all nodes. -/
theorem arrival (h : w.SetUpAs w') (m : Message) (j : Nat) :
    (w'[j]?).map (·.arrival m) = (w[j]?).map (·.arrival m) := by
  have hsame := h j
  cases hj : w[j]? with
  | none =>
    rw [hj] at hsame
    rw [Option.map_eq_none_iff.1 hsame]
  | some n =>
    rw [hj] at hsame
    obtain ⟨n', hn', hsame⟩ := Option.map_eq_some_iff.1 hsame
    rw [hn']
    exact congrArg some (Node.arrival_congr hsame m)

end World.SetUpAs

/-- A node that is asked for nothing replies at once, and the same at every time. -/
theorem World.receive_of_arrival {w : World} {m r : Message} {j : Nat}
    (h : (w[j]?).map (·.arrival m) = some (.reply r)) : (w.receive j m).2 = r := by
  obtain ⟨n, hn, harrived⟩ := Option.map_eq_some_iff.1 h
  rw [receive_of_some hn, Node.receive, harrived]

/-- A visit finds out what the message asks of the peer. -/
theorem Traffic.visit_eq (t : Traffic) (m : Message) (name : String) (j : Nat) :
    t.visit m name j = match (t.world[j]?).map (·.arrival m) with
      | none => .inl .ack
      | some (.reply r) => .inl r
      | some (.change c) => .inr ⟨name, j, c, .coming⟩ := by
  unfold visit
  cases t.world[j]? with
  | none => rfl
  | some n =>
    dsimp only [Option.map_some]
    cases n.arrival m <;> rfl

/-! ## What a round has collected -/

/-- The message of the update of a value. -/
abbrev Message.told (k : Kind) (v : k.Val) : Message := .cacheUpdate (.about k v .update)

/-- What is changed at peers that a message is brought to: each one that it asks for a change is
changed once, in order. -/
def changes (w : World) (m : Message) (peers : List (String × Nat)) : List (Site × Change) :=
  peers.filterMap fun peer =>
    match (w[peer.2]?).map fun n : Node => n.arrival m with
    | some (.change c) => some ((peer.2, c.subject), c)
    | _ => none

theorem changes_append (w : World) (m : Message) (peers later : List (String × Nat)) :
    changes w m (peers ++ later) = changes w m peers ++ changes w m later :=
  List.filterMap_append

/-- What an operation has changed on its visits. -/
def Traffic.made (t : Traffic) (id : Nat) : List (Site × Change) :=
  Journal.commits ⟨id, true⟩ t.journal

/-- What a round waits for that has collected replies: the next peer is visited, and asked for a
change. What was made before is the changes of the peers that have replied, and that of this peer
if only its store has still to be told. -/
def Awaited.Gathers (w : World) (m : Message) (steps : List Step) (peers : List (String × Nat))
    (made : List (Site × Change)) : Awaited → Prop
  | .outside => False
  | .visit v later report => (w[v.node]?).map (·.arrival m) = some (.change v.change) ∧
      ∃ before replies, peers = before ++ (v.name, v.node) :: later ∧
        Collected w m steps before replies ∧
        report = .among peers.length (World.answers before replies) ∧
        made = changes w m before ++ if v.stage = .committed then [(v.site, v.change)] else []

/-- The round of an operation was given up in the course of a run, when its time was up. -/
def TimedOut (w : World) (steps : List Step) (id : Nat) : Prop :=
  ∃ (before after : List Step) (o : Operation) (c : Change) (r : Round),
    steps = before ++ .expire id :: after ∧
      ((Traffic.new w).run before).operations[id]? = some o ∧ o.phase = .round c r ∧
      r.deadline ≤ ((Traffic.new w).run before).clock

theorem TimedOut.step {w : World} {steps : List Step} {id : Nat} (h : TimedOut w steps id)
    (step : Step) : TimedOut w (steps ++ [step]) id := by
  obtain ⟨before, after, o, c, r, rfl, hround⟩ := h
  exact ⟨before, after ++ [step], o, c, r, by rw [List.append_assoc, List.cons_append], hround⟩

/-- What a local update has come to with its round. -/
def Phase.Gathers (w : World) (k : Kind) (v : k.Val) (steps : List Step)
    (peers : List (String × Nat)) (id : Nat) (made : List (Site × Change)) : Phase → Prop
  | .fresh => made = []
  | .abandoned => True
  | .waiting c => c = .own k v ∧ made = []
  | .round c r => c = .own k v ∧ r.message = .about k v .update ∧ r.later = [] ∧
      r.awaited.Gathers w (.told k v) steps peers made
  | .storing _ _ => False
  | .ended e => e = .result (.error .timeout) ∧ TimedOut w steps id ∨ ∃ replies,
      Collected w (.told k v) steps peers replies ∧ made = changes w (.told k v) peers ∧
        e = .result (Report.ofReplies (World.answers peers replies)).result

/-- What was collected stays so. -/
theorem Phase.Gathers.step {w : World} {k : Kind} {v : k.Val} {steps : List Step}
    {peers : List (String × Nat)} {id : Nat} {made : List (Site × Change)} {p : Phase}
    (h : p.Gathers w k v steps peers id made) (step : Step) :
    p.Gathers w k v (steps ++ [step]) peers id made := by
  cases p with
  | round c r =>
    obtain ⟨hown, hmessage, hnone, hgathers⟩ := h
    refine ⟨hown, hmessage, hnone, ?_⟩
    cases hawaited : r.awaited with
    | outside =>
      rw [hawaited] at hgathers
      exact hgathers
    | visit v later report =>
      rw [hawaited] at hgathers
      obtain ⟨harrives, before, replies, hsplit, hcollected, hcounted⟩ := hgathers
      exact ⟨harrives, before, replies, hsplit, .step step hcollected, hcounted⟩
  | ended e =>
    rcases h with ⟨htimeout, hexpired⟩ | ⟨replies, hcollected, hresult⟩
    · exact .inl ⟨htimeout, hexpired.step step⟩
    · exact .inr ⟨replies, .step step hcollected, hresult⟩
  | _ => exact h

section Steps

variable {w : World} {k : Kind} {v : k.Val} {steps : List Step} {peers : List (String × Nat)}
  {m : Message} {made : List (Site × Change)} {t u : Traffic} {id : Nat} {o : Operation}

/-- A visit that is not committed yet may have got further, and has made nothing more. -/
theorem Awaited.Gathers.asked {visit : Visit} {later : List (String × Nat)} {report : Report}
    (h : (Awaited.visit visit later report).Gathers w m steps peers made)
    (hstage : visit.stage ≠ .committed) :
    (Awaited.visit { visit with stage := .asked } later report).Gathers w m steps peers made := by
  obtain ⟨harrives, before, replies, hsplit, hcollected, hcounted, rfl⟩ := h
  refine ⟨harrives, before, replies, hsplit, hcollected, hcounted, ?_⟩
  rw [if_neg hstage]
  rfl

/-- With its commit a visit has made its change. -/
theorem Awaited.Gathers.committed {visit : Visit} {later : List (String × Nat)} {report : Report}
    (h : (Awaited.visit visit later report).Gathers w m steps peers made)
    (hstage : visit.stage ≠ .committed) :
    (Awaited.visit { visit with stage := .committed } later report).Gathers w m steps peers
      (made ++ [(visit.site, visit.change)]) := by
  obtain ⟨harrives, before, replies, hsplit, hcollected, hcounted, rfl⟩ := h
  refine ⟨harrives, before, replies, hsplit, hcollected, hcounted, ?_⟩
  rw [if_neg hstage, List.append_nil]
  rfl

/-- Peers that are visited reply at once, or the round waits for one of them. -/
theorem gathers_visitAll (hnow : w.SetUpAs ((Traffic.new w).run steps).world)
    (hset : w.SetUpAs t.world) (later : List (String × Nat)) {before : List (String × Nat)}
    {replies : List Message} (hsplit : peers = before ++ later)
    (hcollected : Collected w m steps before replies) (hmade : made = changes w m before) :
    (∃ replies', Collected w m steps peers replies' ∧ made = changes w m peers ∧
      t.visitAll m later (.among peers.length (World.answers before replies)) =
        .inl (.ofReplies (World.answers peers replies'))) ∨
    ∃ a, t.visitAll m later (.among peers.length (World.answers before replies)) = .inr a ∧
      a.Gathers w m steps peers made := by
  induction later generalizing before replies with
  | nil =>
    rw [List.append_nil] at hsplit
    subst hsplit
    refine .inl ⟨replies, hcollected, hmade, ?_⟩
    rw [Report.ofReplies, World.length_answers hcollected.length_eq]
    rfl
  | cons peer later ih =>
    obtain ⟨name, j⟩ := peer
    have hsplit' : peers = before ++ [(name, j)] ++ later := by
      rw [hsplit, List.append_assoc]
      rfl
    -- a peer that replies at once does so at every time, and is not changed
    have hreplied (reply : Message)
        (hsame : (((Traffic.new w).run steps).world.receive j m).2 = reply)
        (hnone : changes w m [(name, j)] = []) :=
      ih hsplit' (hsame ▸ Collected.reply (name, j) hcollected)
        (by rw [changes_append, hnone, List.append_nil, hmade])
    unfold Traffic.visitAll
    rw [Traffic.visit_eq, hset.arrival m j]
    cases harrives : (w[j]?).map (·.arrival m) with
    | none =>
      have habsent : ((Traffic.new w).run steps).world[j]? = none := by
        rw [← hnow.arrival m j] at harrives
        exact Option.map_eq_none_iff.1 harrives
      dsimp only
      rw [hcollected.count_reply peers.length (name, j) .ack]
      exact hreplied .ack (by rw [World.receive_of_none habsent]) (by simp [changes, harrives])
    | some arrival =>
      cases arrival with
      | reply r =>
        dsimp only
        rw [hcollected.count_reply peers.length (name, j) r]
        exact hreplied r (World.receive_of_arrival ((hnow.arrival m j).trans harrives))
          (by simp [changes, harrives])
      | change c =>
        have hcoming : Stage.coming ≠ .committed := by decide
        refine .inr ⟨_, rfl, harrives, before, replies, hsplit, hcollected, rfl, ?_⟩
        rw [if_neg hcoming, List.append_nil, hmade]

/-! ## Steps of the update -/

/-- An operation enters a phase that goes with what it has made on its visits. -/
def Enters (P : List (Site × Change) → Phase → Prop) (id : Nat) (t t' : Traffic) : Prop :=
  ∃ (u : Traffic) (p : Phase), u.operations = t.operations ∧ t' = u.enter id p ∧ P (u.made id) p

theorem Enters.of_operations {P : List (Site × Change) → Phase → Prop} {t' : Traffic}
    (hsame : u.operations = t.operations) (h : Enters P id u t') : Enters P id t t' := by
  obtain ⟨u', p, hsame', hentered, hholds⟩ := h
  exact ⟨u', p, hsame'.trans hsame, hentered, hholds⟩

theorem Enters.mono {P Q : List (Site × Change) → Phase → Prop} {t' : Traffic}
    (h : Enters P id t t') (hle : ∀ made p, P made p → Q made p) : Enters Q id t t' := by
  obtain ⟨u, p, hsame, hentered, hholds⟩ := h
  exact ⟨u, p, hsame, hentered, hle _ p hholds⟩

theorem enters_finish {P : List (Site × Change) → Phase → Prop}
    (htask : o.task = .change (.own k v)) {result : Except SyncError Unit}
    (hholds : P (t.made id) (.ended (.result result))) :
    Enters P id t (t.finish id o (.own k v) result) := by
  refine ⟨t.release (o.node, (Change.own k v).subject) ⟨id, false⟩, _, rfl, ?_, hholds⟩
  unfold Traffic.finish
  rw [htask]
  rfl

/-- The list's own update ends with its round, since it tells no store. -/
theorem afterRound_own (t : Traffic) (id : Nat) (o : Operation) (k : Kind) (v : k.Val)
    (outcome : Except SyncError Report) :
    t.afterRound id o (.own k v) [] outcome =
      t.finish id o (.own k v) (outcome.bind Report.result) := by
  have hconclude (result : Except SyncError Unit) :
      t.conclude id o (.own k v) result = t.finish id o (.own k v) result := by
    unfold Traffic.conclude
    rw [if_neg]
    cases t.world[o.node]? <;> simp [Node.storeFor?]
  unfold Traffic.afterRound
  split
  · next hok =>
    rw [hok]
    exact hconclude (.ok ())
  · next hfailed =>
    rw [hfailed]
    exact hconclude _

/-- The reply of the peer that a round waited for takes the round on. -/
theorem enters_afterReply (hnow : w.SetUpAs ((Traffic.new w).run steps).world)
    (hset : w.SetUpAs t.world) (htask : o.task = .change (.own k v)) {r : Round} {visit : Visit}
    {later : List (String × Nat)} {report : Report} (hmessage : r.message = .about k v .update)
    (hnone : r.later = []) (hgathers : (Awaited.visit { visit with stage := .committed } later
      report).Gathers w (.told k v) steps peers (t.made id)) :
    Enters (Phase.Gathers w k v steps peers id) id t (t.afterVisit id o (.own k v) r later report
      visit.name (.inl (((Traffic.new w).run steps).world.receive visit.node (.told k v)).2)) := by
  obtain ⟨harrives, before, replies, hsplit, hcollected, rfl, hmade⟩ := hgathers
  have hcollected' := Collected.reply (visit.name, visit.node) hcollected
  have hsplit' : peers = before ++ [(visit.name, visit.node)] ++ later := by
    rw [hsplit, List.append_assoc]
    rfl
  have hmade' : t.made id = changes w (.told k v) (before ++ [(visit.name, visit.node)]) := by
    have hchange : changes w (.told k v) [(visit.name, visit.node)] =
        [(visit.site, visit.change)] := by
      simp only [changes, List.filterMap_cons, List.filterMap_nil, harrives]
      rfl
    rw [hmade, changes_append, hchange]
    rfl
  unfold Traffic.afterVisit
  dsimp only
  rw [hmessage, hnone, hcollected.count_reply peers.length (visit.name, visit.node)]
  rcases gathers_visitAll hnow hset later hsplit' hcollected' hmade' with
    ⟨replies', hwhole, hdone, hended⟩ | ⟨a, hwaits, hgathers⟩
  · rw [hended]
    dsimp only
    rw [afterRound_own]
    exact enters_finish htask (.inr ⟨replies', hwhole, hdone, rfl⟩)
  · rw [hwaits]
    exact ⟨t, _, rfl, rfl, rfl, rfl, rfl, hgathers⟩

/-- The commit of an update changes nothing of the set-up. -/
theorem commit_update (n : Node) (k : Kind) (v : k.Val) :
    ∃ n', n.commit (.asked k v .update) = .ok (n', n.outbox (.asked k v .update)) ∧
      n'.setup = n.setup := by
  obtain ⟨bus, hcommitted⟩ := Node.commit_of_guard (n.guard_update k v true true)
  exact ⟨_, hcommitted, rfl⟩

/-- The reply to a change is what the store says of it once it is committed. -/
theorem receive_of_commit {n n' : Node} {c : Change} {outbox : List CacheUpdate}
    (harrives : n.arrival m = .change c) (hcommitted : n.commit c = .ok (n', outbox)) :
    (n.receive m).2 = Node.replyTo (n'.persist c (.ok ())).2 := by
  unfold Node.receive Node.carryOut
  rw [harrives]
  simp only [hcommitted]

/-- What a store says of a change does not depend on the lists. -/
theorem persist_of_commit {n n' : Node} {c : Change} {outbox : List CacheUpdate}
    (hcommitted : n.commit c = .ok (n', outbox)) :
    (n'.persist c (.ok ())).2 = (n.persist c (.ok ())).2 := by
  obtain ⟨-, commit, -, rfl, -⟩ := Node.commit_cases hcommitted
  unfold Node.persist
  have hsame : Node.storeFor? { n with
      lists := n.lists.set c.kind commit.entries
      bus := n.bus.publishAll commit.events } c (.ok ()) = n.storeFor? c (.ok ()) := rfl
  rw [hsame]
  cases n.storeFor? c (.ok ()) <;> rfl

/-- What the message of an update asks for. -/
theorem asked_of_arrival {n : Node} {c : Change} (h : n.arrival (.told k v) = .change c) :
    c = .asked k v .update := by
  rcases n.arrival_about_cases k v .update with ⟨r, hreplies⟩ | hasks
  · cases hreplies.symm.trans h
  · exact (Arrival.change.inj (hasks.symm.trans h)).symm

/-- A visit that has its site makes its change: the peer has replied, or has still to tell its
store. -/
theorem commitVisit_cases (id : Nat) (hset : w.SetUpAs t.world) {visit : Visit}
    (harrives : (w[visit.node]?).map (·.arrival (.told k v)) = some (.change visit.change)) :
    ∃ u, u.operations = t.operations ∧ w.SetUpAs u.world ∧
      u.made id = t.made id ++ [(visit.site, visit.change)] ∧
      (t.commitVisit id visit = (u, .inl (t.world.receive visit.node (.told k v)).2) ∨
        t.commitVisit id visit = (u, .inr { visit with stage := .committed })) := by
  rw [← hset.arrival] at harrives
  obtain ⟨n, hn, harrival⟩ := Option.map_eq_some_iff.1 harrives
  obtain ⟨n', hcommitted, hsame⟩ := commit_update n k v
  rw [← asked_of_arrival harrival] at hcommitted
  have hset' := hset.update hn hsame
  let done := (t.setNode visit.node n').note (.committed visit.site ⟨id, true⟩ visit.change)
  have hmade : done.made id = t.made id ++ [(visit.site, visit.change)] :=
    (Journal.commits_append _).trans (congrArg _ (Journal.commits_committed ..))
  unfold Traffic.commitVisit
  simp only [hn, hcommitted]
  split
  · exact ⟨done, rfl, hset', hmade, .inr rfl⟩
  · next hnone =>
    refine ⟨done.release visit.site ⟨id, true⟩, rfl, hset', hmade, .inl ?_⟩
    have huntold : (n'.persist visit.change (.ok ())).2 = .ok () := by
      unfold Node.persist
      rw [Option.not_isSome_iff_eq_none.1 hnone]
    rw [World.receive_of_some hn, receive_of_commit harrival hcommitted, huntold]
    rfl

/-- A round goes on after a visit that had its site, or waits for the store of the peer. -/
theorem enters_commitVisit (hnow : w.SetUpAs ((Traffic.new w).run steps).world)
    (hsame : t.world = ((Traffic.new w).run steps).world) (htask : o.task = .change (.own k v))
    {r : Round} {visit : Visit} {later : List (String × Nat)} {report : Report}
    (hstage : visit.stage ≠ .committed) (hmessage : r.message = .about k v .update)
    (hnone : r.later = [])
    (hgathers : (Awaited.visit visit later report).Gathers w (.told k v) steps peers (t.made id)) :
    Enters (Phase.Gathers w k v steps peers id) id t ((t.commitVisit id visit).1.afterVisit id o
      (.own k v) r later report visit.name (t.commitVisit id visit).2) := by
  obtain ⟨u, hops, hset, hmade, hreplied | hwaits⟩ :=
    commitVisit_cases id (hsame ▸ hnow) hgathers.1
  · rw [hreplied, hsame]
    exact .of_operations hops
      (enters_afterReply hnow hset htask hmessage hnone (hmade ▸ hgathers.committed hstage))
  · rw [hwaits]
    exact ⟨u, _, hops, rfl, rfl, hmessage, hnone, hmade ▸ hgathers.committed hstage⟩

/-- The store of a peer does its part, and the peer replies. -/
theorem enters_persist (hnow : w.SetUpAs ((Traffic.new w).run steps).world)
    (hsame : t.world = ((Traffic.new w).run steps).world) {visit : Visit} {n : Node}
    (hn : t.world[visit.node]? = some n) (htask : o.task = .change (.own k v))
    {r : Round} {later : List (String × Nat)} {report : Report}
    (hstage : visit.stage = .committed) (hmessage : r.message = .about k v .update)
    (hnone : r.later = [])
    (hgathers : (Awaited.visit visit later report).Gathers w (.told k v) steps peers (t.made id)) :
    Enters (Phase.Gathers w k v steps peers id) id t
      (((t.setNode visit.node (n.persist visit.change (.ok ())).1).release visit.site
        ⟨id, true⟩).afterVisit id o (.own k v) r later report visit.name
          (.inl (Node.replyTo (n.persist visit.change (.ok ())).2))) := by
  have hset : w.SetUpAs t.world := hsame ▸ hnow
  have harrives := hgathers.1
  rw [← hset.arrival, hn] at harrives
  have harrival : n.arrival (.told k v) = .change visit.change := Option.some.inj harrives
  obtain ⟨n', hcommitted, -⟩ := commit_update n k v
  rw [← asked_of_arrival harrival] at hcommitted
  have hreplied : (((Traffic.new w).run steps).world.receive visit.node (.told k v)).2 =
      Node.replyTo (n.persist visit.change (.ok ())).2 := by
    rw [World.receive_of_some (hsame ▸ hn), receive_of_commit harrival hcommitted,
      persist_of_commit hcommitted]
  have hsetup : (n.persist visit.change (.ok ())).1.setup = n.setup := by
    obtain ⟨groups, templates, hstored⟩ := n.persist_eq visit.change (.ok ())
    rw [hstored]
    rfl
  have hkept : { visit with stage := .committed } = visit := by rw [← hstage]
  rw [← hreplied]
  let u := (t.setNode visit.node (n.persist visit.change (.ok ())).1).release visit.site ⟨id, true⟩
  exact .of_operations (u := u) rfl
    (enters_afterReply (t := u) hnow (hset.update hn hsetup) htask hmessage hnone
      (hkept ▸ hgathers))

/-- `claim` changes no operation and no node, and commits nothing. -/
theorem claim_keeps (id : Nat) {site : Site} {who : Claimant} {got : Bool}
    (h : t.claim site who = (u, got)) :
    u.operations = t.operations ∧ u.world = t.world ∧ u.made id = t.made id := by
  obtain rfl : u = (t.claim site who).1 := by rw [h]
  exact ⟨rfl, rfl, (Journal.commits_append _).trans (List.append_nil _)⟩

/-- A visit asks for its site. -/
theorem enters_askVisit (hnow : w.SetUpAs ((Traffic.new w).run steps).world)
    (hsame : t.world = ((Traffic.new w).run steps).world) (htask : o.task = .change (.own k v))
    {r : Round} {visit : Visit} {later : List (String × Nat)} {report : Report}
    (hstage : visit.stage ≠ .committed) (hmessage : r.message = .about k v .update)
    (hnone : r.later = [])
    (hgathers : (Awaited.visit visit later report).Gathers w (.told k v) steps peers (t.made id)) :
    Enters (Phase.Gathers w k v steps peers id) id t ((t.askVisit id visit).1.afterVisit id o
      (.own k v) r later report visit.name (t.askVisit id visit).2) := by
  unfold Traffic.askVisit
  cases hasked : t.claim visit.site ⟨id, true⟩ with
  | mk u got =>
    obtain ⟨hops, hworld, hmade⟩ := claim_keeps id hasked
    cases got with
    | true =>
      exact .of_operations hops
        (enters_commitVisit hnow (hworld.trans hsame) htask hstage hmessage hnone
          (hmade ▸ hgathers))
    | false => exact ⟨u, _, hops, rfl, rfl, hmessage, hnone, hmade ▸ hgathers.asked hstage⟩

/-- The last message of a change is handed to the loopback, which visits the peers. -/
theorem sendAll_loopback {c : Change} {n : Node} (hnode : t.world[o.node]? = some n)
    (hloopback : n.broadcaster = .loopback peers) (message : CacheUpdate) :
    let handed := (t.setNode o.node (n.hand (.cacheUpdate message))).note
      (.handed (o.node, c.subject) id message)
    Traffic.sendAll id o c t [message] =
      match handed.visitAll (.cacheUpdate message) peers ⟨peers.length, 0, []⟩ with
      | .inl r => handed.afterRound id o c [] (.ok r)
      | .inr a => handed.enter id (.round c ⟨message, handed.deadline o.node, a, []⟩) := by
  intro handed
  unfold Traffic.sendAll Traffic.sendOne
  simp only [hnode, hloopback]
  cases handed.visitAll (.cacheUpdate message) peers ⟨peers.length, 0, []⟩ <;> rfl

/-- The message of an update is brought to the peers. -/
theorem enters_sendAll (hnow : w.SetUpAs ((Traffic.new w).run steps).world)
    (hset : w.SetUpAs t.world) (htask : o.task = .change (.own k v)) {n : Node}
    (hnode : t.world[o.node]? = some n) (hloopback : n.broadcaster = .loopback peers)
    (hmade : t.made id = []) :
    Enters (Phase.Gathers w k v steps peers id) id t
      (Traffic.sendAll id o (.own k v) t [.about k v .update]) := by
  let u := (t.setNode o.node (n.hand (.told k v))).note
    (.handed (o.node, (Change.own k v).subject) id (.about k v .update))
  have hset' : w.SetUpAs u.world := hset.update hnode rfl
  have hmade' : u.made id = [] :=
    (Journal.commits_append _).trans ((List.append_nil _).trans hmade)
  rw [sendAll_loopback hnode hloopback]
  rcases gathers_visitAll (m := .told k v) hnow hset' peers rfl (.start steps) hmade' with
    ⟨replies, hwhole, hdone, hended⟩ | ⟨a, hwaits, hgathers⟩
  · have hround : u.visitAll (.told k v) peers ⟨peers.length, 0, []⟩ =
        .inl (.ofReplies (World.answers peers replies)) := hended
    simp only [u] at hround
    rw [hround]
    show Enters _ id t (u.afterRound id o (.own k v) [] (.ok (.ofReplies _)))
    rw [afterRound_own]
    exact .of_operations (u := u) rfl (enters_finish htask (.inr ⟨replies, hwhole, hdone, rfl⟩))
  · have hround : u.visitAll (.told k v) peers ⟨peers.length, 0, []⟩ = .inr a := hwaits
    simp only [u] at hround
    rw [hround]
    exact ⟨u, _, rfl, rfl, rfl, rfl, rfl, hgathers⟩

/-- The update is carried out: it is committed, and its message brought to the peers. -/
theorem enters_carryOut (hnow : w.SetUpAs ((Traffic.new w).run steps).world)
    (hsame : t.world = ((Traffic.new w).run steps).world) (htask : o.task = .change (.own k v))
    {n : Node} (hnode : w[o.node]? = some n) (hloopback : n.broadcaster = .loopback peers)
    (hspreads : n.spreads k = true) (hmade : t.made id = []) :
    Enters (Phase.Gathers w k v steps peers id) id t (t.carryOut id o (.own k v)) := by
  have hset : w.SetUpAs t.world := hsame ▸ hnow
  -- the node of the update is set up as in the beginning
  obtain ⟨n₁, hn₁, hsetup₁⟩ : ∃ n₁, t.world[o.node]? = some n₁ ∧ n₁.setup = n.setup := by
    have hhome := hset o.node
    rw [hnode] at hhome
    exact Option.map_eq_some_iff.1 hhome
  have hconfig₁ : n₁.config = n.config := congrArg (·.1) hsetup₁
  have hbroadcaster₁ : n₁.broadcaster = n.broadcaster := congrArg (·.2.2) hsetup₁
  have hspreads₁ : n₁.spreads k = true := by
    unfold Node.spreads at hspreads ⊢
    rw [hconfig₁]
    exact hspreads
  obtain ⟨n₂, hcommitted, -, hconfig₂, hregistry₂, hbroadcaster₂⟩ := Node.commit_own hspreads₁ v
  have hsetup₂ : n₂.setup = n₁.setup := Prod.ext hconfig₂ (Prod.ext hregistry₂ hbroadcaster₂)
  let u := (t.setNode o.node n₂).note
    (.committed (o.node, (Change.own k v).subject) ⟨id, false⟩ (.own k v))
  have hmade' : u.made id = [] := by
    refine (Journal.commits_append _).trans ?_
    rw [Journal.commits_committed_of_ne (by simp), List.append_nil]
    exact hmade
  have hsent := enters_sendAll hnow (hset.update hn₁ hsetup₂) htask
    (World.getElem?_update_self hn₁ n₂) (hbroadcaster₂.trans (hbroadcaster₁.trans hloopback)) hmade'
  unfold Traffic.carryOut
  simp only [hn₁, hcommitted]
  exact .of_operations (u := u) rfl hsent

/-- The update asks for its site, and is carried out if the site is free. -/
theorem enters_request (hnow : w.SetUpAs ((Traffic.new w).run steps).world)
    (hsame : t.world = ((Traffic.new w).run steps).world) (htask : o.task = .change (.own k v))
    {n : Node} (hnode : w[o.node]? = some n) (hloopback : n.broadcaster = .loopback peers)
    (hspreads : n.spreads k = true) (hmade : t.made id = []) :
    Enters (Phase.Gathers w k v steps peers id) id t (t.request id o (.own k v)) := by
  unfold Traffic.request
  cases hasked : t.claim (o.node, (Change.own k v).subject) ⟨id, false⟩ with
  | mk u got =>
    obtain ⟨hops, hworld, hsame_made⟩ := claim_keeps id hasked
    cases got with
    | true =>
      exact .of_operations hops (enters_carryOut hnow (hworld.trans hsame) htask hnode hloopback
        hspreads (hsame_made.trans hmade))
    | false => exact ⟨u, _, hops, rfl, rfl, hsame_made.trans hmade⟩

/-- Giving up what a round waits for leaves all operations in their phases. -/
theorem operations_giveUp (t : Traffic) (id : Nat) (a : Awaited) :
    (t.giveUp id a).operations = t.operations := by
  unfold Traffic.giveUp
  split
  · rfl
  · split <;> rfl

/-- What becomes of the update in a step of its own while a round is on: only a round whose time is
up ends with that. -/
theorem round_step (hnow : w.SetUpAs ((Traffic.new w).run steps).world)
    (hrun : t = (Traffic.new w).run steps) {step : Step} (hid : step.operation? = some id)
    {home deadline : Nat} {visit : Visit} {later : List (String × Nat)} {report : Report}
    (hop : t.operations[id]? = some ⟨home, .change (.own k v), .round (.own k v)
      ⟨.about k v .update, deadline, .visit visit later report, []⟩⟩)
    (hgathers : (Awaited.visit visit later report).Gathers w (.told k v) steps peers (t.made id)) :
    t.step step = t ∨
      Enters (Phase.Gathers w k v (steps ++ [step]) peers id) id t (t.step step) := by
  have hsame : t.world = ((Traffic.new w).run steps).world := by rw [hrun]
  have hgoesOn {t' : Traffic} (h : Enters (Phase.Gathers w k v steps peers id) id t t') :
      Enters (Phase.Gathers w k v (steps ++ [step]) peers id) id t t' :=
    h.mono fun _ _ hholds => hholds.step step
  cases step with
  | start | tick => cases hid
  | poll =>
    cases hid
    simp only [Traffic.step, hop, Option.elim_some, Traffic.poll]
    split
    · next hcoming =>
      exact .inr (hgoesOn
        (enters_askVisit hnow hsame rfl (by rw [hcoming]; decide) rfl rfl hgathers))
    · next hasked =>
      split
      · exact .inr (hgoesOn (.of_operations (u := t.pickUp visit.site ⟨id, true⟩) rfl
          (enters_commitVisit (t := t.pickUp visit.site ⟨id, true⟩) hnow hsame rfl
            (by rw [hasked]; decide) rfl rfl hgathers)))
      · exact .inl rfl
    · exact .inl rfl
  | answer =>
    cases hid
    simp only [Traffic.step, hop, Option.elim_some, Traffic.answer, true_or]
  | persist =>
    cases hid
    simp only [Traffic.step, hop, Option.elim_some, Traffic.persist]
    split
    · next hcommitted =>
      split
      · exact .inl rfl
      · next hn =>
        exact .inr (hgoesOn (enters_persist hnow hsame hn rfl hcommitted rfl rfl hgathers))
    · exact .inl rfl
  | expire =>
    cases hid
    simp only [Traffic.step, hop, Option.elim_some, Traffic.expire]
    split
    · next hlate =>
      have hexpired : TimedOut w (steps ++ [.expire id]) id := by
        rw [Bool.and_eq_true, decide_eq_true_eq] at hlate
        exact ⟨steps, [], _, _, _, rfl, hrun ▸ hop, rfl, hrun ▸ hlate.1⟩
      rw [afterRound_own]
      exact .inr (.of_operations (operations_giveUp t id _)
        (enters_finish rfl (.inl ⟨rfl, hexpired⟩)))
    · exact .inl rfl
  | abandon =>
    cases hid
    simp only [Traffic.step, hop, Option.elim_some, Traffic.abandon]
    exact .inr (.of_operations (operations_giveUp t id _)
      ⟨(t.giveUp id _).release _ ⟨id, false⟩, .abandoned, rfl, rfl, trivial⟩)

/-- What becomes of the update in a step of its own: nothing, or it goes on collecting. -/
theorem own_step (hnow : w.SetUpAs ((Traffic.new w).run steps).world)
    (hrun : t = (Traffic.new w).run steps) {step : Step} (hid : step.operation? = some id)
    (hop : t.operations[id]? = some o) (htask : o.task = .change (.own k v)) {n : Node}
    (hnode : w[o.node]? = some n)
    (hloopback : n.broadcaster = .loopback peers) (hspreads : n.spreads k = true)
    (hgathers : o.phase.Gathers w k v steps peers id (t.made id)) :
    t.step step = t ∨
      Enters (Phase.Gathers w k v (steps ++ [step]) peers id) id t (t.step step) := by
  have hsame : t.world = ((Traffic.new w).run steps).world := by rw [hrun]
  have hgoesOn {t' : Traffic} (h : Enters (Phase.Gathers w k v steps peers id) id t t') :
      Enters (Phase.Gathers w k v (steps ++ [step]) peers id) id t t' :=
    h.mono fun _ _ hholds => hholds.step step
  obtain ⟨home, task', phase⟩ := o
  dsimp only at htask hnode hgathers
  subst htask
  cases phase with
  | storing c result => exact hgathers.elim
  | ended e | abandoned => exact .inl (step_of_isOver hid hop rfl)
  | fresh =>
    cases step with
    | start | tick => cases hid
    | poll =>
      cases hid
      simp only [Traffic.step, hop, Option.elim_some, Traffic.poll, Traffic.begin]
      exact .inr (hgoesOn (enters_request hnow hsame rfl hnode hloopback hspreads hgathers))
    | abandon =>
      cases hid
      simp only [Traffic.step, hop, Option.elim_some, Traffic.abandon]
      exact .inr ⟨t, .abandoned, rfl, rfl, trivial⟩
    | answer | persist | expire =>
      cases hid
      simp only [Traffic.step, hop, Option.elim_some, Traffic.answer, Traffic.persist,
        Traffic.expire, true_or]
  | waiting c =>
    obtain ⟨rfl, hmade⟩ := hgathers
    cases step with
    | start | tick => cases hid
    | poll =>
      cases hid
      simp only [Traffic.step, hop, Option.elim_some, Traffic.poll]
      split
      · exact .inr (hgoesOn (.of_operations (u := t.pickUp _ ⟨id, false⟩) rfl
          (enters_carryOut hnow hsame rfl hnode hloopback hspreads hmade)))
      · exact .inl rfl
    | abandon =>
      cases hid
      simp only [Traffic.step, hop, Option.elim_some, Traffic.abandon]
      exact .inr ⟨t.leave _ ⟨id, false⟩, .abandoned, rfl, rfl, trivial⟩
    | answer | persist | expire =>
      cases hid
      simp only [Traffic.step, hop, Option.elim_some, Traffic.answer, Traffic.persist,
        Traffic.expire, true_or]
  | round c r =>
    obtain ⟨rfl, hmessage, hnone, hgathers⟩ := hgathers
    obtain ⟨u, deadline, awaited, later⟩ := r
    dsimp only at hmessage hnone hgathers
    subst hmessage hnone
    cases awaited with
    | outside => exact hgathers.elim
    | visit visit later report => exact round_step hnow hrun hid hop hgathers

end Steps

/-! ## Runs -/

/-- What an operation has come to, if it is the update of a list of a node; one that has not been
started has made nothing. -/
def Traffic.Gathers (t : Traffic) (w : World) (i : Nat) (k : Kind) (v : k.Val) (steps : List Step)
    (peers : List (String × Nat)) (id : Nat) : Prop :=
  match t.operations[id]? with
  | none => t.made id = []
  | some o => o.node = i → o.task = .change (.own k v) →
    o.phase.Gathers w k v steps peers id (t.made id)

section Runs

variable {w : World} {k : Kind} {v : k.Val} {peers : List (String × Nat)} {n : Node} {i id : Nat}
  {steps : List Step}

/-- Where the operation is left alone, what it has collected stays so. -/
theorem Traffic.Gathers.kept {t t' : Traffic} (h : t.Gathers w i k v steps peers id)
    (hsame : t'.operations[id]? = t.operations[id]?) (hmade : t'.made id = t.made id)
    (step : Step) :
    t'.Gathers w i k v (steps ++ [step]) peers id := by
  unfold Gathers at h ⊢
  rw [hsame, hmade]
  cases hop : t.operations[id]? with
  | none =>
    rw [hop] at h
    exact h
  | some o =>
    rw [hop] at h
    exact fun hhome htask => (h hhome htask).step step

/-- A new operation has made nothing. -/
theorem Traffic.Gathers.start {t : Traffic} (h : t.Gathers w i k v steps peers id) (node : Nat)
    (task : Task) :
    (t.step (.start node task)).Gathers w i k v (steps ++ [.start node task]) peers id := by
  rcases Nat.lt_trichotomy id t.operations.length with hknown | rfl | hlater
  · have hsame : (t.step (.start node task)).operations[id]? = t.operations[id]? :=
      List.getElem?_append_left hknown
    exact h.kept hsame rfl _
  · unfold Gathers at h ⊢
    rw [List.getElem?_eq_none (Nat.le_refl _)] at h
    have hstarted : (t.step (.start node task)).operations[t.operations.length]? =
        some ⟨node, task, .fresh⟩ := List.getElem?_concat_length ..
    rw [hstarted]
    exact fun _ _ => h
  · have hsame : (t.step (.start node task)).operations[id]? = t.operations[id]? := by
      rw [List.getElem?_eq_none (Nat.le_of_lt hlater)]
      exact List.getElem?_eq_none (Nat.le_trans (Nat.le_of_eq List.length_append) hlater)
    exact h.kept hsame rfl _

/-- Every step of a run keeps it so. -/
theorem gathers_step {x : Scene} {step : Step} (hnow : w.SetUpAs ((Traffic.new w).run steps).world)
    (hsame : x.traffic = (Traffic.new w).run steps) (hsound : Sound x) (hnode : w[i]? = some n)
    (hloopback : n.broadcaster = .loopback peers) (hspreads : n.spreads k = true)
    (h : x.traffic.Gathers w i k v steps peers id) :
    (x.traffic.step step).Gathers w i k v (steps ++ [step]) peers id := by
  rcases step_cases step hsound.allows with
    ⟨node, task, rfl⟩ | ⟨ms, rfl⟩ | ⟨id', hid, heq | ⟨old, hold, -, hgoes⟩⟩
  · exact h.start node task
  · exact h.kept rfl rfl _
  · exact h.kept (by rw [heq]) (by rw [heq]) _
  · obtain ⟨y, p, hmoves, -, heq⟩ := exists_moves hgoes
    by_cases hown : id' = id
    · subst hown
      have hop : (x.traffic.step step).operations[id']? = some { old with phase := p } := by
        rw [heq]
        exact Traffic.getElem?_enter_self hmoves.frame.1 hold p
      unfold Traffic.Gathers at h ⊢
      rw [hold] at h
      rw [hop]
      intro hhome htask
      rcases own_step hnow hsame hid hold htask (hhome ▸ hnode) hloopback hspreads
        (h hhome htask) with hstays | ⟨u, p', hops, hentered, hholds⟩
      · rw [hstays, hold] at hop
        rw [hstays, ← Option.some.inj hop]
        exact (h hhome htask).step step
      · have hphase : some { old with phase := p } = some { old with phase := p' } := by
          rw [← hop, hentered]
          exact Traffic.getElem?_enter_self hops hold p'
        rw [Option.some.inj hphase, hentered]
        exact hholds
    · -- another operation has taken a step
      obtain ⟨notes, hjournal, hsilent⟩ := hmoves.exists_notes
      refine h.kept ?_ ?_ _
      · rw [heq]
        show (y.traffic.operations.modify id' _)[id]? = _
        rw [hmoves.frame.1, List.getElem?_modify_ne _ _ hown]
      · have hjournal' : (x.traffic.step step).journal = x.traffic.journal ++ notes :=
          heq ▸ hjournal
        unfold Traffic.made
        rw [hjournal', Journal.commits_append, hsilent ⟨id, true⟩ (Ne.symm hown), List.append_nil]

/-- What an update has come to, at every time of every run. -/
theorem gathers_run (hnode : w[i]? = some n) (hloopback : n.broadcaster = .loopback peers)
    (hspreads : n.spreads k = true) (v : k.Val) (steps : List Step) (id : Nat) :
    ((Traffic.new w).run steps).Gathers w i k v steps peers id := by
  induction steps using List.reverseRecOn with
  | nil => rfl
  | append_singleton steps step ih =>
    obtain ⟨standing, hsound, hledger⟩ := exists_ledger (fun _ => .ok .empty) w steps
    rw [run_concat]
    exact gathers_step (.of_serial hledger.serial) rfl hsound hnode hloopback hspreads ih

/-- An update that has ended was committed, and its result is that of the report of all replies, or
its time was up. -/
theorem reports_of_ended (hnode : w[i]? = some n) (hloopback : n.broadcaster = .loopback peers)
    (hspreads : n.spreads k = true) {o : Operation} {e : Outcome}
    (hop : ((Traffic.new w).run steps).operations[id]? = some o) (hhome : o.node = i)
    (htask : o.task = .change (.own k v)) (hended : o.phase = .ended e) :
    Journal.commits ⟨id, false⟩ ((Traffic.new w).run steps).journal =
        [((i, (Change.own k v).subject), .own k v)] ∧
      (e = .result (.error .timeout) ∧ TimedOut w steps id ∨
        ∃ replies, Collected w (.told k v) steps peers replies ∧
          ((Traffic.new w).run steps).made id = changes w (.told k v) peers ∧
          e = .result (Report.ofReplies (World.answers peers replies)).result) := by
  have hgathers := gathers_run hnode hloopback hspreads v steps id
  unfold Traffic.Gathers at hgathers
  rw [hop] at hgathers
  have hresult := hgathers hhome htask
  rw [hended] at hresult
  refine ⟨?_, hresult⟩
  obtain ⟨standing, hsound, hledger⟩ := exists_ledger (fun _ => .ok .empty) w steps
  have hcommits := commits_of_ledger hsound hledger hop
  unfold Operation.Commits at hcommits
  rw [hended, htask] at hcommits
  rcases hcommits with ⟨c, hcommits, rfl⟩ | ⟨-, hrefused⟩
  · rw [hcommits, hhome]
  · -- an update is not refused
    obtain ⟨group, services, rfl⟩ := hrefused (hhome ▸ (List.getElem?_eq_some_iff.1 hnode).1)
    rcases hresult with ⟨htimeout, -⟩ | ⟨replies, -, -, hresult⟩
    · cases htimeout
    · unfold Report.result at hresult
      split at hresult <;> cases hresult

end Runs

/-! ## An update whose first peer has lost its store -/

section

variable {t : Traffic} {id : Nat} {o : Operation} {c asked : Change} {n x : Node}
  {name : String} {j : Nat} {later : List (String × Nat)}

/-- A peer that is asked for a change is the one that the visits wait for. -/
theorem visitAll_asked {m : Message} (hx : t.world[j]? = some x)
    (hasks : x.arrival m = .change asked) (name : String) (later : List (String × Nat))
    (r : Report) :
    t.visitAll m ((name, j) :: later) r = .inr (.visit ⟨name, j, asked, .coming⟩ later r) := by
  unfold Traffic.visitAll Traffic.visit
  simp only [hx, hasks]

/-- A round whose first peer is asked for a change waits for that peer. -/
theorem sendAll_asked (id : Nat) (c : Change) (message : CacheUpdate)
    (hnode : t.world[o.node]? = some n)
    (hloopback : n.broadcaster = .loopback ((name, j) :: later)) :
    let handed := (t.setNode o.node (n.hand (.cacheUpdate message))).note
      (.handed (o.node, c.subject) id message)
    handed.world[j]? = some x → x.arrival (.cacheUpdate message) = .change asked →
      Traffic.sendAll id o c t [message] = handed.enter id (.round c ⟨message,
        handed.deadline o.node,
        .visit ⟨name, j, asked, .coming⟩ later ⟨later.length + 1, 0, []⟩, []⟩) := by
  intro handed hx hasks
  have hvisits := visitAll_asked hx hasks name later ⟨later.length + 1, 0, []⟩
  rw [sendAll_loopback hnode hloopback]
  simp only [List.length_cons]
  simp only [handed] at hvisits
  rw [hvisits]

/-- A round goes on to the next peer, and waits for it if that is asked for a change. -/
theorem afterVisit_asked {r : Round} (hx : t.world[j]? = some x)
    (hasks : x.arrival (.cacheUpdate r.message) = .change asked) (report : Report)
    (visited : String) (reply : Message) :
    t.afterVisit id o c r ((name, j) :: later) report visited (.inl reply) =
      t.enter id (.round c { r with
        awaited := .visit ⟨name, j, asked, .coming⟩ later (report.count visited reply) }) := by
  unfold Traffic.afterVisit
  simp only [visitAll_asked hx hasks]

end

namespace Lobby

/-- What the store answers whose directory is gone. -/
def lostFile : SyncError :=
  .persistence "groups/lobby.json: No such file or directory (os error 2)"

/-- What an update of the group comes to if the store of the first peer is lost. -/
def failure : SyncError := .broadcast 1 2
  "a: persistence error: groups/lobby.json: No such file or directory (os error 2)"

/-- The update of the group on the first node. -/
def updates : Operation := ⟨0, .change (.own .group group), .fresh⟩

/-- The update is started and visits the first peer, whose store answers, and then the second. -/
def steps : List Step := [.start 0 updates.task, .poll 0, .poll 0, .persist 0, .poll 0]

theorem asks (store : Option Storage.Store) :
    (holder .none store).arrival (.told .group group) = .change (.asked .group group .update) :=
  Node.arrival_about (k := .group) rfl group .update

theorem run_steps : ((Traffic.new (world (some lostStore))).run steps).operations =
    [{ updates with phase := .ended (.result (.error failure)) }] := by
  obtain ⟨n', hcommitted, -, -, -, hbroadcaster⟩ :=
    Node.commit_own (n := holder (.loopback peers) none) (k := .group) rfl group
  let t := (Traffic.new (world (some lostStore))).step (.start 0 updates.task)
  let subject := (Change.own .group group).subject
  let claimed := (t.claim (0, subject) ⟨0, false⟩).1
  let changed := (claimed.setNode 0 n').note
    (.committed (0, subject) ⟨0, false⟩ (.own .group group))
  have hbegins : t.step (.poll 0) =
      Traffic.sendAll 0 updates (.own .group group) changed [.about .group group .update] := by
    have hcarried : t.step (.poll 0) = claimed.carryOut 0 updates (.own .group group) := rfl
    have hhome : claimed.world[updates.node]? = some (holder (.loopback peers) none) := rfl
    rw [hcarried]
    unfold Traffic.carryOut
    simp only [hhome, hcommitted]
    rfl
  -- the first peer is asked for the change, makes it, and tells its store
  have hfirst := hbegins.trans (sendAll_asked (t := changed) (o := updates) (n := n')
    (x := holder .none (some lostStore)) 0 (.own .group group) (.about .group group .update)
    rfl hbroadcaster rfl (asks _))
  -- its store is lost, and the round goes on to the second peer, which has none
  have hsecond : ∃ u p r, ((t.step (.poll 0)).step (.poll 0)).step (.persist 0) =
        Traffic.afterVisit u 0 { updates with phase := p } (.own .group group) r [("b", 2)]
          ⟨2, 0, []⟩ "a" (.inl (.error (.ofError lostFile))) ∧
      r.message = .about .group group .update ∧ u.world[2]? = some (holder .none none) ∧
      ((u.enter 0 (.round (.own .group group) { r with
        awaited := .visit ⟨"b", 2, .asked .group group .update, .coming⟩ []
          (Report.count ⟨2, 0, []⟩ "a" (.error (.ofError lostFile))) })).step
            (.poll 0)).operations =
        [{ updates with phase := .ended (.result (.error failure)) }] := by
    rw [hfirst]
    exact ⟨_, _, _, rfl, rfl, rfl, rfl⟩
  obtain ⟨u, p, r, hgoesOn, hmessage, hthere, hends⟩ := hsecond
  have htaken : (holder .none none).arrival (.cacheUpdate r.message) =
      .change (.asked .group group .update) := by
    rw [hmessage]
    exact asks none
  show ((((t.step (.poll 0)).step (.poll 0)).step (.persist 0)).step (.poll 0)).operations = _
  rw [hgoesOn, afterVisit_asked hthere htaken]
  exact hends

end Lobby

/-! ## What every round accounts for -/

/-- The rounds of a node reach all its peers, and account for each of them. -/
structure World.AccountsForPeers (w : World) (i : Nat) (n : Node) (peers : List (String × Nat)) :
    Prop where
  /-- A message that is handed to the loopback visits every peer once, in order, whatever they
  reply, and the report is that of their replies. -/
  sent : ∀ (m : Message) (timeout : Option Nat),
    let told := w.update i (n.hand m)
    (told.exchange m peers).2.map (·.1) = peers.map (·.2) ∧
      ∃ r : Report, w.broadcast i none timeout m = ((told.exchange m peers).1, .ok r) ∧
        r.Accounts peers (replies m told peers)
  /-- When nothing else goes on, the value of an update is cached whatever the peers reply, and the
  result is that of the report; only a node that is its own peer waits until the time is up. -/
  alone : ∀ (k : Kind) (v : k.Val), n.spreads k = true →
    (∃ x, (w.perform i (.own k v)).1[i]? = some x ∧ x.cached k v = some v) ∧
      ((w.perform i (.own k v)).2 = .error .timeout ∧ (∃ p ∈ peers, p.2 = i) ∨
        ∃ (n' : Node) (r : Report), n.commit (.own k v) = .ok (n', [.about k v .update]) ∧
          let told := w.update i (n'.hand (.told k v))
          w.perform i (.own k v) = ((told.exchange (.told k v) peers).1, r.result) ∧
            r.Accounts peers (replies (.told k v) told peers))
  /-- An update among any other operations that has ended was committed, once. It ended with a
  timeout because its round was given up when its time was up; or every peer has replied to it,
  those that it asked for a change made it once, and the result is that of the report. -/
  inFlight : ∀ (k : Kind) (v : k.Val), n.spreads k = true →
    ∀ (steps : List Step) (id : Nat) (o : Operation) (e : Outcome),
    let t := (Traffic.new w).run steps
    t.operations[id]? = some o → o.node = i → o.task = .change (.own k v) → o.phase = .ended e →
    Journal.commits ⟨id, false⟩ t.journal = [((i, (Change.own k v).subject), .own k v)] ∧
      (e = .result (.error .timeout) ∧ TimedOut w steps id ∨
        ∃ (replies : List Message) (r : Report), Collected w (.told k v) steps peers replies ∧
          t.made id = changes w (.told k v) peers ∧ r.Accounts peers replies ∧
          e = .result r.result)

/-- Over a loopback, a round reaches every peer and accounts for each, whatever state the peers are
in, whatever they reply and whatever else goes on. -/
theorem World.rounds_account_for_peers {w : World} {i : Nat} {n : Node}
    {peers : List (String × Nat)} (hnode : w[i]? = some n)
    (hloopback : n.broadcaster = .loopback peers) : w.AccountsForPeers i n peers where
  sent m timeout := ⟨exchange_visits .., _, broadcast_reports hnode hloopback m timeout,
    Report.accounts_ofReplies (length_replies ..)⟩
  alone k v hspreads := by
    obtain ⟨n', x, hcommitted, hhome, hcached, hresult⟩ :=
      perform_own_reports hnode hloopback hspreads v
    refine ⟨⟨x, hhome, hcached⟩, hresult.imp_right fun hperformed => ?_⟩
    exact ⟨n', _, hcommitted, hperformed, Report.accounts_ofReplies (length_replies ..)⟩
  inFlight k v hspreads steps id o e := by
    intro t hop hhome htask hended
    obtain ⟨hcommits, hresult⟩ := reports_of_ended hnode hloopback hspreads hop hhome htask hended
    refine ⟨hcommits, hresult.imp_right fun ⟨replies, hcollected, hmade, hresult⟩ => ?_⟩
    exact ⟨replies, _, hcollected, hmade, Report.accounts_ofReplies hcollected.length_eq, hresult⟩

namespace Lobby

/-- The group is updated where the store of the first peer is lost: the second peer is visited all
the same, alone and among other operations, and the update ends with one failure. -/
theorem rounds_account_for_lost_store :
    let w := world (some lostStore)
    w.AccountsForPeers 0 (holder (.loopback peers) none) peers ∧
      (w.perform 0 (.own .group group)).2 = .error failure ∧
      ∃ replies r, Collected w (.told .group group) steps peers replies ∧
        Report.Accounts r peers replies ∧ r.result = .error failure := by
  intro w
  have haccounts : w.AccountsForPeers 0 (holder (.loopback peers) none) peers :=
    World.rounds_account_for_peers rfl rfl
  refine ⟨haccounts, ?_, ?_⟩
  · obtain ⟨-, ⟨-, hitself⟩ | ⟨n', r, -, hperformed, hcounted⟩⟩ :=
      haccounts.alone .group group rfl
    · exact absurd hitself (by decide)
    · let told := w.update 0 (n'.hand (.told .group group))
      have hreplied : World.replies (.told .group group) told peers =
          [.error (.ofError lostFile), .ack] := by
        have heach : World.replies (.told .group group) told peers =
            [((holder .none (some lostStore)).receive (.told .group group)).2,
              ((holder .none none).receive (.told .group group)).2] := rfl
        rw [heach, receive_holder_lostStore, receive_holder]
        rfl
      have hcounted : r.Accounts peers (World.replies (.told .group group) told peers) := hcounted
      rw [hreplied] at hcounted
      have hfailures : r.failures = [("a", lostFile.message)] := hcounted.failures
      have hdelivered : r.delivered = 1 := by
        have hsum := hcounted.sum
        rw [hfailures, hcounted.total] at hsum
        exact Nat.succ.inj hsum
      rw [hperformed]
      show r.result = _
      rw [hcounted.result, if_neg (by simp [Message.isSuccess]), hdelivered, hcounted.total,
        Report.reasons, hfailures]
      rfl
  · have hended : ((Traffic.new w).run steps).operations[0]? =
        some { updates with phase := .ended (.result (.error failure)) } := by
      rw [run_steps]
      rfl
    obtain ⟨-, ⟨htimeout, -⟩ | ⟨replies, r, hcollected, -, hcounted, hresult⟩⟩ :=
      haccounts.inFlight .group group rfl steps 0 _ _ hended rfl rfl rfl
    · cases htimeout
    · exact ⟨replies, r, hcollected, hcounted, (Outcome.result.inj hresult).symm⟩
end Lobby

end CloudRoster
