import CloudRoster.Proofs.Node.Claims
import CloudRoster.Proofs.Node.Moves

/-!
# Steps are made of moves

The phase of an operation tells where its two claimants stand. From there, every step of the
operation is a row of moves to where the claimants stand in its next phase. A step either leads to a
phase in which the operation waits for no claim, or the operation asks for a site that others have
or wait for, and does nothing else.
-/

namespace CloudRoster

variable {id : Nat} {o : Operation} {x y : Scene}

/-! ## Phases -/

namespace Awaited

/-- Where the visiting claimant stands while its operation waits for something. -/
def standing : Awaited → Standing
  | .outside => .away
  | .visit v _ _ =>
    match v.stage with
    | .coming => .away
    | .asked => .asks v.site
    | .committed => .works v.node v.change []

end Awaited

/-- What the visit of a round waits for. -/
theorem Round.asked?_eq (r : Round) : r.asked? = r.awaited.standing.asks? := by
  obtain ⟨message, deadline, awaited, later⟩ := r
  cases awaited with
  | outside => rfl
  | visit v peers report =>
    obtain ⟨name, node, change, stage⟩ := v
    cases stage <;> rfl

namespace Operation

/-- Where the two claimants of an operation stand in a phase, for a world of some size. -/
def StandsIn (o : Operation) (size : Nat) (home visit : Standing) : Phase → Prop
  | .fresh => home = .away ∧ visit = .away
  | .waiting c => home = .asks (o.node, c.subject) ∧ visit = .away ∧ o.task.Wants c
  | .round c r => home = .works o.node c r.later ∧ visit = r.awaited.standing ∧ o.node < size
  | .storing c result => visit = .away ∧
      ∃ later, home = .works o.node c later ∧ (result = .ok () → later = [])
  | .ended e => visit = .away ∧ ((home = .out ∧ (o.node < size → o.task.Refused e)) ∨
      ∃ c later, home = .done o.node c later ∧ (e = o.task.outcome (.ok ()) → later = []))
  | .abandoned => visit = .away ∧ (home = .out ∨ ∃ c later, home = .done o.node c later)

/-- What an operation waits for in a phase, at home and on its visit. -/
def asksIn (o : Operation) (p : Phase) : Bool → Option Site := { o with phase := p }.asks?

end Operation

/-- The scene lets an operation be in a phase. -/
def Scene.Allows (x : Scene) (id : Nat) (o : Operation) (p : Phase) : Prop :=
  o.StandsIn x.traffic.world.length (x.standing ⟨id, false⟩) (x.standing ⟨id, true⟩) p

/-- What becomes of an operation that goes on: it moves, and enters a phase in which it waits for no
claim. -/
def Leads (id : Nat) (o : Operation) (x : Scene) (t : Traffic) : Prop :=
  ∃ (y : Scene) (p : Phase), Moves id o x y ∧ y.Allows id o p ∧
    (∀ visiting, o.asksIn p visiting = none) ∧ p ≠ .fresh ∧ t = y.traffic.enter id p

/-- What becomes of an operation that asks for a site which others have or wait for: it waits. -/
def Queues (id : Nat) (o : Operation) (x : Scene) (t : Traffic) : Prop :=
  ∃ (visiting : Bool) (s : Site) (p : Phase), x.standing ⟨id, visiting⟩ = .away ∧
    (x.traffic.locks.ask s ⟨id, visiting⟩).2 = false ∧
    (x.next (x.traffic.claim s ⟨id, visiting⟩).1 ⟨id, visiting⟩ (.asks s)).Allows id o p ∧
    o.asksIn p visiting = some s ∧ t = (x.traffic.claim s ⟨id, visiting⟩).1.enter id p

theorem Leads.of_moves {t : Traffic} (h : Moves id o x y) (hleads : Leads id o y t) :
    Leads id o x t := by
  obtain ⟨z, p, hmoves, hz⟩ := hleads
  exact ⟨z, p, h.trans hmoves, hz⟩

theorem Leads.of_move {visiting : Bool} {t : Traffic} (h : Move ⟨id, visiting⟩ o x y)
    (hleads : Leads id o y t) : Leads id o x t := hleads.of_moves h.moves

/-- An operation enters a phase in which it waits for no claim. -/
theorem leads_enter {p : Phase} (hallows : x.Allows id o p)
    (hasks : ∀ visiting, o.asksIn p visiting = none) (hfresh : p ≠ .fresh) :
    Leads id o x (x.traffic.enter id p) :=
  ⟨x, p, .refl, hallows, hasks, hfresh, rfl⟩

/-- Nothing is waited for outside rounds and before the site is there. -/
theorem asksIn_eq_none {p : Phase} (h : o.asksIn p = sites none none) (visiting : Bool) :
    o.asksIn p visiting = none := by
  rw [h]
  cases visiting <;> rfl

/-! ## The end of a change -/

theorem Task.outcome_eq_ok {task : Task} {result : Except SyncError Unit}
    (h : task.outcome result = task.outcome (.ok ())) : result = .ok () := by
  cases result with
  | ok u => rfl
  | error e => cases task <;> cases h

section Steps

variable {c : Change} {later : List CacheUpdate}

/-- An operation that has committed ends. -/
theorem leads_finish (hhome : x.standing ⟨id, false⟩ = .works o.node c later)
    (hvisit : x.standing ⟨id, true⟩ = .away) {result : Except SyncError Unit}
    (hresult : result = .ok () → later = []) :
    Leads id o x (x.traffic.finish id o c result) := by
  refine .of_move (.release hhome)
    (leads_enter ⟨?_, .inr ⟨c, later, ?_, ?_⟩⟩ (asksIn_eq_none rfl) nofun)
  · rw [Scene.standing_next_visit, hvisit]
  · rw [Scene.standing_next_self]
    rfl
  · exact fun h => hresult (Task.outcome_eq_ok h)

/-- An operation that has its site ends without a commit. -/
theorem leads_finish_refused (hhome : x.standing ⟨id, false⟩ = .got (o.node, c.subject))
    (hvisit : x.standing ⟨id, true⟩ = .away) {result : Except SyncError Unit}
    (hrefused : o.node < x.traffic.world.length → o.task.Refused (o.task.outcome result)) :
    Leads id o x (x.traffic.finish id o c result) := by
  refine .of_move (.refuse hhome) (leads_enter ⟨?_, .inl ⟨?_, hrefused⟩⟩ (asksIn_eq_none rfl) nofun)
  · rw [Scene.standing_next_visit, hvisit]
  · rw [Scene.standing_next_self]
    rfl

theorem leads_conclude (hhome : x.standing ⟨id, false⟩ = .works o.node c later)
    (hvisit : x.standing ⟨id, true⟩ = .away) {result : Except SyncError Unit}
    (hresult : result = .ok () → later = []) :
    Leads id o x (x.traffic.conclude id o c result) := by
  unfold Traffic.conclude
  split
  · exact leads_enter ⟨hvisit, later, hhome, hresult⟩ (asksIn_eq_none rfl) nofun
  · exact leads_finish hhome hvisit hresult

/-! ## Rounds -/

/-- A round over the loopback only ever waits for a visit that has not asked for its site yet. -/
theorem standing_of_visitAll {t : Traffic} {m : Message} {peers : List (String × Nat)} {r : Report}
    {a : Awaited} (h : t.visitAll m peers r = .inr a) : a.standing = .away := by
  induction peers generalizing r with
  | nil => cases h
  | cons peer peers ih =>
    unfold Traffic.visitAll at h
    split at h
    · exact ih h
    · rename_i v hvisit
      unfold Traffic.visit at hvisit
      split at hvisit
      · cases hvisit
      · split at hvisit
        · cases hvisit
        · cases hvisit
          cases h
          rfl

/-- A message is handed out, and the round is over or waits for no claim. -/
theorem moves_sendOne {u : CacheUpdate}
    (hhome : x.standing ⟨id, false⟩ = .works o.node c (u :: later))
    (hnode : o.node < x.traffic.world.length) :
    Moves id o x (x.next (x.traffic.sendOne id o c u).1 ⟨id, false⟩ (.works o.node c later)) ∧
      ∀ a, (x.traffic.sendOne id o c u).2 = .inr a → a.standing = .away := by
  obtain ⟨n, hn⟩ : ∃ n, x.traffic.world[o.node]? = some n := ⟨_, List.getElem?_eq_getElem hnode⟩
  have hmove : Move ⟨id, false⟩ o x _ := .hand rfl hhome hn
  have hhand := hmove.moves
  unfold Traffic.sendOne
  simp only [hn]
  cases n.broadcaster with
  | none => exact ⟨hhand, fun _ h => absurd h Sum.inl_ne_inr⟩
  | recording peers failing cleared => exact ⟨hhand, fun _ h => absurd h Sum.inl_ne_inr⟩
  | external peers answer =>
    refine ⟨hhand, ?_⟩
    rintro _ ⟨⟩
    rfl
  | loopback peers =>
    simp only
    split
    · exact ⟨hhand, fun _ h => absurd h Sum.inl_ne_inr⟩
    · rename_i a hall
      refine ⟨hhand, ?_⟩
      rintro _ ⟨⟩
      exact standing_of_visitAll hall

/-- An operation that enters a round waits for no claim yet. -/
theorem leads_enter_round {r : Round} (hhome : x.standing ⟨id, false⟩ = .works o.node c r.later)
    (hvisit : x.standing ⟨id, true⟩ = r.awaited.standing) (hasks : r.asked? = none)
    (hnode : o.node < x.traffic.world.length) :
    Leads id o x (x.traffic.enter id (.round c r)) := by
  refine leads_enter ⟨hhome, hvisit, hnode⟩ (asksIn_eq_none ?_) nofun
  show sites none r.asked? = sites none none
  rw [hasks]

theorem leads_sendAll (outbox : List CacheUpdate) {x : Scene}
    (hhome : x.standing ⟨id, false⟩ = .works o.node c outbox)
    (hvisit : x.standing ⟨id, true⟩ = .away) (hnode : o.node < x.traffic.world.length) :
    Leads id o x (Traffic.sendAll id o c x.traffic outbox) := by
  induction outbox generalizing x with
  | nil => exact leads_conclude hhome hvisit fun _ => rfl
  | cons u later ih =>
    obtain ⟨hmoves, hawaited⟩ := moves_sendOne hhome hnode
    have hlength := hmoves.frame.2.2.1
    unfold Traffic.sendAll
    cases hsend : x.traffic.sendOne id o c u with
    | mk t outcome =>
      rw [hsend] at hmoves hawaited hlength
      simp only [Scene.traffic_next] at hmoves hlength
      refine .of_moves hmoves ?_
      -- the scene after the message was handed out
      have hhome' : (x.next t ⟨id, false⟩ (.works o.node c later)).standing ⟨id, false⟩ =
          .works o.node c later := Scene.standing_next_self
      have hvisit' : (x.next t ⟨id, false⟩ (.works o.node c later)).standing ⟨id, true⟩ = .away :=
        Scene.standing_next_visit.trans hvisit
      have hnode' : o.node < t.world.length := hlength ▸ hnode
      cases outcome with
      | inl outcome =>
        simp only
        split
        · exact ih hhome' hvisit' hnode'
        · exact leads_conclude hhome' hvisit' nofun
      | inr a =>
        have haway : a.standing = .away := hawaited a rfl
        refine leads_enter_round (r := ⟨u, _, a, later⟩) hhome' (hvisit'.trans haway.symm) ?_ hnode'
        rw [Round.asked?_eq, haway]
        rfl

theorem leads_afterRound (hhome : x.standing ⟨id, false⟩ = .works o.node c later)
    (hvisit : x.standing ⟨id, true⟩ = .away) (hnode : o.node < x.traffic.world.length)
    (outcome : Except SyncError Report) :
    Leads id o x (x.traffic.afterRound id o c later outcome) := by
  unfold Traffic.afterRound
  split
  · exact leads_sendAll later hhome hvisit hnode
  · exact leads_conclude hhome hvisit nofun

/-! ## Visits -/

section Visits

variable {r : Round} {v : Visit} {peers : List (String × Nat)} {report : Report} {name : String}

/-- The reply of a peer takes a round on. -/
theorem leads_afterReply (hhome : x.standing ⟨id, false⟩ = .works o.node c r.later)
    (hvisit : x.standing ⟨id, true⟩ = .away) (hnode : o.node < x.traffic.world.length)
    (reply : Message) :
    Leads id o x (x.traffic.afterVisit id o c r peers report name (.inl reply)) := by
  unfold Traffic.afterVisit
  simp only
  split
  · exact leads_afterRound hhome hvisit hnode _
  · rename_i a hall
    have haway := standing_of_visitAll hall
    refine leads_enter_round (r := { r with awaited := a }) hhome (hvisit.trans haway.symm) ?_ hnode
    rw [Round.asked?_eq, haway]
    rfl

/-- A visit that has its site commits, or is sent away, and its round goes on. -/
theorem leads_commitVisit (hhome : x.standing ⟨id, false⟩ = .works o.node c r.later)
    (hvisit : x.standing ⟨id, true⟩ = .got v.site) (hnode : o.node < x.traffic.world.length) :
    Leads id o x ((x.traffic.commitVisit id v).1.afterVisit id o c r peers report name
      (x.traffic.commitVisit id v).2) := by
  -- the visit gives its site back, with a commit or without one
  have hreply : ∀ (reply : Message) {y : Scene}, Moves id o x y →
      y.standing ⟨id, false⟩ = .works o.node c r.later → y.standing ⟨id, true⟩ = .away →
      Leads id o x (y.traffic.afterVisit id o c r peers report name (.inl reply)) := by
    intro reply y hmoves hhome' hvisit'
    exact .of_moves hmoves (leads_afterReply hhome' hvisit' (hmoves.frame.2.2.1 ▸ hnode) reply)
  have hrefuse : Moves id o x (x.next (x.traffic.release v.site ⟨id, true⟩) ⟨id, true⟩ .away) :=
    (Move.refuse hvisit).moves
  unfold Traffic.commitVisit
  cases hn : x.traffic.world[v.node]? with
  | none => exact hreply _ hrefuse (Scene.standing_next_home.trans hhome) Scene.standing_next_self
  | some n =>
    simp only
    cases hcommit : n.commit v.change with
    | error e =>
      exact hreply _ hrefuse (Scene.standing_next_home.trans hhome) Scene.standing_next_self
    | ok committed =>
      obtain ⟨n', outbox⟩ := committed
      have hmove : Move ⟨id, true⟩ o x _ := .commit hvisit hn hcommit nofun
      simp only
      split
      · -- the store of the peer has still to be told
        refine .of_move hmove (leads_enter_round
          (r := { r with awaited := .visit { v with stage := .committed } peers report })
          (Scene.standing_next_home.trans hhome) Scene.standing_next_self rfl ?_)
        exact hmove.frame.2.2.1 ▸ hnode
      · refine hreply _ (hmove.moves.trans (Move.release Scene.standing_next_self).moves) ?_
          Scene.standing_next_self
        rw [Scene.standing_next_home, Scene.standing_next_home, hhome]

/-- A visit asks for its site: its round goes on, or waits for the site. -/
theorem goes_askVisit (hhome : x.standing ⟨id, false⟩ = .works o.node c r.later)
    (hvisit : x.standing ⟨id, true⟩ = .away) (hnode : o.node < x.traffic.world.length) :
    Leads id o x ((x.traffic.askVisit id v).1.afterVisit id o c r peers report name
        (x.traffic.askVisit id v).2) ∨
      Queues id o x ((x.traffic.askVisit id v).1.afterVisit id o c r peers report name
        (x.traffic.askVisit id v).2) := by
  have hclaim : (x.traffic.claim v.site ⟨id, true⟩).2 =
      (x.traffic.locks.ask v.site ⟨id, true⟩).2 := rfl
  unfold Traffic.askVisit
  cases hgot : (x.traffic.claim v.site ⟨id, true⟩).2 with
  | true =>
    left
    rw [show x.traffic.claim v.site ⟨id, true⟩ =
      ((x.traffic.claim v.site ⟨id, true⟩).1, true) from Prod.ext rfl hgot]
    have hmove := Move.take (o := o) hvisit (hclaim ▸ hgot)
    exact .of_move hmove (leads_commitVisit (Scene.standing_next_home.trans hhome)
      Scene.standing_next_self hnode)
  | false =>
    right
    rw [show x.traffic.claim v.site ⟨id, true⟩ =
      ((x.traffic.claim v.site ⟨id, true⟩).1, false) from Prod.ext rfl hgot]
    refine ⟨true, v.site,
      .round c { r with awaited := .visit { v with stage := .asked } peers report }, hvisit,
      hclaim ▸ hgot, ⟨Scene.standing_next_home.trans hhome, Scene.standing_next_self, hnode⟩, rfl,
      rfl⟩

end Visits

/-! ## The beginning of a change -/

/-- Only the removal of a group in use is held back. -/
theorem refused_of_commit {n : Node} {e : SyncError} (h : n.commit c = .error e) (task : Task) :
    task.Refused (task.outcome (.error e)) := by
  obtain ⟨group, services, rfl⟩ := Node.commit_error h
  cases task with
  | change c' => exact ⟨group, services, rfl⟩
  | _ => trivial

theorem leads_carryOut (hhome : x.standing ⟨id, false⟩ = .got (o.node, c.subject))
    (hvisit : x.standing ⟨id, true⟩ = .away) (hwants : o.task.Wants c) :
    Leads id o x (x.traffic.carryOut id o c) := by
  unfold Traffic.carryOut
  cases hn : x.traffic.world[o.node]? with
  | none =>
    refine leads_finish_refused hhome hvisit fun hnode => ?_
    exact absurd hnode (Nat.not_lt.2 (List.getElem?_eq_none_iff.1 hn))
  | some n =>
    simp only
    cases hcommit : n.commit c with
    | error e =>
      exact leads_finish_refused hhome hvisit fun _ => refused_of_commit hcommit o.task
    | ok committed =>
      obtain ⟨n', outbox⟩ := committed
      have hmove : Move ⟨id, false⟩ o x _ := .commit hhome hn hcommit fun _ => ⟨rfl, hwants⟩
      refine .of_move hmove (leads_sendAll outbox Scene.standing_next_self
        (Scene.standing_next_visit.trans hvisit) ?_)
      rw [hmove.frame.2.2.1]
      exact (List.getElem?_eq_some_iff.1 hn).1

theorem goes_request (hhome : x.standing ⟨id, false⟩ = .away)
    (hvisit : x.standing ⟨id, true⟩ = .away) (hwants : o.task.Wants c) :
    Leads id o x (x.traffic.request id o c) ∨ Queues id o x (x.traffic.request id o c) := by
  have hclaim : (x.traffic.claim (o.node, c.subject) ⟨id, false⟩).2 =
      (x.traffic.locks.ask (o.node, c.subject) ⟨id, false⟩).2 := rfl
  unfold Traffic.request
  cases hgot : (x.traffic.claim (o.node, c.subject) ⟨id, false⟩).2 with
  | true =>
    left
    rw [show x.traffic.claim (o.node, c.subject) ⟨id, false⟩ =
      ((x.traffic.claim (o.node, c.subject) ⟨id, false⟩).1, true) from Prod.ext rfl hgot]
    have hmove := Move.take (o := o) hhome (hclaim ▸ hgot)
    exact .of_move hmove (leads_carryOut Scene.standing_next_self
      (Scene.standing_next_visit.trans hvisit) hwants)
  | false =>
    right
    rw [show x.traffic.claim (o.node, c.subject) ⟨id, false⟩ =
      ((x.traffic.claim (o.node, c.subject) ⟨id, false⟩).1, false) from Prod.ext rfl hgot]
    exact ⟨false, (o.node, c.subject), .waiting c, hhome, hclaim ▸ hgot,
      ⟨Scene.standing_next_self, Scene.standing_next_visit.trans hvisit, hwants⟩, rfl, rfl⟩

/-- An operation that has nothing to do ends at once. -/
theorem leads_skip (hhome : x.standing ⟨id, false⟩ = .away)
    (hvisit : x.standing ⟨id, true⟩ = .away) {e : Outcome} (hrefused : o.task.Refused e) :
    Leads id o x (x.traffic.enter id (.ended e)) := by
  refine .of_move (.skip rfl hhome)
    (leads_enter ⟨?_, .inl ⟨?_, fun _ => hrefused⟩⟩ (asksIn_eq_none rfl) nofun)
  · exact Scene.standing_next_visit.trans hvisit
  · exact Scene.standing_next_self

theorem goes_begin (hhome : x.standing ⟨id, false⟩ = .away)
    (hvisit : x.standing ⟨id, true⟩ = .away) :
    Leads id o x (x.traffic.begin id o) ∨ Queues id o x (x.traffic.begin id o) := by
  unfold Traffic.begin
  cases htask : o.task with
  | change c => exact goes_request hhome hvisit (by rw [htask]; rfl)
  | deleteTemplate name =>
    simp only
    split
    · exact .inl (leads_skip hhome hvisit (by rw [htask]; trivial))
    · exact goes_request hhome hvisit (by rw [htask]; exact ⟨_, rfl⟩)
  | message m =>
    simp only
    cases hn : x.traffic.world[o.node]? with
    | none => exact .inl (leads_skip hhome hvisit (by rw [htask]; trivial))
    | some n =>
      simp only
      cases harrival : n.arrival m with
      | reply r => exact .inl (leads_skip hhome hvisit (by rw [htask]; trivial))
      | change c => exact goes_request hhome hvisit (by rw [htask]; exact ⟨n, harrival⟩)

end Steps

/-! ## Steps of an operation -/

/-- An operation that looks whether it can go on goes on, or asks for a site and has to wait, or has
begun already and waits for a site that was not handed to it. -/
theorem poll_cases (h : x.Allows id o o.phase) :
    (x.traffic.poll id o = x.traffic ∧ o.phase ≠ .fresh ∧
        ∀ visiting s, o.asks? visiting = some s →
          x.traffic.locks.isHanded s ⟨id, visiting⟩ = false) ∨
      Leads id o x (x.traffic.poll id o) ∨ Queues id o x (x.traffic.poll id o) := by
  unfold Traffic.poll
  cases hphase : o.phase with
  | fresh =>
    rw [hphase] at h
    exact .inr (goes_begin h.1 h.2)
  | waiting c =>
    rw [hphase] at h
    obtain ⟨hhome, hvisit, hwants⟩ := h
    simp only
    split
    · rename_i hhanded
      right; left
      have hmove : Move ⟨id, false⟩ o x _ := .pickUp hhome hhanded
      exact .of_move hmove (leads_carryOut Scene.standing_next_self
        (Scene.standing_next_visit.trans hvisit) hwants)
    · rename_i hhanded
      left
      refine ⟨rfl, by simp, fun visiting s hs => ?_⟩
      rw [Operation.asks?_waiting hphase] at hs
      cases visiting <;> cases hs
      exact Bool.eq_false_iff.2 hhanded
  | round c r =>
    rw [hphase] at h
    obtain ⟨hhome, hvisit, hnode⟩ := h
    have hasks := Operation.asks?_round hphase
    obtain ⟨message, deadline, awaited, later⟩ := r
    cases awaited with
    | outside =>
      refine .inl ⟨rfl, by simp, fun visiting s hs => ?_⟩
      rw [hasks] at hs
      cases visiting <;> cases hs
    | visit v peers report =>
      obtain ⟨name, node, change, stage⟩ := v
      cases stage with
      | coming => exact .inr (goes_askVisit hhome hvisit hnode)
      | asked =>
        simp only
        split
        · rename_i hhanded
          right; left
          have hmove : Move ⟨id, true⟩ o x _ := .pickUp hvisit hhanded
          exact .of_move hmove (leads_commitVisit (Scene.standing_next_home.trans hhome)
            Scene.standing_next_self hnode)
        · rename_i hhanded
          left
          refine ⟨rfl, by simp, fun visiting s hs => ?_⟩
          rw [hasks] at hs
          cases visiting <;> cases hs
          exact Bool.eq_false_iff.2 hhanded
      | committed =>
        refine .inl ⟨rfl, by simp, fun visiting s hs => ?_⟩
        rw [hasks] at hs
        cases visiting <;> cases hs
  | storing _ _ | ended _ | abandoned =>
    refine .inl ⟨rfl, by simp, fun visiting s hs => ?_⟩
    unfold Operation.asks? at hs
    rw [hphase] at hs
    cases visiting <;> cases hs

theorem answer_cases (h : x.Allows id o o.phase) (outcome : Except SyncError Report) :
    x.traffic.answer id o outcome = x.traffic ∨ Leads id o x (x.traffic.answer id o outcome) := by
  unfold Traffic.answer
  split
  · rename_i c message deadline later hphase
    rw [hphase] at h
    obtain ⟨hhome, hvisit, hnode⟩ := h
    exact .inr (leads_afterRound hhome hvisit hnode outcome)
  · exact .inl rfl

/-- What a store answers is no success unless the rounds were one. -/
theorem ok_of_persist {n : Node} {c : Change} {result : Except SyncError Unit}
    (h : (n.persist c result).2 = .ok ()) : result = .ok () := by
  unfold Node.persist at h
  split at h
  · exact h
  · rename_i s hstore
    cases hstored : (s.obey (Node.orderOf c.action) ⟨c.kind, c.value⟩).2 with
    | error e =>
      simp only [hstored] at h
      cases h
    | ok u =>
      simp only [hstored] at h
      exact h

theorem persist_cases (h : x.Allows id o o.phase) :
    x.traffic.persist id o = x.traffic ∨ Leads id o x (x.traffic.persist id o) := by
  unfold Traffic.persist
  cases hphase : o.phase with
  | storing c result =>
    rw [hphase] at h
    obtain ⟨hvisit, later, hhome, hresult⟩ := h
    cases hn : x.traffic.world[o.node]? with
    | none => exact .inl rfl
    | some n =>
      have hmove : Move ⟨id, false⟩ o x _ := .store c result hn
      exact .inr (.of_move hmove (leads_finish
        (x := ⟨x.traffic.setNode o.node (n.persist c result).1, x.standing⟩) hhome hvisit
        fun hok => hresult (ok_of_persist hok)))
  | round c r =>
    rw [hphase] at h
    obtain ⟨message, deadline, awaited, later⟩ := r
    obtain ⟨hhome, hvisit, hnode⟩ := h
    cases awaited with
    | outside => exact .inl rfl
    | visit v peers report =>
      obtain ⟨name, node, change, stage⟩ := v
      cases stage with
      | committed =>
        cases hn : x.traffic.world[node]? with
        | none =>
          simp only [hn]
          exact .inl rfl
        | some n =>
          simp only [hn, if_true]
          have hstore : Move ⟨id, true⟩ o x _ := .store change (.ok ()) hn
          have hrelease : Move ⟨id, true⟩ o _ _ := .release
            (x := ⟨x.traffic.setNode node (n.persist change (.ok ())).1, x.standing⟩) hvisit
          refine .inr (.of_moves (hstore.moves.trans hrelease.moves)
            (leads_afterReply (Scene.standing_next_home.trans hhome) Scene.standing_next_self ?_ _))
          exact hstore.frame.2.2.1 ▸ hnode
      | _ => exact .inl rfl
  | _ => exact .inl rfl

/-- Giving up what a round waits for brings the visiting claimant back. -/
theorem moves_giveUp {a : Awaited} (hvisit : x.standing ⟨id, true⟩ = a.standing) :
    ∃ y, Moves id o x y ∧ y.traffic = x.traffic.giveUp id a ∧ y.standing ⟨id, true⟩ = .away ∧
      y.standing ⟨id, false⟩ = x.standing ⟨id, false⟩ := by
  cases a with
  | outside => exact ⟨x, .refl, rfl, hvisit, rfl⟩
  | visit v peers report =>
    obtain ⟨name, node, change, stage⟩ := v
    cases stage with
    | coming => exact ⟨x, .refl, rfl, hvisit, rfl⟩
    | asked =>
      have hmove : Move ⟨id, true⟩ o x _ := .leave hvisit
      exact ⟨_, hmove.moves, rfl, Scene.standing_next_self, Scene.standing_next_home⟩
    | committed =>
      have hmove : Move ⟨id, true⟩ o x _ := .release hvisit
      exact ⟨_, hmove.moves, rfl, Scene.standing_next_self, Scene.standing_next_home⟩

theorem expire_cases (h : x.Allows id o o.phase) :
    x.traffic.expire id o = x.traffic ∨ Leads id o x (x.traffic.expire id o) := by
  unfold Traffic.expire
  cases hphase : o.phase with
  | round c r =>
    rw [hphase] at h
    obtain ⟨hhome, hvisit, hnode⟩ := h
    simp only
    split
    · obtain ⟨y, hmoves, htraffic, hvisit', hhome'⟩ := moves_giveUp (o := o) hvisit
      rw [← htraffic]
      exact .inr (.of_moves hmoves (leads_afterRound (hhome'.trans hhome) hvisit'
        (hmoves.frame.2.2.1 ▸ hnode) _))
    · exact .inl rfl
  | _ => exact .inl rfl

theorem abandon_cases (h : x.Allows id o o.phase) :
    x.traffic.abandon id o = x.traffic ∨ Leads id o x (x.traffic.abandon id o) := by
  unfold Traffic.abandon
  cases hphase : o.phase with
  | fresh =>
    rw [hphase] at h
    have hmove : Move ⟨id, false⟩ o x _ := .skip rfl h.1
    exact .inr (.of_move hmove (leads_enter ⟨Scene.standing_next_visit.trans h.2,
      .inl Scene.standing_next_self⟩ (asksIn_eq_none rfl) nofun))
  | waiting c =>
    rw [hphase] at h
    obtain ⟨hhome, hvisit, -⟩ := h
    have hmove : Move ⟨id, false⟩ o x _ := .leave hhome
    exact .inr (.of_move hmove (leads_enter ⟨Scene.standing_next_visit.trans hvisit,
      .inl Scene.standing_next_self⟩ (asksIn_eq_none rfl) nofun))
  | round c r =>
    rw [hphase] at h
    obtain ⟨hhome, hvisit, -⟩ := h
    obtain ⟨y, hmoves, htraffic, hvisit', hhome'⟩ := moves_giveUp (o := o) hvisit
    simp only [← htraffic]
    have hmove : Move ⟨id, false⟩ o y _ := .release (hhome'.trans hhome)
    exact .inr (.of_moves (hmoves.trans hmove.moves)
      (leads_enter ⟨Scene.standing_next_visit.trans hvisit',
        .inr ⟨c, r.later, Scene.standing_next_self⟩⟩ (asksIn_eq_none rfl) nofun))
  | storing c result =>
    rw [hphase] at h
    obtain ⟨hvisit, later, hhome, -⟩ := h
    have hmove : Move ⟨id, false⟩ o x _ := .release hhome
    exact .inr (.of_move hmove (leads_enter ⟨Scene.standing_next_visit.trans hvisit,
      .inr ⟨c, later, Scene.standing_next_self⟩⟩ (asksIn_eq_none rfl) nofun))
  | ended e => exact .inl rfl
  | abandoned => exact .inl rfl

/-! ## All steps -/

/-- The operation that a step is one of. -/
def Step.operation? : Step → Option Nat
  | .poll id | .answer id _ | .persist id | .expire id | .abandon id => some id
  | .start _ _ | .tick _ => none

/-- An operation that is over takes no steps. -/
theorem step_of_isOver {t : Traffic} {step : Step} (hid : step.operation? = some id)
    (hop : t.operations[id]? = some o) (hover : o.phase.isOver = true) : t.step step = t := by
  cases step with
  | start | tick => cases hid
  | poll | answer | persist | expire | abandon =>
    cases hid
    simp only [Traffic.step, hop, Option.elim_some]
    cases hphase : o.phase with
    | ended e | abandoned =>
      simp only [Traffic.poll, Traffic.answer, Traffic.persist, Traffic.expire, Traffic.abandon,
        hphase]
    | _ =>
      rw [hphase] at hover
      cases hover

/-- What becomes of an operation in a step of its own: nothing, or it goes on or has to wait. -/
def Advances (id : Nat) (x : Scene) (t : Traffic) : Prop :=
  t = x.traffic ∨ ∃ o, x.traffic.operations[id]? = some o ∧ o.phase.isOver = false ∧
    (Leads id o x t ∨ Queues id o x t)

/-- What a step can come to: an operation is started, time passes, or an operation that is not over
takes a step of its own. -/
theorem step_cases (step : Step)
    (h : ∀ (id : Nat) (o : Operation), x.traffic.operations[id]? = some o → x.Allows id o o.phase) :
    (∃ node task, step = .start node task) ∨ (∃ ms, step = .tick ms) ∨
      ∃ id, step.operation? = some id ∧ Advances id x (x.traffic.step step) := by
  cases hid : step.operation? with
  | none =>
    cases step with
    | start node task => exact .inl ⟨node, task, rfl⟩
    | tick ms => exact .inr (.inl ⟨ms, rfl⟩)
    | _ => cases hid
  | some id =>
    refine .inr (.inr ⟨id, rfl, ?_⟩)
    cases hop : x.traffic.operations[id]? with
    | none =>
      left
      cases step with
      | start | tick => cases hid
      | _ =>
        cases hid
        simp only [Traffic.step, hop, Option.elim_none]
    | some o =>
      cases hover : o.phase.isOver with
      | true => exact .inl (step_of_isOver hid hop hover)
      | false =>
        have hallows := h id o hop
        -- a step that is taken is the step of the operation
        have hgoes : ∀ f : Operation → Traffic,
            (f o = x.traffic ∨ Leads id o x (f o) ∨ Queues id o x (f o)) →
            Advances id x ((x.traffic.operations[id]?).elim x.traffic f) := by
          intro f hf
          rw [hop]
          exact hf.imp_right fun hf => ⟨o, hop, hover, hf⟩
        cases step with
        | start | tick => cases hid
        | poll =>
          cases hid
          exact hgoes (x.traffic.poll id) ((poll_cases hallows).imp_left And.left)
        | answer id outcome =>
          cases hid
          exact hgoes (x.traffic.answer id · outcome)
            ((answer_cases hallows outcome).imp_right .inl)
        | persist =>
          cases hid
          exact hgoes (x.traffic.persist id) ((persist_cases hallows).imp_right .inl)
        | expire =>
          cases hid
          exact hgoes (x.traffic.expire id) ((expire_cases hallows).imp_right .inl)
        | abandon =>
          cases hid
          exact hgoes (x.traffic.abandon id) ((abandon_cases hallows).imp_right .inl)

end CloudRoster
