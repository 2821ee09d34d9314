import CloudRoster.Proofs.Node.StepMoves

/-!
# Steps without regard to other operations

What `Traffic.step` makes of an operation, of the nodes and of the claims is determined by the
nodes, the claims and the operation itself (`Traffic.step_withOperations`). The phases of other
operations, and whether their rounds are still on, make no difference: one operation holds another
one up by its claims only.
-/

namespace CloudRoster

namespace Traffic

/-- The same nodes, claims, journal and clock with other operations. -/
def withOperations (t : Traffic) (others : List Operation) : Traffic :=
  { t with operations := others }

@[simp]
theorem world_withOperations (t : Traffic) (others : List Operation) :
    (t.withOperations others).world = t.world := rfl

@[simp]
theorem locks_withOperations (t : Traffic) (others : List Operation) :
    (t.withOperations others).locks = t.locks := rfl

theorem pickUp_withOperations (t : Traffic) (others : List Operation) (site : Site)
    (who : Claimant) : (t.withOperations others).pickUp site who =
      (t.pickUp site who).withOperations others := rfl

/-- A function changes one operation at most, and does the same whatever the other operations
are. -/
def Apart (id : Nat) (f : Traffic → Traffic) (t : Traffic) : Prop :=
  ∃ (u : Traffic) (g : Operation → Operation), ∀ others : List Operation,
    f (t.withOperations others) = u.withOperations (others.modify id g)

variable {t t' : Traffic} {id : Nat} {f f' : Traffic → Traffic}

theorem apart_unchanged (t : Traffic) (id : Nat) : Apart id (fun t => t) t :=
  ⟨t, fun o => o, fun others => congrArg t.withOperations (List.modify_id id others).symm⟩

theorem apart_enter (t : Traffic) (id : Nat) (p : Phase) : Apart id (·.enter id p) t :=
  ⟨t, _, fun _ => rfl⟩

/-- A function goes on as another one does, whatever the other operations are. -/
theorem Apart.of_eq (hrest : Apart id f' t')
    (heq : ∀ others, f (t.withOperations others) = f' (t'.withOperations others)) :
    Apart id f t := by
  obtain ⟨u, g, hsame⟩ := hrest
  exact ⟨u, g, fun others => (heq others).trans (hsame others)⟩

/-! ## The end of a change -/

theorem apart_finish (t : Traffic) (id : Nat) (o : Operation) (c : Change)
    (result : Except SyncError Unit) : Apart id (·.finish id o c result) t :=
  .of_eq (apart_enter (t.release (o.node, c.subject) ⟨id, false⟩) id _) fun _ => rfl

theorem apart_conclude (t : Traffic) (id : Nat) (o : Operation) (c : Change)
    (result : Except SyncError Unit) : Apart id (·.conclude id o c result) t := by
  by_cases hstore : ((t.world[o.node]?).bind (·.storeFor? c result)).isSome
  · exact .of_eq (apart_enter t id (.storing c result)) fun _ => if_pos hstore
  · exact .of_eq (apart_finish t id o c result) fun _ => if_neg hstore

/-! ## Rounds -/

/-- Peers are visited in the same way. -/
theorem visitAll_withOperations (t : Traffic) (others : List Operation) (m : Message)
    (peers : List (String × Nat)) (r : Report) :
    (t.withOperations others).visitAll m peers r = t.visitAll m peers r := by
  induction peers generalizing r with
  | nil => rfl
  | cons peer peers ih =>
    have hvisit : (t.withOperations others).visit m peer.1 peer.2 = t.visit m peer.1 peer.2 := rfl
    unfold visitAll
    rw [hvisit]
    cases t.visit m peer.1 peer.2 with
    | inl reply => exact ih _
    | inr v => rfl

theorem sendOne_withOperations (t : Traffic) (others : List Operation) (id : Nat) (o : Operation)
    (c : Change) (u : CacheUpdate) : (t.withOperations others).sendOne id o c u =
      ((t.sendOne id o c u).1.withOperations others, (t.sendOne id o c u).2) := by
  unfold sendOne
  rw [world_withOperations]
  cases t.world[o.node]? with
  | none => rfl
  | some n =>
    dsimp only
    cases n.broadcaster with
    | none | recording | external => rfl
    | loopback peers =>
      have hhand : ((t.withOperations others).setNode o.node (n.hand (.cacheUpdate u))).note
            (.handed (o.node, c.subject) id u) =
          ((t.setNode o.node (n.hand (.cacheUpdate u))).note
            (.handed (o.node, c.subject) id u)).withOperations others := rfl
      dsimp only
      rw [hhand, visitAll_withOperations]
      split <;> rfl

theorem apart_sendAll (t : Traffic) (id : Nat) (o : Operation) (c : Change)
    (outbox : List CacheUpdate) : Apart id (Traffic.sendAll id o c · outbox) t := by
  -- on the messages that are left, for any state: a round leaves other nodes and another journal
  induction outbox generalizing t with
  | nil => exact apart_conclude t id o c (.ok ())
  | cons u later ih =>
    cases hsend : t.sendOne id o c u with
    | mk t' outcome =>
      have hsame (others : List Operation) : (t.withOperations others).sendOne id o c u =
          (t'.withOperations others, outcome) := by rw [sendOne_withOperations, hsend]
      cases outcome with
      | inl outcome =>
        -- the round is over: the next message is handed out, or the change ends
        cases hresult : outcome.bind Report.result with
        | ok =>
          refine .of_eq (ih t') fun others => ?_
          simp only [sendAll, hsame, hresult]
        | error e =>
          refine .of_eq (apart_conclude t' id o c (.error e)) fun others => ?_
          simp only [sendAll, hsame, hresult]
      | inr a =>
        refine .of_eq (apart_enter t' id (.round c ⟨u, t'.deadline o.node, a, later⟩))
          fun others => ?_
        simp only [sendAll, hsame]
        rfl

theorem apart_afterRound (t : Traffic) (id : Nat) (o : Operation) (c : Change)
    (later : List CacheUpdate) (outcome : Except SyncError Report) :
    Apart id (·.afterRound id o c later outcome) t := by
  unfold afterRound
  cases outcome.bind Report.result with
  | ok => exact apart_sendAll t id o c later
  | error e => exact apart_conclude t id o c (.error e)

/-! ## Visits -/

theorem apart_afterVisit (t : Traffic) (id : Nat) (o : Operation) (c : Change) (r : Round)
    (later : List (String × Nat)) (report : Report) (name : String) (visited : Visited) :
    Apart id (·.afterVisit id o c r later report name visited) t := by
  unfold afterVisit
  cases visited with
  | inr v => exact apart_enter t id _
  | inl reply =>
    have hsame (others : List Operation) :=
      visitAll_withOperations t others (.cacheUpdate r.message) later (report.count name reply)
    cases hall : t.visitAll (.cacheUpdate r.message) later (report.count name reply) with
    | inl report =>
      refine .of_eq (apart_afterRound t id o c r.later (.ok report)) fun others => ?_
      simp only [hsame, hall]
    | inr a =>
      refine .of_eq (apart_enter t id (.round c { r with awaited := a })) fun others => ?_
      simp only [hsame, hall]

theorem commitVisit_withOperations (t : Traffic) (others : List Operation) (id : Nat)
    (v : Visit) : (t.withOperations others).commitVisit id v =
      ((t.commitVisit id v).1.withOperations others, (t.commitVisit id v).2) := by
  unfold commitVisit
  rw [world_withOperations]
  cases t.world[v.node]? with
  | none => rfl
  | some n =>
    dsimp only
    cases n.commit v.change with
    | error e => rfl
    | ok committed =>
      dsimp only
      split <;> rfl

theorem claim_withOperations (t : Traffic) (others : List Operation) (site : Site)
    (who : Claimant) : (t.withOperations others).claim site who =
      ((t.claim site who).1.withOperations others, (t.claim site who).2) := rfl

theorem askVisit_withOperations (t : Traffic) (others : List Operation) (id : Nat) (v : Visit) :
    (t.withOperations others).askVisit id v =
      ((t.askVisit id v).1.withOperations others, (t.askVisit id v).2) := by
  unfold askVisit
  rw [claim_withOperations]
  cases t.claim v.site ⟨id, true⟩ with
  | mk t' got =>
    cases got with
    | true => exact commitVisit_withOperations ..
    | false => rfl

/-! ## The beginning of a change -/

theorem apart_carryOut (t : Traffic) (id : Nat) (o : Operation) (c : Change) :
    Apart id (·.carryOut id o c) t := by
  cases hn : t.world[o.node]? with
  | none =>
    refine .of_eq (apart_finish t id o c (.ok ())) fun others => ?_
    simp only [carryOut, world_withOperations, hn]
  | some n =>
    cases hcommit : n.commit c with
    | error e =>
      refine .of_eq (apart_finish t id o c (.error e)) fun others => ?_
      simp only [carryOut, world_withOperations, hn, hcommit]
    | ok committed =>
      obtain ⟨n', outbox⟩ := committed
      refine .of_eq (apart_sendAll ((t.setNode o.node n').note
        (.committed (o.node, c.subject) ⟨id, false⟩ c)) id o c outbox) fun others => ?_
      simp only [carryOut, world_withOperations, hn, hcommit]
      rfl

theorem apart_request (t : Traffic) (id : Nat) (o : Operation) (c : Change) :
    Apart id (·.request id o c) t := by
  cases hgot : t.claim (o.node, c.subject) ⟨id, false⟩ with
  | mk t' got =>
    cases got with
    | true =>
      refine .of_eq (apart_carryOut t' id o c) fun others => ?_
      simp only [request, claim_withOperations, hgot]
    | false =>
      refine .of_eq (apart_enter t' id (.waiting c)) fun others => ?_
      simp only [request, claim_withOperations, hgot]

theorem apart_begin (t : Traffic) (id : Nat) (o : Operation) : Apart id (·.begin id o) t := by
  cases htask : o.task with
  | change c =>
    refine .of_eq (apart_request t id o c) fun others => ?_
    simp only [begin, htask]
  | deleteTemplate name =>
    cases hfind : (t.world[o.node]?).bind (·.lists.templates.find? (.ofName name)) with
    | none =>
      refine .of_eq (apart_enter t id (.ended (.result (.ok ())))) fun others => ?_
      simp only [begin, htask, world_withOperations, hfind]
    | some v =>
      refine .of_eq (apart_request t id o ⟨.template, v, .delete, false, true⟩) fun others => ?_
      simp only [begin, htask, world_withOperations, hfind]
  | message m =>
    cases hn : t.world[o.node]? with
    | none =>
      refine .of_eq (apart_enter t id (.ended (.reply .ack))) fun others => ?_
      simp only [begin, htask, world_withOperations, hn]
    | some n =>
      cases harrival : n.arrival m with
      | reply r =>
        refine .of_eq (apart_enter t id (.ended (.reply r))) fun others => ?_
        simp only [begin, htask, world_withOperations, hn, harrival]
      | change c =>
        refine .of_eq (apart_request t id o c) fun others => ?_
        simp only [begin, htask, world_withOperations, hn, harrival]

/-! ## Steps -/

theorem apart_poll (t : Traffic) (id : Nat) (o : Operation) : Apart id (·.poll id o) t := by
  unfold poll
  cases o.phase with
  | fresh => exact apart_begin t id o
  | waiting c =>
    -- whether the site was handed over is looked up in the claims, not in the other operations
    by_cases hhanded : t.locks.isHanded (o.node, c.subject) ⟨id, false⟩
    · exact .of_eq (apart_carryOut (t.pickUp (o.node, c.subject) ⟨id, false⟩) id o c)
        fun _ => if_pos hhanded
    · exact .of_eq (apart_unchanged t id) fun _ => if_neg hhanded
  | round c r =>
    cases hawaited : r.awaited with
    | outside =>
      refine .of_eq (apart_unchanged t id) fun others => ?_
      simp only [hawaited]
    | visit v later report =>
      cases hstage : v.stage with
      | coming =>
        refine .of_eq (apart_afterVisit (t.askVisit id v).1 id o c r later report v.name
          (t.askVisit id v).2) fun others => ?_
        simp only [hawaited, hstage, askVisit_withOperations]
      | asked =>
        by_cases hhanded : t.locks.isHanded v.site ⟨id, true⟩
        · refine .of_eq (apart_afterVisit ((t.pickUp v.site ⟨id, true⟩).commitVisit id v).1 id o c
            r later report v.name ((t.pickUp v.site ⟨id, true⟩).commitVisit id v).2)
            fun others => ?_
          simp only [hawaited, hstage, locks_withOperations, hhanded, if_true,
            pickUp_withOperations, commitVisit_withOperations]
        · refine .of_eq (apart_unchanged t id) fun others => ?_
          simp only [hawaited, hstage, locks_withOperations, hhanded, Bool.false_eq_true,
            if_false]
      | committed =>
        refine .of_eq (apart_unchanged t id) fun others => ?_
        simp only [hawaited, hstage]
  | storing | ended | abandoned => exact apart_unchanged t id

theorem apart_answer (t : Traffic) (id : Nat) (o : Operation)
    (outcome : Except SyncError Report) : Apart id (·.answer id o outcome) t := by
  unfold answer
  split
  · exact apart_afterRound ..
  · exact apart_unchanged t id

theorem apart_persist (t : Traffic) (id : Nat) (o : Operation) : Apart id (·.persist id o) t := by
  unfold persist
  cases o.phase with
  | storing c result =>
    cases hn : t.world[o.node]? with
    | none =>
      refine .of_eq (apart_unchanged t id) fun others => ?_
      simp only [world_withOperations, hn]
    | some n =>
      refine .of_eq (apart_finish (t.setNode o.node (n.persist c result).1) id o c
        (n.persist c result).2) fun others => ?_
      simp only [world_withOperations, hn]
      rfl
  | round c r =>
    cases hawaited : r.awaited with
    | outside =>
      refine .of_eq (apart_unchanged t id) fun others => ?_
      simp only [hawaited]
    | visit v later report =>
      by_cases hstage : v.stage = .committed
      · cases hn : t.world[v.node]? with
        | none =>
          refine .of_eq (apart_unchanged t id) fun others => ?_
          simp only [hawaited, hstage, if_true, world_withOperations, hn]
        | some n =>
          refine .of_eq (apart_afterVisit ((t.setNode v.node
            (n.persist v.change (.ok ())).1).release v.site ⟨id, true⟩) id o c r later report
            v.name (.inl (Node.replyTo (n.persist v.change (.ok ())).2))) fun others => ?_
          simp only [hawaited, hstage, if_true, world_withOperations, hn]
          rfl
      · refine .of_eq (apart_unchanged t id) fun others => ?_
        simp only [hawaited, hstage, if_false]
  | _ => exact apart_unchanged t id

theorem giveUp_withOperations (t : Traffic) (others : List Operation) (id : Nat) (a : Awaited) :
    (t.withOperations others).giveUp id a = (t.giveUp id a).withOperations others := by
  unfold giveUp
  cases a with
  | outside => rfl
  | visit v later report =>
    dsimp only
    cases v.stage <;> rfl

theorem isThere_withOperations (t : Traffic) (others : List Operation) (id : Nat) (a : Awaited) :
    (t.withOperations others).isThere id a = t.isThere id a := by
  unfold isThere
  cases a with
  | outside => rfl
  | visit v later report =>
    dsimp only
    cases v.stage <;> rfl

theorem apart_expire (t : Traffic) (id : Nat) (o : Operation) : Apart id (·.expire id o) t := by
  unfold expire
  cases o.phase with
  | round c r =>
    by_cases hlate : (r.deadline ≤ t.clock && !t.isThere id r.awaited) = true
    · refine .of_eq (apart_afterRound (t.giveUp id r.awaited) id o c r.later (.error .timeout))
        fun others => ?_
      simp only [isThere_withOperations, giveUp_withOperations]
      exact if_pos hlate
    · refine .of_eq (apart_unchanged t id) fun others => ?_
      simp only [isThere_withOperations]
      exact if_neg hlate
  | _ => exact apart_unchanged t id

theorem apart_abandon (t : Traffic) (id : Nat) (o : Operation) :
    Apart id (·.abandon id o) t := by
  unfold abandon
  cases o.phase with
  | fresh => exact apart_enter t id .abandoned
  | waiting c =>
    exact .of_eq (apart_enter (t.leave (o.node, c.subject) ⟨id, false⟩) id .abandoned) fun _ => rfl
  | round c r =>
    refine .of_eq (apart_enter ((t.giveUp id r.awaited).release (o.node, c.subject) ⟨id, false⟩)
      id .abandoned) fun others => ?_
    simp only [giveUp_withOperations]
    rfl
  | storing c result =>
    exact .of_eq (apart_enter (t.release (o.node, c.subject) ⟨id, false⟩) id .abandoned)
      fun _ => rfl
  | ended | abandoned => exact apart_unchanged t id

/-- What a step does to its operation is the same whatever the others are. -/
theorem exists_apart (t : Traffic) (known : Option Operation) {step : Step}
    (hown : step.operation? = some id) :
    ∃ f, Apart id f t ∧ ∀ others : List Operation, others[id]? = known →
      (t.withOperations others).step step = f (t.withOperations others) := by
  -- a step looks its operation up, and does nothing if there is none
  have helim (others : List Operation) (hop : others[id]? = known) (f : Operation → Traffic) :
      (others[id]?).elim (t.withOperations others) f =
        known.elim (t.withOperations others) f := by rw [hop]
  cases known with
  | none =>
    refine ⟨fun t => t, apart_unchanged t id, fun others hop => ?_⟩
    cases step <;> cases hown <;> exact helim others hop _
  | some o =>
    cases step with
    | start | tick => cases hown
    | poll =>
      cases hown
      exact ⟨_, apart_poll t id o, fun others hop => helim others hop _⟩
    | answer _ outcome =>
      cases hown
      exact ⟨_, apart_answer t id o outcome, fun others hop => helim others hop _⟩
    | persist =>
      cases hown
      exact ⟨_, apart_persist t id o, fun others hop => helim others hop _⟩
    | expire =>
      cases hown
      exact ⟨_, apart_expire t id o, fun others hop => helim others hop _⟩
    | abandon =>
      cases hown
      exact ⟨_, apart_abandon t id o, fun others hop => helim others hop _⟩

/-- Whatever the other operations are, the step of an operation leaves the same nodes, claims and
journal, and makes the same of the operation. -/
theorem step_withOperations (t : Traffic) {step : Step} (hown : step.operation? = some id)
    {others : List Operation} (hsame : others[id]? = t.operations[id]?) :
    let t' := (t.withOperations others).step step
    t'.world = (t.step step).world ∧ t'.locks = (t.step step).locks ∧
      t'.journal = (t.step step).journal ∧
      t'.operations[id]? = (t.step step).operations[id]? := by
  intro t'
  -- one `f` for both states, since both have the same operation under the number
  obtain ⟨f, ⟨u, g, hf⟩, hstep⟩ := exists_apart t t.operations[id]? hown
  have hown' : t.step step = u.withOperations (t.operations.modify id g) :=
    (hstep t.operations rfl).trans (hf t.operations)
  have hothers : t' = u.withOperations (others.modify id g) :=
    (hstep others hsame).trans (hf others)
  rw [hown', hothers]
  refine ⟨rfl, rfl, rfl, ?_⟩
  show (others.modify id g)[id]? = (t.operations.modify id g)[id]?
  rw [List.getElem?_modify_eq, List.getElem?_modify_eq, hsame]

end Traffic

end CloudRoster
