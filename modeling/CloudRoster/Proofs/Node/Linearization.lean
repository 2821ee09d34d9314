import CloudRoster.Proofs.Node.Apart
import CloudRoster.Proofs.Node.Ledger

/-!
# Operations at the same time, one after another

Whatever operations are on their way at the same time, and however their steps come about, every
list of a node is as the operations that have committed leave it when they are carried out one after
another, in the order of their commits. Operations with the same site commit in the order in which
they asked for it. The guarantees are the fields of `Linearized`, and `linearized_run` gives them
for every run.

An operation begins with its first poll, whatever rounds are on, and whenever it has to wait for a
site, another claimant has that site or was handed it (`exists_rival`); nothing else of other
operations plays a part in its steps (`Traffic.step_withOperations`). An operation that is abandoned
while it waits has changed nothing, and changes nothing afterwards.
-/

namespace CloudRoster

open Cache (LockTable)

variable {id : Nat} {o : Operation} {x : Scene} {visiting : Bool} {s : Site}

/-! ## Rivals for a site -/

/-- The site of the visit of a round, from when the visit has asked for it. -/
def Round.claimed? (r : Round) : Option Site :=
  match r.awaited with
  | .visit v _ _ => if v.stage = .coming then none else some v.site
  | .outside => none

/-- The sites that an operation has or waits for, at home and on its visit. -/
def Operation.claims? (o : Operation) : Bool → Option Site :=
  match o.phase with
  | .waiting c | .storing c _ => sites (some (o.node, c.subject)) none
  | .round c r => sites (some (o.node, c.subject)) r.claimed?
  | .fresh | .ended _ | .abandoned => sites none none

/-- The site that a claimant has or waits for is one of `claims?` of its operation. -/
theorem claims?_of_standing (h : x.Allows id o o.phase)
    (hs : (x.standing ⟨id, visiting⟩).has? = some s ∨ (x.standing ⟨id, visiting⟩).asks? = some s) :
    o.claims? visiting = some s := by
  unfold Operation.claims?
  cases hphase : o.phase with
  | fresh =>
    rw [hphase] at h
    cases visiting <;> simp [h.1, h.2, Standing.has?, Standing.asks?] at hs
  | waiting c =>
    rw [hphase] at h
    obtain ⟨hhome, hvisit, -⟩ := h
    cases visiting with
    | false => simpa [hhome, Standing.has?, Standing.asks?, sites] using hs
    | true => simp [hvisit, Standing.has?, Standing.asks?] at hs
  | round c r =>
    rw [hphase] at h
    obtain ⟨hhome, hvisit, -⟩ := h
    cases visiting with
    | false => simpa [hhome, Standing.has?, Standing.asks?, sites] using hs
    | true =>
      obtain ⟨message, deadline, awaited, later⟩ := r
      rw [hvisit] at hs
      cases awaited with
      | outside => simp [Awaited.standing, Standing.has?, Standing.asks?] at hs
      | visit v peers report =>
        obtain ⟨name, node, change, stage⟩ := v
        cases stage with
        | coming => simp [Awaited.standing, Standing.has?, Standing.asks?] at hs
        | asked | committed =>
          simpa [Awaited.standing, Standing.has?, Standing.asks?, sites, Round.claimed?, Visit.site]
            using hs
  | storing c result =>
    rw [hphase] at h
    obtain ⟨hvisit, later, hhome, -⟩ := h
    cases visiting with
    | false => simpa [hhome, Standing.has?, Standing.asks?, sites] using hs
    | true => simp [hvisit, Standing.has?, Standing.asks?] at hs
  | ended e =>
    rw [hphase] at h
    obtain ⟨hvisit, ⟨hhome, -⟩ | ⟨c, later, hhome, -⟩⟩ := h <;>
      cases visiting <;> simp [hhome, hvisit, Standing.has?, Standing.asks?] at hs
  | abandoned =>
    rw [hphase] at h
    obtain ⟨hvisit, hhome | ⟨c, later, hhome⟩⟩ := h <;>
      cases visiting <;> simp [hhome, hvisit, Standing.has?, Standing.asks?] at hs

/-- The site that an operation waits for is the one that its claimant waits for. -/
theorem asks?_standing (h : x.Allows id o o.phase) (hasks : o.asks? visiting = some s) :
    (x.standing ⟨id, visiting⟩).asks? = some s := by
  rcases Operation.of_asks? hasks with ⟨c, hphase, rfl, rfl⟩ | ⟨c, r, hphase, rfl, hr⟩
  · rw [hphase] at h
    rw [h.1]
    rfl
  · rw [hphase] at h
    rw [h.2.1, ← Round.asked?_eq, hr]

/-- A claimant that waits for a site and was not handed it waits for another claimant, which has the
site or was handed it. -/
theorem exists_rival (hsound : Sound x) (hlocked : Locked x.traffic.locks x.standing)
    (hop : x.traffic.operations[id]? = some o) (hasks : o.asks? visiting = some s)
    (hhanded : x.traffic.locks.isHanded s ⟨id, visiting⟩ = false) :
    ∃ (who : Claimant) (o' : Operation), who ≠ ⟨id, visiting⟩ ∧
      x.traffic.operations[who.operation]? = some o' ∧ o'.claims? who.visiting = some s ∧
      (o'.asks? who.visiting = some s → x.traffic.locks.isHanded s who = true) := by
  have hstands := asks?_standing (hsound.allows id o hop) hasks
  -- the one who holds the site, or else the first of the line
  obtain ⟨who, hne, hwho⟩ : ∃ who ≠ (⟨id, visiting⟩ : Claimant),
      (x.standing who).has? = some s ∨
        (x.standing who).asks? = some s ∧ x.traffic.locks.isHanded s who = true := by
    cases hholder : x.traffic.locks.holder? s with
    | some who =>
      have hhas := (hlocked.holder s who).1 hholder
      refine ⟨who, ?_, .inl hhas⟩
      rintro rfl
      cases (Standing.has?_of_asks? hstands).symm.trans hhas
    | none =>
      have hmem := (hlocked.line s ⟨id, visiting⟩).2 hstands
      cases hline : x.traffic.locks.line s with
      | nil =>
        rw [hline] at hmem
        cases hmem
      | cons first rest =>
        have hfirst : x.traffic.locks.isHanded s first = true :=
          (LockTable.isHanded_iff hlocked.served).2 ⟨hholder, rest, hline⟩
        refine ⟨first, ?_, .inr ⟨(hlocked.line s first).1 (by rw [hline]; simp), hfirst⟩⟩
        rintro rfl
        cases hfirst.symm.trans hhanded
  -- claimants of operations that do not exist have asked for nothing
  cases hop' : x.traffic.operations[who.operation]? with
  | none =>
    rw [hsound.unknown who (List.getElem?_eq_none_iff.1 hop')] at hwho
    rcases hwho with hwho | ⟨hwho, -⟩ <;> cases hwho
  | some o' =>
    have hallows := hsound.allows _ o' hop'
    refine ⟨who, o', hne, hop', claims?_of_standing hallows (hwho.imp_right And.left), ?_⟩
    intro hasks'
    rcases hwho with hhas | ⟨-, hfirst⟩
    · cases (Standing.has?_of_asks? (asks?_standing hallows hasks')).symm.trans hhas
    · exact hfirst

/-- An operation waits for one site at a time. -/
theorem asks?_unique {visiting' : Bool} {s' : Site} (h : o.asks? visiting = some s)
    (h' : o.asks? visiting' = some s') : visiting = visiting' ∧ s = s' := by
  rcases Operation.of_asks? h with ⟨c, hphase, rfl, rfl⟩ | ⟨c, r, hphase, rfl, hr⟩ <;>
    rcases Operation.of_asks? h' with ⟨c', hphase', rfl, rfl⟩ | ⟨c', r', hphase', rfl, hr'⟩ <;>
    rw [hphase] at hphase' <;> cases hphase'
  · exact ⟨rfl, rfl⟩
  · exact ⟨rfl, Option.some.inj (hr.symm.trans hr')⟩

/-- A claimant whose `ask` did not get the site was not handed it by that `ask`. -/
theorem isHanded_ask {locks : LockTable Site Claimant} {standing : Claimant → Standing}
    {who : Claimant} (h : Locked locks standing) (haway : standing who = .away)
    (hgot : (locks.ask s who).2 = false) : (locks.ask s who).1.isHanded s who = false := by
  obtain ⟨hbusy, hserved, hholder, hline⟩ := LockTable.ask_eq_false hgot h.served
  rw [Bool.eq_false_iff, ne_eq, LockTable.isHanded_iff hserved, hholder, hline,
    Function.update_self]
  rintro ⟨hnone, rest, hfirst⟩
  rcases hbusy with hheld | hwaited
  · exact hheld hnone
  · -- the line was not empty, so another claimant is at its head
    cases hold : locks.line s with
    | nil => exact hwaited hold
    | cons first others =>
      rw [hold] at hfirst
      cases hfirst
      exact h.not_mem_line (by rw [haway]; rfl) s (by rw [hold]; simp)

/-- After its `poll` an operation has begun, and only waits for a site that it was not handed. -/
theorem begun_poll (hsound : Sound x) (hlocked : Locked x.traffic.locks x.standing)
    (hop : (x.traffic.step (.poll id)).operations[id]? = some o) :
    o.phase ≠ .fresh ∧ ∀ visiting s, o.asks? visiting = some s →
      (x.traffic.step (.poll id)).locks.isHanded s ⟨id, visiting⟩ = false := by
  have hstep : x.traffic.step (.poll id) = (x.traffic.operations[id]?).elim x.traffic
      (x.traffic.poll id) := rfl
  cases hold : x.traffic.operations[id]? with
  | none =>
    rw [hstep, hold] at hop
    cases hold.symm.trans hop
  | some old =>
    rw [hold, Option.elim_some] at hstep
    rw [hstep] at hop ⊢
    have henter {t : Traffic} {p : Phase} (ht : t.operations = x.traffic.operations)
        (ho : (t.enter id p).operations[id]? = some o) : o = { old with phase := p } :=
      Traffic.eq_of_getElem?_modify hold (ht ▸ ho)
    rcases poll_cases (hsound.allows id old hold) with ⟨heq, hbegun, hwaits⟩ | hleads | hqueues
    · rw [heq] at hop ⊢
      rw [hold] at hop
      cases hop
      exact ⟨hbegun, hwaits⟩
    · obtain ⟨y, p, hmoves, -, hnone, hbegun, heq⟩ := hleads
      rw [heq] at hop
      rw [henter hmoves.frame.1 hop]
      refine ⟨hbegun, fun visiting s hasks => ?_⟩
      cases (hnone visiting).symm.trans hasks
    · obtain ⟨visiting', s', p, haway, hgot, -, hsome, heq⟩ := hqueues
      rw [heq] at hop ⊢
      rw [henter rfl hop]
      constructor
      · rintro rfl
        cases visiting' <;> cases hsome
      · intro visiting s hasks
        obtain ⟨rfl, rfl⟩ := asks?_unique hasks hsome
        exact isHanded_ask hlocked haway hgot

/-! ## What an operation has committed -/

/-- What an operation on nodes of a number has committed, by its phase: nothing before it has its
site, and from then on its change, unless it is refused or abandoned. -/
def Operation.Commits (o : Operation) (size : Nat) (commits : List (Site × Change)) : Prop :=
  match o.phase with
  | .fresh | .waiting _ => commits = []
  | .round c _ | .storing c _ => commits = [((o.node, c.subject), c)] ∧ o.task.Wants c
  | .ended e => (∃ c, commits = [((o.node, c.subject), c)] ∧ o.task.Wants c) ∨
      commits = [] ∧ (o.node < size → o.task.Refused e)
  | .abandoned => commits = [] ∨ ∃ c, commits = [((o.node, c.subject), c)] ∧ o.task.Wants c

/-- What is noted of an operation is what its phase tells. -/
theorem commits_of_ledger {outcome : Nat → Except SyncError Report} {w : World}
    (hsound : Sound x) (hledger : Ledger outcome w x)
    (hop : x.traffic.operations[id]? = some o) :
    o.Commits w.length (Journal.commits ⟨id, false⟩ x.traffic.journal) := by
  have hallows := hsound.allows id o hop
  have hrecorded := hledger.recorded ⟨id, false⟩ rfl
  have hlength := hledger.serial.length
  -- what is noted as committed is what the task asks for
  have hwants : ∀ {c : Change}, Journal.commits ⟨id, false⟩ x.traffic.journal =
      [((o.node, c.subject), c)] → o.task.Wants c := by
    intro c hcommits
    have hmem : ((o.node, c.subject), c) ∈ Journal.commits ⟨id, false⟩ x.traffic.journal := by
      rw [hcommits]
      exact List.mem_cons_self
    obtain ⟨o', hop', -, hwants⟩ := hledger.owned id _ c hmem
    rw [hop] at hop'
    cases hop'
    exact hwants
  unfold Operation.Commits
  cases hphase : o.phase with
  | fresh =>
    rw [hphase] at hallows
    rw [hallows.1] at hrecorded
    exact hrecorded.2.1
  | waiting c =>
    rw [hphase] at hallows
    rw [hallows.1] at hrecorded
    exact hrecorded.2.1
  | round c r =>
    rw [hphase] at hallows
    rw [hallows.1] at hrecorded
    exact ⟨hrecorded.2.1, hwants hrecorded.2.1⟩
  | storing c result =>
    rw [hphase] at hallows
    obtain ⟨-, later, hhome, -⟩ := hallows
    rw [hhome] at hrecorded
    exact ⟨hrecorded.2.1, hwants hrecorded.2.1⟩
  | ended e =>
    rw [hphase] at hallows
    obtain ⟨-, ⟨hhome, hrefused⟩ | ⟨c, later, hhome, -⟩⟩ := hallows
    · rw [hhome] at hrecorded
      exact .inr ⟨hrecorded.2.1, hlength ▸ hrefused⟩
    · rw [hhome] at hrecorded
      exact .inl ⟨c, hrecorded.2.1, hwants hrecorded.2.1⟩
  | abandoned =>
    rw [hphase] at hallows
    obtain ⟨-, hhome | ⟨c, later, hhome⟩⟩ := hallows
    · rw [hhome] at hrecorded
      exact .inl hrecorded.2.1
    · rw [hhome] at hrecorded
      exact .inr ⟨c, hrecorded.2.1, hwants hrecorded.2.1⟩

/-- An operation asks for its site at most once. -/
theorem length_asks_le_one {outcome : Nat → Except SyncError Report} {w : World}
    (hledger : Ledger outcome w x) (id : Nat) :
    (Journal.asks ⟨id, false⟩ x.traffic.journal).length ≤ 1 := by
  have hrecorded := hledger.recorded ⟨id, false⟩ rfl
  cases hst : x.standing ⟨id, false⟩ <;> rw [hst] at hrecorded
  case out => exact hrecorded.1
  all_goals
    have hasks := hrecorded.1
    rw [hasks]
    simp

/-! ## Operations that have not got their site -/

/-- The operation, if there is one, has not got its site. -/
def Traffic.Pending (t : Traffic) (id : Nat) : Prop :=
  ∀ o, t.operations[id]? = some o → o.phase = .fresh ∨ ∃ c, o.phase = .waiting c

/-- The world is the same, and all that may have been noted is that an operation has asked for its
site. -/
def Traffic.Untouched (t t' : Traffic) (id : Nat) : Prop :=
  t'.world = t.world ∧ ∃ sites : List Site,
    t'.journal = t.journal ++ sites.map fun s => .asked s ⟨id, false⟩

theorem untouched_refl (t : Traffic) (id : Nat) : t.Untouched t id :=
  ⟨rfl, [], (List.append_nil _).symm⟩

/-- An operation that has not asked for anything has not begun. -/
theorem phase_of_away (h : x.Allows id o o.phase) (haway : x.standing ⟨id, false⟩ = .away) :
    o.phase = .fresh := by
  cases hphase : o.phase with
  | fresh => rfl
  | waiting c | round c r =>
    rw [hphase] at h
    cases haway.symm.trans h.1
  | storing c result =>
    rw [hphase] at h
    obtain ⟨-, later, hhome, -⟩ := h
    cases haway.symm.trans hhome
  | ended e =>
    rw [hphase] at h
    obtain ⟨-, ⟨hhome, -⟩ | ⟨c, later, hhome, -⟩⟩ := h <;> cases haway.symm.trans hhome
  | abandoned =>
    rw [hphase] at h
    obtain ⟨-, hhome | ⟨c, later, hhome⟩⟩ := h <;> cases haway.symm.trans hhome

/-- An operation that has not got its site in a step had not got it before, and a step of its own
has touched nothing. -/
theorem pending_step (h : Sound x) {step : Step} (hpending : (x.traffic.step step).Pending id) :
    x.traffic.Pending id ∧
      (step.operation? = some id → x.traffic.Untouched (x.traffic.step step) id) := by
  rcases step_cases step h.allows with
    ⟨node, task, rfl⟩ | ⟨ms, rfl⟩ | ⟨id', hid', heq | ⟨old, hold, hover, hgoes⟩⟩
  · refine ⟨fun o ho => hpending o ?_, nofun⟩
    exact (List.getElem?_append_left (List.getElem?_eq_some_iff.1 ho).1).trans ho
  · exact ⟨hpending, nofun⟩
  · rw [heq] at hpending ⊢
    exact ⟨hpending, fun _ => untouched_refl _ _⟩
  · by_cases hid : id' = id
    · subst hid
      -- the operation waits for its site after its own step, so it has only just asked for it
      have henter : ∀ {t : Traffic} {p : Phase}, t.operations = x.traffic.operations →
          x.traffic.step step = t.enter id' p → p = .fresh ∨ ∃ c, p = .waiting c := by
        intro t p ht heq
        refine hpending { old with phase := p } ?_
        rw [heq]
        exact Traffic.getElem?_enter_self ht hold p
      rcases hgoes with ⟨y, p, hmoves, -, hnone, hfresh, heq⟩ | hqueues
      · rcases henter hmoves.frame.1 heq with hp | ⟨c, rfl⟩
        · exact absurd hp hfresh
        · cases hnone false
      · obtain ⟨visiting, s, p, haway, -, -, hsome, heq⟩ := hqueues
        have hwaiting : p = .fresh ∨ ∃ c, p = .waiting c :=
          henter (t := (x.traffic.claim s _).1) rfl heq
        obtain ⟨c, rfl⟩ : ∃ c, p = .waiting c := by
          refine hwaiting.resolve_left ?_
          rintro rfl
          cases visiting <;> cases hsome
        cases visiting with
        | true => cases hsome
        | false =>
          refine ⟨fun o ho => ?_, fun _ => ?_⟩
          · rw [hold] at ho
            cases ho
            exact .inl (phase_of_away (h.allows id' old hold) haway)
          · rw [heq]
            exact ⟨rfl, [s], rfl⟩
    · -- another operation has taken a step
      refine ⟨fun o ho => hpending o ?_, fun hown => ?_⟩
      · obtain ⟨y, p, hmoves, -, heq⟩ := exists_moves hgoes
        rw [heq]
        show (y.traffic.operations.modify id' _)[id]? = _
        rw [hmoves.frame.1, List.getElem?_modify_ne _ _ hid]
        exact ho
      · rw [hid'] at hown
        exact absurd (Option.some.inj hown) hid

/-- An operation that is over stays as it is. -/
theorem isOver_step (h : Sound x) (step : Step) (hop : x.traffic.operations[id]? = some o)
    (hover : o.phase.isOver = true) : (x.traffic.step step).operations[id]? = some o := by
  rcases step_cases step h.allows with
    ⟨node, task, rfl⟩ | ⟨ms, rfl⟩ | ⟨id', -, heq | ⟨old, hold, hlive, hgoes⟩⟩
  · exact (List.getElem?_append_left (List.getElem?_eq_some_iff.1 hop).1).trans hop
  · exact hop
  · rw [heq]
    exact hop
  · have hid : id' ≠ id := by
      rintro rfl
      rw [hop] at hold
      cases hold
      cases hlive.symm.trans hover
    obtain ⟨y, p, hmoves, -, heq⟩ := exists_moves hgoes
    rw [heq]
    show (y.traffic.operations.modify id' _)[id]? = _
    rw [hmoves.frame.1, List.getElem?_modify_ne _ _ hid]
    exact hop

/-! ## Runs -/

section Runs

variable {w : World} {before after : List Step} {step : Step}

theorem exists_sound (w : World) (steps : List Step) :
    ∃ standing, Sound ⟨(Traffic.new w).run steps, standing⟩ := by
  obtain ⟨standing, hsound, -⟩ := exists_ledger (fun _ => .ok .empty) w steps
  exact ⟨standing, hsound⟩

theorem run_concat (t : Traffic) (steps : List Step) (step : Step) :
    t.run (steps ++ [step]) = (t.run steps).step step := t.run_append steps [step]

/-- An operation that has not got its site has never had it. -/
theorem pending_before (h : ((Traffic.new w).run (before ++ after)).Pending id) :
    ((Traffic.new w).run before).Pending id := by
  induction after generalizing before with
  | nil =>
    rw [List.append_nil] at h
    exact h
  | cons step after ih =>
    have hnext : ((Traffic.new w).run (before ++ [step])).Pending id := by
      refine ih ?_
      rw [← List.append_cons]
      exact h
    obtain ⟨standing, hsound⟩ := exists_sound w before
    rw [run_concat] at hnext
    exact (pending_step hsound hnext).1

/-- None of its steps has touched anything. -/
theorem untouched_of_pending (h : ((Traffic.new w).run (before ++ step :: after)).Pending id)
    (hown : step.operation? = some id) :
    ((Traffic.new w).run before).Untouched ((Traffic.new w).run (before ++ [step])) id := by
  have hnext : ((Traffic.new w).run (before ++ [step])).Pending id := by
    rw [List.append_cons] at h
    exact pending_before h
  obtain ⟨standing, hsound⟩ := exists_sound w before
  rw [run_concat] at hnext ⊢
  exact (pending_step hsound hnext).2 hown

/-- An operation that is over stays so, whatever happens. -/
theorem isOver_run (hop : ((Traffic.new w).run before).operations[id]? = some o)
    (hover : o.phase.isOver = true) (after : List Step) :
    ((Traffic.new w).run (before ++ after)).operations[id]? = some o := by
  induction after generalizing before with
  | nil =>
    rw [List.append_nil]
    exact hop
  | cons step after ih =>
    obtain ⟨standing, hsound⟩ := exists_sound w before
    have hnext : ((Traffic.new w).run (before ++ [step])).operations[id]? = some o := by
      rw [run_concat]
      exact isOver_step hsound step hop hover
    rw [List.append_cons]
    exact ih hnext

/-- An operation that is abandoned while it waits for its site touches nothing with that. -/
theorem abandon_waiting {t : Traffic} {c : Change} (hop : t.operations[id]? = some o)
    (hphase : o.phase = .waiting c) :
    t.Untouched (t.step (.abandon id)) id ∧
      (t.step (.abandon id)).operations[id]? = some { o with phase := .abandoned } := by
  have hstep : t.step (.abandon id) =
      (t.leave (o.node, c.subject) ⟨id, false⟩).enter id .abandoned := by
    show (t.operations[id]?).elim t (t.abandon id) = _
    rw [hop, Option.elim_some]
    unfold Traffic.abandon
    rw [hphase]
  rw [hstep]
  refine ⟨⟨rfl, [], (List.append_nil _).symm⟩, ?_⟩
  exact Traffic.getElem?_enter_self rfl hop .abandoned

/-- None of the steps of an operation that is abandoned while it waits for its site touches
anything, before or after. -/
theorem untouched_of_abandoned {steps later : List Step} {c : Change}
    (hop : ((Traffic.new w).run steps).operations[id]? = some o) (hphase : o.phase = .waiting c)
    (hsplit : steps ++ .abandon id :: later = before ++ step :: after)
    (hown : step.operation? = some id) :
    ((Traffic.new w).run before).Untouched ((Traffic.new w).run (before ++ [step])) id := by
  have hpending : ((Traffic.new w).run steps).Pending id := by
    intro o' ho'
    rw [hop] at ho'
    cases ho'
    exact .inr ⟨c, hphase⟩
  obtain ⟨hquiet, habandoned⟩ := abandon_waiting hop hphase
  rcases List.append_eq_append_iff.1 hsplit with ⟨between, rfl, hbetween⟩ | ⟨between, rfl, hbetween⟩
  · cases between with
    | nil =>
      -- the step is the one that abandons the operation
      cases hbetween
      rw [List.append_nil, run_concat]
      exact hquiet
    | cons first between =>
      -- the step comes after that
      cases hbetween
      rw [← run_concat] at habandoned
      have hover := isOver_run habandoned rfl between
      rw [← List.append_cons] at hover
      rw [run_concat, step_of_isOver hown hover rfl]
      exact untouched_refl _ _
  · cases between with
    | nil =>
      cases hbetween
      rw [List.append_nil] at *
      rw [run_concat]
      exact hquiet
    | cons first between =>
      -- the step comes before that
      cases hbetween
      exact untouched_of_pending hpending hown

end Runs

/-- Operations on the nodes of a world at the same time come to the same as one after another. -/
structure Linearized (w : World) (steps : List Step) : Prop where
  /-- Every list of a node holds what the committed calls leave there, one after another, and its
  envelopes are theirs. -/
  follows : ∀ (i : Nat) (n : Node), w[i]? = some n →
    ∃ n', ((Traffic.new w).run steps).world[i]? = some n' ∧ ∀ outcome, n.Follows outcome n'
      fun k => Journal.calls i k ((Traffic.new w).run steps).journal
  /-- Every operation commits its change once, after it has begun and before it ends. -/
  commits : ∀ (id : Nat) (o : Operation), ((Traffic.new w).run steps).operations[id]? = some o →
    o.Commits w.length (Journal.commits ⟨id, false⟩ ((Traffic.new w).run steps).journal)
  /-- The committers at a site asked for it in that order. -/
  order : ∀ s, (Journal.committers s ((Traffic.new w).run steps).journal).Sublist
    (Journal.askers s ((Traffic.new w).run steps).journal)
  /-- Every operation asks for its site at most once. -/
  once : ∀ id, (Journal.asks ⟨id, false⟩ ((Traffic.new w).run steps).journal).length ≤ 1
  /-- After its `poll` an operation has begun, whatever rounds are on. -/
  begun : ∀ (id : Nat) (o : Operation),
    ((Traffic.new w).run (steps ++ [.poll id])).operations[id]? = some o → o.phase ≠ .fresh
  /-- An operation that waits for a site after its `poll` waits for another claimant of that site,
  which has it or was handed it. -/
  rival : ∀ (id : Nat) (o : Operation) (visiting : Bool) (s : Site),
    ((Traffic.new w).run (steps ++ [.poll id])).operations[id]? = some o →
    o.asks? visiting = some s → ∃ (who : Claimant) (o' : Operation), who ≠ ⟨id, visiting⟩ ∧
      ((Traffic.new w).run (steps ++ [.poll id])).operations[who.operation]? = some o' ∧
      o'.claims? who.visiting = some s ∧
      (o'.asks? who.visiting = some s →
        ((Traffic.new w).run (steps ++ [.poll id])).locks.isHanded s who = true)
  /-- Apart from the nodes and the claims, other operations play no part in the steps of an
  operation: with any other operations in their place, the step leaves the same nodes, claims and
  journal, and makes the same of its own operation. -/
  apart : ∀ (id : Nat) (step : Step) (others : List Operation), step.operation? = some id →
    others[id]? = ((Traffic.new w).run steps).operations[id]? →
    let t := ((Traffic.new w).run steps).step step
    let t' := (((Traffic.new w).run steps).withOperations others).step step
    t'.world = t.world ∧ t'.locks = t.locks ∧ t'.journal = t.journal ∧
      t'.operations[id]? = t.operations[id]?
  /-- An operation that is abandoned while it waits for its site has not touched anything with any
  of its steps, and does not do so later. -/
  abandoned : ∀ (id : Nat) (o : Operation) (c : Change),
    ((Traffic.new w).run steps).operations[id]? = some o → o.phase = .waiting c →
    ∀ (later before after : List Step) (step : Step),
      steps ++ .abandon id :: later = before ++ step :: after → step.operation? = some id →
      ((Traffic.new w).run before).Untouched ((Traffic.new w).run (before ++ [step])) id

/-- Whatever operations are on their way at the same time, however their steps come about and
however their rounds end, they come to the same as those that have committed, one after another. -/
theorem linearized_run (w : World) (steps : List Step) : Linearized w steps := by
  obtain ⟨standing, hsound, hledger⟩ := exists_ledger (fun _ => .ok .empty) w steps
  have hpoll (id : Nat) := run_concat (Traffic.new w) steps (.poll id)
  refine ⟨fun i n hn => ?_, fun id o hop => commits_of_ledger hsound hledger hop, fun s => ?_,
    fun id => length_asks_le_one hledger id, fun id o hop => ?_,
    fun id o visiting s hop hasks => ?_, fun id step others hown hsame => ?_,
    fun id o c hop hphase later before after step => untouched_of_abandoned hop hphase⟩
  · obtain ⟨n', hn', -⟩ := hledger.serial.node i n hn
    refine ⟨n', hn', fun outcome => ?_⟩
    -- how rounds end makes no difference to the lists and the envelopes
    obtain ⟨_, -, hledger'⟩ := exists_ledger outcome w steps
    obtain ⟨n'', hn'', hcontinues⟩ := hledger'.serial.node i n hn
    cases hn'.symm.trans hn''
    exact hcontinues.follows
  · exact (List.sublist_append_left ..).trans (hledger.fair.line s)
  · rw [hpoll id] at hop
    exact (begun_poll hsound hledger.locked hop).1
  · obtain ⟨standing', hsound', hledger'⟩ :=
      exists_ledger (fun _ => .ok .empty) w (steps ++ [.poll id])
    refine exists_rival hsound' hledger'.locked hop hasks ?_
    rw [hpoll id] at hop
    show ((Traffic.new w).run (steps ++ [.poll id])).locks.isHanded s _ = false
    rw [hpoll id]
    exact (begun_poll hsound hledger.locked hop).2 visiting s hasks
  · exact Traffic.step_withOperations _ hown hsame

end CloudRoster
