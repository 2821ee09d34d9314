import CloudRoster.Proofs.Node.Linearization
import CloudRoster.Proofs.Node.MessageOrder
import CloudRoster.Proofs.Node.Owed
import CloudRoster.Proofs.Node.Turns

/-!
# The removal of a template by its name

`Task.deleteTemplate` looks the template up in its first step and asks for its site then. Whatever
is committed while the removal waits for the site, the value that it found is the one that it brings
the cached copy up to before it takes it away, and the one that the peers are told of
(`removal_by_name_as_found`).

That is the value that stands there when the removal has the site if the template has not been
changed in between; and if it has, the older value is published once more and handed out as the
final state.
-/

namespace CloudRoster

/-! ## What a journal has of one value -/

/-- Every call is that of a change that was committed there. -/
theorem Journal.commitsAbout_ne_nil {journal : Journal} {i : Nat} {k : Kind} {c : Cache.Call k.Val}
    (h : c ∈ journal.calls i k) : journal.commitsAbout i ⟨k, k.key c.value⟩ ≠ [] := by
  obtain ⟨x, hx, hcall⟩ := List.mem_filterMap.1 h
  cases x with
  | asked | handed => cases hcall
  | committed site who c' =>
    obtain ⟨hi, hcall⟩ := Option.ite_none_right_eq_some.1 hcall
    obtain ⟨hk, rfl⟩ : ∃ hk : c'.kind = k, hk ▸ c'.call = c := by
      simpa [Change.callOn] using hcall
    subst hk
    exact List.ne_nil_of_mem (List.mem_filterMap.2 ⟨_, hx, if_pos ⟨hi, rfl⟩⟩)

/-- Notes without a commit about it leave the copy of a value as it was. -/
theorem Node.copyAfter_append (n : Node) (i : Nat) (k : Kind) (key : k.Key) (journal : Journal)
    {notes : Journal} (h : Journal.commitsAbout i ⟨k, key⟩ notes = []) :
    n.copyAfter i k key (journal ++ notes) = n.copyAfter i k key journal := by
  unfold copyAfter valuesAfter
  rw [Journal.calls_append, Cache.contentsAfter_append]
  apply Cache.get?_contentsAfter_of_ne
  rintro c hc rfl
  exact Journal.commitsAbout_ne_nil hc h

/-! ## Going on without another commit -/

/-- An operation goes on without waiting for its site and without a commit. -/
def Proceeds (id : Nat) (t t' : Traffic) : Prop :=
  ∃ (p : Phase) (notes : Journal), (∀ c, p ≠ .waiting c) ∧
    t'.operations = t.operations.modify id (fun o => { o with phase := p }) ∧
    t'.journal = t.journal ++ notes ∧ ∀ who, Journal.commits who notes = []

/-- An operation goes on with a change, and commits it at once or not at all. -/
def Carries (id : Nat) (o : Operation) (c : Change) (t t' : Traffic) : Prop :=
  Proceeds id t t' ∨ ∃ u : Traffic, u.operations = t.operations ∧
    u.journal = t.journal ++ [.committed (o.node, c.subject) ⟨id, false⟩ c] ∧ Proceeds id u t'

section

variable {id : Nat} {o : Operation} {c : Change} {t t' u : Traffic}

theorem Phase.ne_waiting_of_isOver {p : Phase} (h : p.isOver = true) (c : Change) :
    p ≠ .waiting c := by
  rintro rfl
  cases h

/-- Entering a phase without a note. -/
theorem proceeds_enter {p : Phase} (hp : ∀ c, p ≠ .waiting c) (hops : u.operations = t.operations)
    (hjournal : u.journal = t.journal) : Proceeds id t (u.enter id p) :=
  ⟨p, [], hp, congrArg (List.modify · id _) hops, hjournal.trans (List.append_nil _).symm,
    fun _ => rfl⟩

theorem Proceeds.of_notes (hops : u.operations = t.operations) {notes : Journal}
    (hjournal : u.journal = t.journal ++ notes) (hcommits : ∀ who, Journal.commits who notes = [])
    (h : Proceeds id u t') : Proceeds id t t' := by
  obtain ⟨p, later, hp, hops', hjournal', hcommits'⟩ := h
  refine ⟨p, notes ++ later, hp, by rw [hops', hops], ?_, fun who => ?_⟩
  · rw [hjournal', hjournal, List.append_assoc]
  · rw [Journal.commits_append, hcommits, hcommits', List.append_nil]

theorem proceeds_finish (t : Traffic) (result : Except SyncError Unit) :
    Proceeds id t (t.finish id o c result) :=
  proceeds_enter (u := t.release _ _) (Phase.ne_waiting_of_isOver rfl) rfl rfl

theorem proceeds_conclude (t : Traffic) (result : Except SyncError Unit) :
    Proceeds id t (t.conclude id o c result) := by
  unfold Traffic.conclude
  split
  · exact proceeds_enter (fun _ => nofun) rfl rfl
  · exact proceeds_finish t result

/-- Handing out a message is noted, and no commit. -/
theorem notes_sendOne (t : Traffic) (id : Nat) (o : Operation) (c : Change) (m : CacheUpdate) :
    (t.sendOne id o c m).1.operations = t.operations ∧
      ∃ notes, (t.sendOne id o c m).1.journal = t.journal ++ notes ∧
        ∀ who, Journal.commits who notes = [] := by
  unfold Traffic.sendOne
  cases t.world[o.node]? with
  | none => exact ⟨rfl, [], (List.append_nil _).symm, fun _ => rfl⟩
  | some n =>
    simp only
    cases n.broadcaster with
    | loopback peers =>
      simp only
      split <;> exact ⟨rfl, _, rfl, fun _ => rfl⟩
    | _ => exact ⟨rfl, _, rfl, fun _ => rfl⟩

theorem proceeds_sendAll (outbox : List CacheUpdate) (t : Traffic) :
    Proceeds id t (Traffic.sendAll id o c t outbox) := by
  induction outbox generalizing t with
  | nil => exact proceeds_conclude t (.ok ())
  | cons m later ih =>
    obtain ⟨hops, notes, hjournal, hcommits⟩ := notes_sendOne t id o c m
    unfold Traffic.sendAll
    cases hsend : t.sendOne id o c m with
    | mk u outcome =>
      rw [hsend] at hops hjournal
      refine .of_notes hops hjournal hcommits ?_
      cases outcome with
      | inl outcome =>
        simp only
        split
        · exact ih u
        · exact proceeds_conclude u _
      | inr a => exact proceeds_enter (fun _ => nofun) rfl rfl

/-- An operation that has its site commits its change, or is held back. -/
theorem carries_carryOut (t : Traffic) : Carries id o c t (t.carryOut id o c) := by
  unfold Traffic.carryOut
  cases t.world[o.node]? with
  | none => exact .inl (proceeds_finish t (.ok ()))
  | some n =>
    simp only
    cases n.commit c with
    | error e => exact .inl (proceeds_finish t (.error e))
    | ok committed =>
      obtain ⟨n', outbox⟩ := committed
      exact .inr ⟨(t.setNode o.node n').note _, rfl, rfl, proceeds_sendAll outbox _⟩

/-! ## The first steps of an operation -/

variable {step : Step}

/-- A step of an operation that waits for its site carries out the change that it waits with, or
goes on without a commit. -/
theorem carries_of_waiting (hid : step.operation? = some id) (hop : t.operations[id]? = some o)
    (hphase : o.phase = .waiting c) : t.step step = t ∨ Carries id o c t (t.step step) := by
  cases step with
  | start | tick => cases hid
  | poll =>
    cases hid
    simp only [Traffic.step, hop, Option.elim_some, Traffic.poll, hphase]
    split
    · exact .inr (carries_carryOut (t.pickUp (o.node, c.subject) ⟨id, false⟩))
    · exact .inl rfl
  | abandon =>
    cases hid
    simp only [Traffic.step, hop, Option.elim_some, Traffic.abandon, hphase]
    exact .inr (.inl (proceeds_enter (u := t.leave _ _) (Phase.ne_waiting_of_isOver rfl) rfl rfl))
  | answer | persist | expire =>
    cases hid
    simp only [Traffic.step, hop, Option.elim_some, Traffic.answer, Traffic.persist, Traffic.expire,
      hphase, true_or]

/-- An operation that has not begun begins, or does nothing. -/
theorem begins_of_fresh (hid : step.operation? = some id) (hop : t.operations[id]? = some o)
    (hphase : o.phase = .fresh) :
    t.step step = t ∨ Proceeds id t (t.step step) ∨ t.step step = t.begin id o := by
  cases step with
  | start | tick => cases hid
  | poll =>
    cases hid
    simp only [Traffic.step, hop, Option.elim_some, Traffic.poll, hphase, or_true]
  | abandon =>
    cases hid
    simp only [Traffic.step, hop, Option.elim_some, Traffic.abandon, hphase]
    exact .inr (.inl (proceeds_enter (Phase.ne_waiting_of_isOver rfl) rfl rfl))
  | answer | persist | expire =>
    cases hid
    simp only [Traffic.step, hop, Option.elim_some, Traffic.answer, Traffic.persist, Traffic.expire,
      hphase, true_or]

end

/-! ## The removal of a name -/

/-- The site of the template of a name. -/
def nameSite (node : Nat) (name : String) : Site := (node, ⟨.template, .ofName name⟩)

/-- The change that removes a template. -/
def removalOf (v : Template) : Change := ⟨.template, v, .delete, false, true⟩

/-- A value stands under a name after what a journal has of it. -/
def Found (w : World) (node : Nat) (name : String) (v : Template) (journal : Journal) : Prop :=
  ∃ n : Node, w[node]? = some n ∧ n.copyAfter node .template (.ofName name) journal = some v

/-- The first step of a removal by name looks the template up and asks for its site. -/
theorem begin_of_removal (t : Traffic) (id : Nat) {o : Operation} {name : String}
    (htask : o.task = .deleteTemplate name) : Proceeds id t (t.begin id o) ∨ ∃ v u,
      (t.world[o.node]?).bind (·.lists.templates.find? (.ofName name)) = some v ∧
      u.operations = t.operations ∧
      u.journal = t.journal ++ [.asked (o.node, (removalOf v).subject) ⟨id, false⟩] ∧
      (Carries id o (removalOf v) u (t.begin id o) ∨
        t.begin id o = u.enter id (.waiting (removalOf v))) := by
  unfold Traffic.begin
  rw [htask]
  simp only
  split
  · exact .inl (proceeds_enter (Phase.ne_waiting_of_isOver rfl) rfl rfl)
  · rename_i v hfound
    right
    refine ⟨v, (t.claim (o.node, (removalOf v).subject) ⟨id, false⟩).1, hfound, rfl, rfl, ?_⟩
    show Carries _ _ _ _ (t.request id o (removalOf v)) ∨ t.request id o (removalOf v) = _
    unfold Traffic.request
    split
    · rename_i u hasked
      rw [hasked]
      exact .inl (carries_carryOut u)
    · rename_i u hasked
      rw [hasked]
      exact .inr rfl

/-! ### What is known of the value -/

section Seeking

variable {w : World} {id node : Nat} {o : Operation} {name : String} {v : Template}
  {journal notes : Journal}

theorem Found.key_eq (h : Found w node name v journal) : v.key = .ofName name := by
  obtain ⟨n, -, hcopy⟩ := h
  exact Cache.OrderedMap.identify_of_get?_eq_some hcopy

theorem Found.site_eq (h : Found w node name v journal) :
    (node, (removalOf v).subject) = nameSite node name := by
  show (node, (⟨.template, v.key⟩ : (k : Kind) × k.Key)) = _
  rw [h.key_eq]
  rfl

/-- The removal asked for the site of the name when the value stood there. -/
def SoughtWith (w : World) (id node : Nat) (name : String) (v : Template) (journal : Journal) :
    Prop :=
  ∃ before after, journal = before ++ .asked (nameSite node name) ⟨id, false⟩ :: after ∧
    Found w node name v before

/-- The removal asked for the site of the name when the value stood there, and committed the removal
of that value later. -/
def TookWith (w : World) (id node : Nat) (name : String) (v : Template) (journal : Journal) :
    Prop :=
  ∃ before between after, journal = before ++ .asked (nameSite node name) ⟨id, false⟩ ::
      (between ++ .committed (nameSite node name) ⟨id, false⟩ (removalOf v) :: after) ∧
    Found w node name v before

theorem SoughtWith.append (h : SoughtWith w id node name v journal) (notes : Journal) :
    SoughtWith w id node name v (journal ++ notes) := by
  obtain ⟨before, after, rfl, hfound⟩ := h
  exact ⟨before, after ++ notes, by simp, hfound⟩

theorem TookWith.append (h : TookWith w id node name v journal) (notes : Journal) :
    TookWith w id node name v (journal ++ notes) := by
  obtain ⟨before, between, after, rfl, hfound⟩ := h
  exact ⟨before, between, after ++ notes, by simp, hfound⟩

theorem SoughtWith.commit (h : SoughtWith w id node name v journal) :
    TookWith w id node name v
      (journal ++ [.committed (node, (removalOf v).subject) ⟨id, false⟩ (removalOf v)]) := by
  obtain ⟨before, after, rfl, hfound⟩ := h
  exact ⟨before, after, [], by simp [hfound.site_eq], hfound⟩

/-! ### What a removal goes on with -/

/-- A removal by name waits with a value that it found when it asked for its site, and commits no
other one. -/
def Operation.Seeks (w : World) (journal : Journal) (id : Nat) (o : Operation) : Prop :=
  ∀ name, o.task = .deleteTemplate name →
    (∀ c, o.phase = .waiting c → ∃ v, c = removalOf v ∧ SoughtWith w id o.node name v journal) ∧
    ∀ s c, (s, c) ∈ journal.commits ⟨id, false⟩ →
      ∃ v, c = removalOf v ∧ TookWith w id o.node name v journal

namespace Operation.Seeks

/-- Notes that are none of its commits change nothing for an operation. -/
theorem append (h : o.Seeks w journal id) (hnotes : notes.commits ⟨id, false⟩ = []) :
    o.Seeks w (journal ++ notes) id := by
  intro name htask
  obtain ⟨hwaiting, hcommits⟩ := h name htask
  refine ⟨fun c hphase => ?_, fun s c hc => ?_⟩
  · obtain ⟨v, rfl, hsought⟩ := hwaiting c hphase
    exact ⟨v, rfl, hsought.append notes⟩
  · rw [Journal.commits_append, hnotes, List.append_nil] at hc
    obtain ⟨v, rfl, htook⟩ := hcommits s c hc
    exact ⟨v, rfl, htook.append notes⟩

/-- An operation that waits no more is only known by its commits. -/
theorem enter (h : o.Seeks w journal id) {p : Phase} (hp : ∀ c, p ≠ .waiting c) :
    ({ o with phase := p }).Seeks w journal id :=
  fun name htask => ⟨fun c hphase => absurd hphase (hp c), (h name htask).2⟩

end Operation.Seeks

section

variable {t t' : Traffic} {o' : Operation}

theorem Proceeds.seeks (h : Proceeds id t t') (hop : t.operations[id]? = some o)
    (ho' : t'.operations[id]? = some o') (hseeks : o.Seeks w t.journal id) :
    o'.Seeks w t'.journal id := by
  obtain ⟨p, notes, hp, hops, hjournal, hcommits⟩ := h
  rw [hops] at ho'
  rw [Traffic.eq_of_getElem?_modify hop ho', hjournal]
  exact (hseeks.enter hp).append (hcommits _)

/-- An operation that carries out the removal that it sought its site with commits the value that it
found. -/
theorem Carries.seeks (h : Carries id o (removalOf v) t t') (hop : t.operations[id]? = some o)
    (ho' : t'.operations[id]? = some o') (htask : o.task = .deleteTemplate name)
    (hsought : SoughtWith w id o.node name v t.journal)
    (hseeks : o.Seeks w t.journal id) (hnone : Journal.commits ⟨id, false⟩ t.journal = []) :
    o'.Seeks w t'.journal id := by
  rcases h with hgoes | ⟨u, hops, hjournal, hgoes⟩
  · exact hgoes.seeks hop ho' hseeks
  · obtain ⟨p, notes, hp, hops', hjournal', hcommits⟩ := hgoes
    rw [hops', hops] at ho'
    rw [Traffic.eq_of_getElem?_modify hop ho', hjournal', hjournal]
    refine Operation.Seeks.append (fun name' htask' => ⟨fun c hphase => absurd hphase (hp c), ?_⟩)
      (hcommits _)
    cases htask.symm.trans htask'
    intro s c hc
    rw [Journal.commits_append, hnone, Journal.commits_committed] at hc
    cases List.mem_singleton.1 hc
    exact ⟨v, rfl, hsought.commit⟩

end

/-! ### Steps and runs -/

section

variable {x : Scene} {step : Step} {o' : Operation}

/-- What an operation looks up is what the journal has left there. -/
theorem found_of_lookup (htidy : w.Tidy)
    (hserial : Serial (fun _ => .ok .empty) w x.traffic.world x.traffic.journal)
    (hlookup : (x.traffic.world[node]?).bind (·.lists.templates.find? (.ofName name)) = some v) :
    Found w node name v x.traffic.journal := by
  obtain ⟨n', hn', hfind⟩ := Option.bind_eq_some_iff.1 hlookup
  obtain ⟨n, hn, hcontinues⟩ := hserial.origin hn'
  have htidy' : n.Tidy := htidy n (List.mem_of_getElem? hn)
  exact ⟨n, hn, (hcontinues.find?_eq htidy' .template (.ofName name)).symm.trans hfind⟩

/-- The first step of a removal by name: what it found is what it asks for its site with. -/
theorem seeks_begin (htidy : w.Tidy)
    (hserial : Serial (fun _ => .ok .empty) w x.traffic.world x.traffic.journal)
    (hop : x.traffic.operations[id]? = some o) (hseeks : o.Seeks w x.traffic.journal id)
    (hnone : Journal.commits ⟨id, false⟩ x.traffic.journal = [])
    (htask : o.task = .deleteTemplate name)
    (ho' : (x.traffic.begin id o).operations[id]? = some o') :
    o'.Seeks w (x.traffic.begin id o).journal id := by
  rcases begin_of_removal x.traffic id htask with
    hgoes | ⟨v, u, hlookup, hops, hjournal, hgoes⟩
  · exact hgoes.seeks hop ho' hseeks
  · have hfound := found_of_lookup htidy hserial hlookup
    rw [hfound.site_eq] at hjournal
    have hsought : SoughtWith w id o.node name v u.journal := ⟨_, [], hjournal, hfound⟩
    have hop' : u.operations[id]? = some o := hops ▸ hop
    have hseeks' : o.Seeks w u.journal id := hjournal ▸ hseeks.append rfl
    have hnone' : Journal.commits ⟨id, false⟩ u.journal = [] := by
      rw [hjournal, Journal.commits_append, hnone]
      rfl
    rcases hgoes with hgoes | heq
    · exact hgoes.seeks hop' ho' htask hsought hseeks' hnone'
    · rw [heq] at ho' ⊢
      rw [Traffic.eq_of_getElem?_modify hop' ho']
      intro name' htask'
      cases htask.symm.trans htask'
      refine ⟨fun c hphase => ?_, (hseeks' name htask).2⟩
      cases hphase
      exact ⟨v, rfl, hsought⟩

/-- A step of its own, before the removal has committed anything. -/
theorem seeks_uncommitted (htidy : w.Tidy) (hsound : Sound x)
    (hledger : Ledger (fun _ => .ok .empty) w x) (hid : step.operation? = some id)
    (hop : x.traffic.operations[id]? = some o) (hlive : o.phase.isOver = false)
    (hseeks : o.Seeks w x.traffic.journal id)
    (hnone : Journal.commits ⟨id, false⟩ x.traffic.journal = [])
    (ho' : (x.traffic.step step).operations[id]? = some o')
    (htask : o.task = .deleteTemplate name) :
    o'.Seeks w (x.traffic.step step).journal id := by
  have hphase := commits_of_ledger hsound hledger hop
  have hsame : x.traffic.step step = x.traffic → o'.Seeks w (x.traffic.step step).journal id := by
    intro heq
    rw [heq] at ho' ⊢
    cases hop.symm.trans ho'
    exact hseeks
  unfold Operation.Commits at hphase
  cases hp : o.phase with
  | fresh =>
    rcases begins_of_fresh hid hop hp with heq | hgoes | heq
    · exact hsame heq
    · exact hgoes.seeks hop ho' hseeks
    · rw [heq] at ho' ⊢
      exact seeks_begin htidy hledger.serial hop hseeks hnone htask ho'
  | waiting c =>
    obtain ⟨v, rfl, hsought⟩ := (hseeks name htask).1 c hp
    rcases carries_of_waiting hid hop hp with heq | hgoes
    · exact hsame heq
    · exact hgoes.seeks hop ho' htask hsought hseeks hnone
  | round c r | storing c result =>
    rw [hp] at hphase
    cases hnone.symm.trans hphase.1
  | ended e | abandoned =>
    rw [hp] at hlive
    cases hlive

/-- A step of its own, after the removal has committed: it commits no more, and waits for its site
no more. -/
theorem seeks_committed {standing' : Claimant → Standing}
    (hsound' : Sound ⟨x.traffic.step step, standing'⟩)
    (hledger' : Ledger (fun _ => .ok .empty) w ⟨x.traffic.step step, standing'⟩)
    (hop : x.traffic.operations[id]? = some o) (hseeks : o.Seeks w x.traffic.journal id)
    (hsome : Journal.commits ⟨id, false⟩ x.traffic.journal ≠ []) {p : Phase}
    (hjournal : (x.traffic.step step).journal = x.traffic.journal ++ notes)
    (hops : (x.traffic.step step).operations =
      x.traffic.operations.modify id fun o => { o with phase := p })
    (ho' : (x.traffic.step step).operations[id]? = some o') :
    o'.Seeks w (x.traffic.step step).journal id := by
  have hcommits := commits_of_ledger hsound' hledger' ho'
  have hlength := length_commits_le_one hledger' id
  simp only [hjournal, Journal.commits_append] at hcommits hlength
  have hpos := List.length_pos_of_ne_nil hsome
  have hnotes : Journal.commits ⟨id, false⟩ notes = [] := by
    rw [List.length_append] at hlength
    exact List.length_eq_zero_iff.1 (by omega)
  rw [hops] at ho'
  rw [Traffic.eq_of_getElem?_modify hop ho'] at hcommits ⊢
  rw [hjournal]
  refine (hseeks.enter fun c hp => hsome ?_).append hnotes
  subst hp
  exact (List.append_eq_nil_iff.1 hcommits).1

/-- A step of any operation keeps what is known of a removal by name. -/
theorem seeks_step (htidy : w.Tidy) (hsound : Sound x)
    (hledger : Ledger (fun _ => .ok .empty) w x) {standing' : Claimant → Standing}
    (hsound' : Sound ⟨x.traffic.step step, standing'⟩)
    (hledger' : Ledger (fun _ => .ok .empty) w ⟨x.traffic.step step, standing'⟩)
    (h : ∀ (id : Nat) (o : Operation), x.traffic.operations[id]? = some o →
      o.Seeks w x.traffic.journal id)
    (id : Nat) (o' : Operation) (ho' : (x.traffic.step step).operations[id]? = some o') :
    o'.Seeks w (x.traffic.step step).journal id := by
  intro name htask
  rcases step_cases step hsound.allows with
    ⟨node, task, rfl⟩ | ⟨ms, rfl⟩ | ⟨id', hid, heq | ⟨o, hop, hlive, hgoes⟩⟩
  · rcases Nat.lt_or_ge id x.traffic.operations.length with hlt | hge
    · exact h id o' ((List.getElem?_append_left hlt).symm.trans ho') name htask
    · -- the operation is the one that was started, and nothing is noted of it
      have hnew :
          [(⟨node, task, .fresh⟩ : Operation)][id - x.traffic.operations.length]? = some o' :=
        (List.getElem?_append_right hge).symm.trans ho'
      rw [List.mem_singleton.1 (List.mem_of_getElem? hnew)]
      refine ⟨fun c => nofun, fun s c hc => ?_⟩
      obtain ⟨o, hop, -⟩ := hledger.owned id s c hc
      exact absurd (List.getElem?_eq_some_iff.1 hop).1 (Nat.not_lt.2 hge)
  · exact h id o' ho' name htask
  · rw [heq] at ho' ⊢
    exact h id o' ho' name htask
  · obtain ⟨y, p, hmoves, -, heq⟩ := exists_moves hgoes
    obtain ⟨notes, hjournal, hcommits⟩ := hmoves.exists_notes
    have hjournal' : (x.traffic.step step).journal = x.traffic.journal ++ notes :=
      heq ▸ hjournal
    have hops' : (x.traffic.step step).operations =
        x.traffic.operations.modify id' fun o => { o with phase := p } := by
      rw [heq]
      exact congrArg (List.modify · id' _) hmoves.frame.1
    rcases Traffic.of_getElem?_modify hop (hops' ▸ ho') with ⟨rfl, hentered⟩ | ⟨hne, hother⟩
    · have htask' : o.task = .deleteTemplate name := by rw [← htask, hentered]
      by_cases hnone : Journal.commits ⟨id, false⟩ x.traffic.journal = []
      · exact seeks_uncommitted htidy hsound hledger hid hop hlive (h id o hop) hnone ho' htask'
          name htask
      · exact seeks_committed hsound' hledger' hop (h id o hop) hnone hjournal' hops' ho'
          name htask
    · rw [hjournal']
      exact (h id o' hother).append (hcommits ⟨id, false⟩ hne) name htask

end

/-- In every run, removals by name commit what they found when they asked for their site. -/
theorem seeks_run (htidy : w.Tidy) (steps : List Step) (id : Nat) (o : Operation)
    (hop : ((Traffic.new w).run steps).operations[id]? = some o) :
    o.Seeks w ((Traffic.new w).run steps).journal id := by
  induction steps using List.reverseRecOn generalizing id o with
  | nil => cases hop
  | append_singleton steps step ih =>
    obtain ⟨standing, hsound, hledger⟩ := exists_ledger (fun _ => .ok .empty) w steps
    obtain ⟨standing', hsound', hledger'⟩ :=
      exists_ledger (fun _ => .ok .empty) w (steps ++ [step])
    rw [run_concat] at hop hsound' hledger' ⊢
    exact seeks_step htidy hsound hledger hsound' hledger' ih id o hop

/-! ## What the removal publishes and hands out -/

namespace Journal

variable {who : Claimant} {s s' : Site} {c c' : Change} {before before' after after' : Journal}

/-- Before the one commit of an operation there is none. -/
theorem commits_before (hone : (journal.commits who).length ≤ 1)
    (h : journal = before ++ .committed s who c :: after) : before.commits who = [] := by
  have hnext : 1 ≤ (Journal.commits who (.committed s who c :: after)).length := by
    simp [Journal.commits]
  rw [h, Journal.commits_append, List.length_append] at hone
  exact List.length_eq_zero_iff.1 (by omega)

/-- A journal is split in one way only at the first commit of an operation. -/
theorem eq_of_split (h : before.commits who = []) (h' : before'.commits who = [])
    (heq : before ++ .committed s who c :: after = before' ++ .committed s' who c' :: after') :
    before = before' := by
  induction before generalizing before' with
  | nil =>
    cases before' with
    | nil => rfl
    | cons x before' =>
      obtain ⟨rfl, -⟩ := List.cons.inj heq
      simp [commits] at h'
  | cons x before ih =>
    cases before' with
    | nil =>
      obtain ⟨rfl, -⟩ := List.cons.inj heq
      simp [commits] at h
    | cons x' before' =>
      obtain ⟨rfl, hlater⟩ := List.cons.inj heq
      have htail : ∀ j : Journal, commits who (x :: j) = [] → commits who j = [] := fun j hj =>
        List.filterMap_eq_nil_iff.2 fun y hy =>
          List.filterMap_eq_nil_iff.1 hj y (List.mem_cons_of_mem x hy)
      exact congrArg (x :: ·) (ih (htail before h) (htail before' h') hlater)

end Journal

/-- What the removal of a value publishes where a copy stands, or none. -/
def removalEvents (v : Template) (copy : Option Template) : List Cache.Envelope :=
  (copy.elim [] fun _ => [.templateUpdated v, .templateDeleted v]).map
    fun e => ⟨Kind.template.listName, false, e⟩

/-- What the peers are to be told of the removal of a value where a copy stands, or none. -/
def removalMessages (n : Node) (v : Template) (copy : Option Template) : List CacheUpdate :=
  if n.spreads .template then
    copy.elim [] fun _ => [.about .template v .update, .about .template v .delete]
  else []

/-- How a removal by name has gone on a node that was `n` in the beginning and is `n'` now: it found
a value and asked for its site, then others may have changed the template, and then it has committed
the removal of the value. -/
structure RemovedAs (n n' : Node) (t : Traffic) (id : Nat) (o : Operation) (name : String)
    (v : Template) (before between upTo after : Journal) : Prop where
  asked : upTo = before ++ .asked (nameSite o.node name) ⟨id, false⟩ :: between
  committed : t.journal =
    upTo ++ .committed (nameSite o.node name) ⟨id, false⟩ (removalOf v) :: after
  /-- The value stood under the name when the removal asked for the site. -/
  found : n.copyAfter o.node .template (.ofName name) before = some v
  /-- If the template was not changed in between, the value stands there when it is removed. -/
  unchanged : Journal.commitsAbout o.node ⟨.template, .ofName name⟩ between = [] →
    n.copyAfter o.node .template (.ofName name) upTo = some v
  /-- Whatever copy stands there when it is removed, the events are those of the value. -/
  published : ∃ later, n'.envelopes .template = n.envelopesAfter o.node .template upTo ++
    removalEvents v (n.copyAfter o.node .template (.ofName name) upTo) ++ later
  /-- So are the messages: what was handed out begins them. -/
  sent : Journal.sentBy ⟨id, false⟩ t.journal <+:
    removalMessages n v (n.copyAfter o.node .template (.ofName name) upTo)
  /-- A removal that ended well has handed out all of them. -/
  complete : o.phase = .ended (.result (.ok ())) → Journal.sentBy ⟨id, false⟩ t.journal =
    removalMessages n v (n.copyAfter o.node .template (.ofName name) upTo)
  /-- What the journal has left under the name is what stands there. -/
  left : n'.lists.templates.find? (.ofName name) =
    n.copyAfter o.node .template (.ofName name) t.journal

/-- With the commit of a removal the events of the value are published. -/
theorem published_removalOf (n : Node) (site : Site) (who : Claimant) (v : Template)
    (journal notes : Journal) :
    ∃ later, n.envelopesAfter site.1 .template
        (journal ++ .committed site who (removalOf v) :: notes) =
      n.envelopesAfter site.1 .template journal ++
        removalEvents v (n.copyAfter site.1 .template v.key journal) ++ later := by
  obtain ⟨later, hturns⟩ := n.turns_committed site.1 journal notes site rfl who (removalOf v)
  have hevents : ∀ copy : Option Template,
      Cache.Turn.envelopes ⟨copy, (removalOf v).call⟩ = removalEvents v copy := by
    intro copy
    cases copy <;> rfl
  refine ⟨later.flatMap Cache.Turn.envelopes, ?_⟩
  rw [Node.envelopesAfter_append, List.append_assoc]
  refine congrArg (n.envelopesAfter site.1 .template journal ++ ·) ?_
  refine (congrArg (List.flatMap Cache.Turn.envelopes) hturns).trans ?_
  rw [List.flatMap_cons]
  exact congrArg (· ++ later.flatMap Cache.Turn.envelopes) (hevents _)

/-- What is due for the removal of a value is read off the copy that stands there. -/
theorem messages_removalOf {n : Node} (htidy : n.Tidy) (i : Nat) (hfound : v.key = .ofName name)
    (journal : Journal) :
    (removalOf v).call.messages (n.spreads .template)
        (((n.list .template).run (fun _ => .ok .empty) (journal.calls i .template)).get?
          (Kind.template.key v)) =
      removalMessages n v (n.copyAfter i .template (.ofName name) journal) := by
  obtain ⟨hentries, -⟩ := Cache.CacheList.run_eq (l := n.list .template) rfl (htidy .template)
    (journal.calls i .template)
  have hcopy : ((n.list .template).run (fun _ => .ok .empty) (journal.calls i .template)).get?
      (Kind.template.key v) = n.copyAfter i .template (.ofName name) journal := by
    show Cache.Entries.find? (Cache.CacheList.entries _) v.key = _
    rw [hentries, hfound, Cache.Entries.find?_keyedBy]
    rfl
  rw [hcopy]
  unfold removalMessages
  cases n.copyAfter i .template (.ofName name) journal <;> cases hspreads : n.spreads .template <;>
    rfl

/-- Whatever happens at the same time, a removal by name that takes a template away publishes the
value that it found before it had the site, and hands out that value as the final state. -/
theorem removal_by_name_as_found (htidy : w.Tidy) (steps : List Step) {n : Node}
    (hop : ((Traffic.new w).run steps).operations[id]? = some o)
    (htask : o.task = .deleteTemplate name) (hn : w[o.node]? = some n) {s : Site} {c : Change}
    (hcommit : (s, c) ∈ Journal.commits ⟨id, false⟩ ((Traffic.new w).run steps).journal) :
    ∃ v n' before between upTo after, s = nameSite o.node name ∧ c = removalOf v ∧
      ((Traffic.new w).run steps).world[o.node]? = some n' ∧
      RemovedAs n n' ((Traffic.new w).run steps) id o name v before between upTo after := by
  obtain ⟨standing, hsound, hledger⟩ := exists_ledger (fun _ => .ok .empty) w steps
  have hnode : n.Tidy := htidy n (List.mem_of_getElem? hn)
  obtain ⟨v, rfl, before, between, after, hjournal, hfound⟩ :=
    (seeks_run htidy steps id o hop name htask).2 s c hcommit
  have hsite := hfound.site_eq
  have hkey := hfound.key_eq
  obtain ⟨n₀, hn₀, hcopy⟩ := hfound
  cases hn.symm.trans hn₀
  obtain ⟨n', hn', hcontinues⟩ := hledger.serial.node o.node n hn
  obtain ⟨o', hop', rfl, -⟩ := hledger.owned id s _ hcommit
  cases hop.symm.trans hop'
  obtain ⟨upTo, hupTo⟩ : ∃ upTo, upTo =
    before ++ .asked (nameSite o.node name) ⟨id, false⟩ :: between := ⟨_, rfl⟩
  have hcommitted : ((Traffic.new w).run steps).journal =
      upTo ++ .committed (nameSite o.node name) ⟨id, false⟩ (removalOf v) :: after := by
    rw [hjournal, hupTo]
    simp
  -- the commit that is known from the ledger is the one that the removal made
  obtain ⟨o'', before', after', hop'', -, -, -, hjournal', hsent⟩ :=
    handsOut_of_ledger hsound hledger hn hcommit
  cases hop.symm.trans hop''
  have hone := length_commits_le_one hledger id
  obtain rfl : before' = upTo := Journal.eq_of_split (Journal.commits_before hone hjournal')
    (Journal.commits_before hone hcommitted) (hjournal'.symm.trans hcommitted)
  obtain ⟨hbegins, hall⟩ := hsent
  have hmessages := messages_removalOf hnode o.node hkey before'
  refine ⟨v, n', before, between, before', after, hsite, rfl, hn', hupTo, hcommitted, hcopy,
    fun hquiet => ?_, ?_, ?_, fun hended => ?_,
    hcontinues.find?_eq hnode .template (.ofName name)⟩
  · have hnotes : Journal.commitsAbout o.node ⟨.template, .ofName name⟩
        (.asked (nameSite o.node name) ⟨id, false⟩ :: between) = [] := hquiet
    rw [hupTo]
    exact (n.copyAfter_append o.node .template (.ofName name) before hnotes).trans hcopy
  · obtain ⟨later, hlater⟩ :=
      published_removalOf n (nameSite o.node name) ⟨id, false⟩ v before' after
    refine ⟨later, (hcontinues.eq_turns hnode .template).2.trans ?_⟩
    rw [hcommitted, ← hkey]
    exact hlater
  · rw [← hmessages]
    exact hbegins
  · rw [← hmessages]
    exact hall (by rw [hended, htask]; rfl)

end Seeking

/-! ### A template that is changed while its removal waits

An update whose round is on its way, another update that waits behind it, and a removal by name
behind both. -/

namespace Overtaken

/-- A node whose peer is outside the world. -/
def node : Node := .new .standard (.external 1 fun _ => ⟨0, .ok .empty⟩) none none

def first : Template := .new "Base"

/-- The template as it is before it is removed. -/
def last : Template := { first with inheritedTemplateNames := ["Root"] }

/-- Up to where the removal takes the template's site. -/
def upTo : List Step :=
  [.start 0 (.change ⟨.template, first, .update, false, true⟩),
    .start 0 (.change ⟨.template, last, .update, false, true⟩), .start 0 (.deleteTemplate "Base"),
    .poll 0, .poll 1, .poll 2, .answer 0 (.ok .empty), .poll 1, .answer 1 (.ok .empty)]

/-- The whole run. -/
def steps : List Step := upTo ++ [.poll 2, .answer 2 (.ok .empty), .answer 2 (.ok .empty)]

theorem tidy_world : World.Tidy [node] := by
  rintro n hn
  rw [List.mem_singleton.1 hn]
  exact Node.tidy_new _ _ _ _

/-- The last update is what the list holds when the removal takes the site. The removal ends well
and takes the template away; it publishes the first update, and hands it out as the final state. -/
theorem removal_by_name_revives :
    (((Traffic.new [node]).run upTo).world[0]?).map (·.values .template) = some [last] ∧
    (((Traffic.new [node]).run steps).operations[2]?).map (·.phase) =
      some (.ended (.result (.ok ()))) ∧
    (((Traffic.new [node]).run steps).world[0]?).map (·.values .template) = some [] ∧
    (((Traffic.new [node]).run steps).world[0]?).map (fun n => n.bus.log.map (·.event)) =
      some [.templateCreated first, .templateUpdated last, .templateUpdated first,
        .templateDeleted first] ∧
    Journal.sentBy ⟨2, false⟩ ((Traffic.new [node]).run steps).journal =
      [.about .template first .update, .about .template first .delete] ∧
    first ≠ last := by
  refine ⟨rfl, rfl, rfl, rfl, rfl, by decide⟩

/-- The removal found the first update, and that is what it is about. -/
theorem removal_by_name_as_found_overtaken :
    ∃ v n' before between upTo' after, v = first ∧
      ((Traffic.new [node]).run steps).world[0]? = some n' ∧
      RemovedAs node n' ((Traffic.new [node]).run steps) 2
        ⟨0, .deleteTemplate "Base", .ended (.result (.ok ()))⟩ "Base" v before between upTo'
        after := by
  have hcommit : (nameSite 0 "Base", removalOf first) ∈
      Journal.commits ⟨2, false⟩ ((Traffic.new [node]).run steps).journal := by
    rw [show Journal.commits ⟨2, false⟩ ((Traffic.new [node]).run steps).journal =
      [(nameSite 0 "Base", removalOf first)] from rfl]
    exact List.mem_cons_self
  obtain ⟨v, n', before, between, upTo', after, -, hv, hn', hremoved⟩ :=
    removal_by_name_as_found tidy_world steps
      (o := ⟨0, .deleteTemplate "Base", .ended (.result (.ok ()))⟩) rfl rfl rfl hcommit
  cases hv
  exact ⟨first, n', before, between, upTo', after, rfl, hn', hremoved⟩

end Overtaken

end CloudRoster
