import CloudRoster.Proofs.Node.EventLog
import CloudRoster.Proofs.Node.Turns

/-!
# Derived transitions

The creation of a service tells its state, and `serviceStateChanged` tells each way from one state
to another; the events of a player tell its server in the same manner. `Gauge.keepAll` keeps what
was told last of each value. What is kept is the state or server of the cached value
(`Gauge.Knows`), and each event begins at what is kept when it comes, whatever else changes in
between. No event tells that a player has left its server; its way to the next server has no old
one.
-/

namespace CloudRoster

open Cache (Call Delivery contentsAfter eventsAfter eventsOf eventsOfRemoval eventsOfUpdate turns)
open Cache.OrderedMap (get?)
open Function (update update_of_ne update_self)

/-! ## Keeping one thing of each value -/

/-- One thing that values of a kind may have, and the events that tell of it: when a value is new,
and when it has another one than the copy before it. That a value has none any more is not told. -/
structure Gauge (k : Kind) (β : Type) [DecidableEq β] where
  /-- What a value has. -/
  shown : k.Val → Option β
  /-- What an event tells, and of which value. -/
  told? : Event → Option (k.Key × Option β)
  told_new : ∀ v, (eventsOfUpdate k v none).filterMap told? = [(k.key v, shown v)]
  told_changed : ∀ v old, (eventsOfUpdate k v (some old)).filterMap told? =
    if shown v = none ∨ shown old = shown v then [] else [(k.key v, shown v)]
  told_removal : ∀ v, (eventsOfRemoval k v).filterMap told? = []

namespace Gauge

variable {k : Kind} {β : Type} [DecidableEq β] (g : Gauge k β)

/-- What is kept of each value after an event. -/
def keep (kept : k.Key → Option β) (e : Event) : k.Key → Option β :=
  (g.told? e).elim kept fun told => update kept told.1 told.2

/-- What is kept of each value after events. -/
def keepAll (kept : k.Key → Option β) (es : List Event) : k.Key → Option β :=
  es.foldl g.keep kept

variable {kept : k.Key → Option β} {es es' : List Event} {e : Event} {vs : List k.Val}

@[simp]
theorem keepAll_append : g.keepAll kept (es ++ es') = g.keepAll (g.keepAll kept es) es' :=
  List.foldl_append

/-- `keepAll` depends only on what `told?` reads of the events. -/
theorem keepAll_eq : g.keepAll kept es =
    (es.filterMap g.told?).foldl (fun kept told => update kept told.1 told.2) kept := by
  induction es generalizing kept with
  | nil => rfl
  | cons e es ih =>
    refine ih.trans ?_
    cases htold : g.told? e <;> simp [keep, htold]

theorem keepAll_removal (v : k.Val) : g.keepAll kept (eventsOfRemoval k v) = kept := by
  rw [keepAll_eq, g.told_removal]
  rfl

/-- The events of a value leave what is kept of other keys as it is. -/
theorem keepAll_update_of_ne (v : k.Val) (entry : Option k.Val) {key : k.Key}
    (h : key ≠ k.key v) : g.keepAll kept (eventsOfUpdate k v entry) key = kept key := by
  rw [keepAll_eq]
  cases entry with
  | none =>
    rw [g.told_new]
    exact update_of_ne h ..
  | some old =>
    rw [g.told_changed]
    split
    · rfl
    · exact update_of_ne h ..

/-- What is kept of each value that has something is what it has. -/
def Knows (kept : k.Key → Option β) (vs : List k.Val) : Prop :=
  ∀ key v, get? k.key vs key = some v → g.shown v = none ∨ kept key = g.shown v

variable {g}

theorem Knows.nil (kept : k.Key → Option β) : g.Knows kept [] := fun _ _ => nofun

/-- After the events for a value, what is kept of its key is what the value has. -/
theorem Knows.keepAll_update (h : g.Knows kept vs) (v : k.Val) :
    g.shown v = none ∨
      g.keepAll kept (eventsOfUpdate k v (get? k.key vs (k.key v))) (k.key v) = g.shown v := by
  rw [keepAll_eq]
  cases hentry : get? k.key vs (k.key v) with
  | none =>
    rw [g.told_new]
    exact .inr (update_self ..)
  | some old =>
    rw [g.told_changed]
    split
    · rename_i hquiet
      rcases hquiet with hnone | hsame
      · exact .inl hnone
      · rw [← hsame]
        exact h (k.key v) old hentry
    · exact .inr (update_self ..)

/-- The events of a call keep `Knows`. -/
theorem Knows.turn (h : g.Knows kept vs) (c : Call k.Val) :
    g.Knows (g.keepAll kept (Cache.Turn.of vs c).events) (c.applyTo vs) := by
  intro key v hv
  by_cases hkey : key = k.key c.value
  · subst hkey
    rw [c.get?_applyTo_self] at hv
    obtain ⟨value, action, fromPacket⟩ := c
    cases action with
    | update =>
      cases hv
      exact h.keepAll_update value
    | delete => cases hv
  · have hsame : g.keepAll kept (Cache.Turn.of vs c).events key = kept key := by
      obtain ⟨value, action, fromPacket⟩ := c
      cases action with
      | update => exact g.keepAll_update_of_ne value _ hkey
      | delete =>
        show g.keepAll kept (Call.events _ (get? k.key vs (k.key value))) key = kept key
        cases get? k.key vs (k.key value) with
        | none => rfl
        | some cached =>
          show g.keepAll kept (eventsOfUpdate k value (some cached) ++ eventsOfRemoval k value)
            key = kept key
          rw [keepAll_append, keepAll_removal]
          exact g.keepAll_update_of_ne value _ hkey
    rw [hsame]
    exact h key v ((c.get?_applyTo_of_ne vs hkey).symm.trans hv)

/-- The events of any number of calls keep `Knows`. -/
theorem Knows.turns (h : g.Knows kept vs) (calls : List (Call k.Val)) :
    g.Knows (g.keepAll kept (eventsAfter vs calls)) (contentsAfter vs calls) := by
  induction calls generalizing kept vs with
  | nil => exact h
  | cons c calls ih =>
    have hrest := ih (h.turn c)
    rw [← keepAll_append] at hrest
    exact hrest

/-! ### Conditions on every event -/

variable (g) in
/-- A condition on every event and on what is kept when it comes. -/
def Throughout (P : (k.Key → Option β) → Event → Prop) (kept : k.Key → Option β)
    (es : List Event) : Prop :=
  ∀ before e after, es = before ++ e :: after → P (g.keepAll kept before) e

variable {P : (k.Key → Option β) → Event → Prop}

theorem throughout_nil : g.Throughout P kept [] := by
  intro before e after h
  simp at h

theorem Throughout.cons (h : P kept e) (hes : g.Throughout P (g.keep kept e) es) :
    g.Throughout P kept (e :: es) := by
  intro before e' after heq
  cases before with
  | nil =>
    obtain ⟨rfl, -⟩ := List.cons.inj heq
    exact h
  | cons first before =>
    obtain ⟨rfl, hes'⟩ := List.cons.inj heq
    exact hes before e' after hes'

theorem Throughout.append (h : g.Throughout P kept es)
    (h' : g.Throughout P (g.keepAll kept es) es') : g.Throughout P kept (es ++ es') := by
  induction es generalizing kept with
  | nil => exact h'
  | cons e es ih =>
    exact .cons (h [] e es rfl)
      (ih (fun before e' after heq => h (e :: before) e' after (heq ▸ rfl)) h')

/-- Events that meet a condition whatever is kept. -/
theorem throughout_of_forall (h : ∀ e ∈ es, ∀ kept, P kept e) : g.Throughout P kept es := by
  rintro before e after rfl
  exact h e (List.mem_append_right before List.mem_cons_self) _

/-- The events of a call are those of its value, and those of the removal behind them. -/
theorem throughout_turn (c : Call k.Val)
    (hupdate : g.Throughout P kept (eventsOfUpdate k c.value (get? k.key vs (k.key c.value))))
    (hremoval : ∀ kept, g.Throughout P kept (eventsOfRemoval k c.value)) :
    g.Throughout P kept (Cache.Turn.of vs c).events := by
  obtain ⟨v, action, fromPacket⟩ := c
  cases action with
  | update => exact hupdate
  | delete =>
    show g.Throughout P kept (Call.events _ (get? k.key vs (k.key v)))
    cases hentry : get? k.key vs (k.key v) with
    | none => exact throughout_nil
    | some cached =>
      rw [hentry] at hupdate
      exact hupdate.append (hremoval _)

/-- A condition that the events of each call meet from `Knows` on is met by the events of any number
of calls. -/
theorem Knows.throughout (hturn : ∀ kept vs, g.Knows kept vs → ∀ c : Call k.Val,
      g.Throughout P kept (Cache.Turn.of vs c).events)
    (h : g.Knows kept vs) (calls : List (Call k.Val)) :
    g.Throughout P kept (eventsAfter vs calls) := by
  induction calls generalizing kept vs with
  | nil => exact throughout_nil
  | cons c calls ih => exact (hturn kept vs h c).append (ih (h.turn c))

end Gauge

/-! ## The states of services -/

/-- The state of a service, as it is told when the service is registered and when it changes. -/
def stateGauge : Gauge .service ServiceState where
  shown s := some s.state
  told?
    | .serviceRegistered s => some (s.key, some s.state)
    | .serviceStateChanged s _ new => some (s.key, some new)
    | _ => none
  told_new _ := rfl
  told_changed v old := by
    by_cases hstate : old.state = v.state <;>
      cases hauth : !old.authenticated && v.authenticated <;>
        simp [eventsOfUpdate, Cache.serviceEvents, hstate, hauth, Kind.key]
  told_removal _ := rfl

/-- A way to another state begins at the state that is kept, and ends elsewhere. -/
def LeadsOn (kept : NameKey → Option ServiceState) (e : Event) : Prop :=
  ∀ s old new, e = .serviceStateChanged s old new → kept s.key = some old ∧ old ≠ new

/-- The calls on the services only tell ways that begin at the state that is kept. -/
theorem leadsOn_turn {kept : NameKey → Option ServiceState} {vs : List Kind.service.Val}
    (h : stateGauge.Knows kept vs) (c : Call Kind.service.Val) :
    stateGauge.Throughout LeadsOn kept (Cache.Turn.of vs c).events := by
  refine Gauge.throughout_turn c ?_ fun kept => ?_
  · cases hentry : get? Kind.service.key vs (Kind.service.key c.value) with
    | none => exact .cons (fun _ _ _ => nofun) Gauge.throughout_nil
    | some cached =>
      have hkept : kept (Service.key c.value) = some cached.state :=
        (h _ cached hentry).resolve_left nofun
      refine .append (.append (.cons (fun _ _ _ => nofun) Gauge.throughout_nil) ?_) ?_
      · split
        · exact Gauge.throughout_nil
        · rename_i hstate
          refine .cons ?_ Gauge.throughout_nil
          rintro s old new heq
          cases heq
          exact ⟨hkept, hstate⟩
      · refine Gauge.throughout_of_forall fun e he kept s old new heq => ?_
        rw [heq] at he
        split at he <;> simp at he
  · exact .cons (fun _ _ _ => nofun) Gauge.throughout_nil

/-! ## The servers of players -/

/-- The server of a player, as it is told when the player is registered and when it is sent to
another one. -/
def serverGauge : Gauge .player String where
  shown p := p.serverName
  told?
    | .playerRegistered p => some (p.uniqueId, p.serverName)
    | .playerServerConnect p _ new => some (p.uniqueId, some new)
    | _ => none
  told_new _ := rfl
  told_changed v old := by
    cases hserver : v.serverName with
    | none => simp [eventsOfUpdate, Cache.playerEvents, hserver]
    | some server =>
      by_cases hsame : old.serverName = some server <;>
        by_cases harrived : old.connectState = .connecting ∧ v.connectState = .connected <;>
          simp [eventsOfUpdate, Cache.playerEvents, hserver, hsame, harrived, Kind.key]
  told_removal _ := rfl

/-- A player arrives on the server that is kept. -/
def ArrivesThere (kept : Uuid → Option String) (e : Event) : Prop :=
  ∀ p server, e = .playerServerConnected p server → kept p.uniqueId = some server

/-- Of the events of a player that replaces its copy, an arrival is the last. -/
theorem playerEvents_eq (p cached : Player) {server : String}
    (hserver : p.serverName = some server) :
    ∃ way, (∀ e ∈ way, ∀ p server, e ≠ .playerServerConnected p server) ∧
      eventsOfUpdate .player p (some cached) = way ++
        if cached.connectState = .connecting ∧ p.connectState = .connected then
          [.playerServerConnected p server] else [] := by
  refine ⟨[.playerUpdated p] ++ if cached.serverName = some server then [] else
    [.playerServerConnect p cached.serverName server], fun e he => ?_, ?_⟩
  · split at he <;> simp at he
    · subst he
      exact fun _ _ => nofun
    · rcases he with rfl | rfl <;> exact fun _ _ => nofun
  · show Cache.playerEvents p (some cached) = _
    unfold Cache.playerEvents
    rw [hserver, List.append_assoc]

/-- The calls on the players only tell of arrivals on the server that is kept. -/
theorem arrivesThere_turn {kept : Uuid → Option String} {vs : List Kind.player.Val}
    (h : serverGauge.Knows kept vs) (c : Call Kind.player.Val) :
    serverGauge.Throughout ArrivesThere kept (Cache.Turn.of vs c).events := by
  refine Gauge.throughout_turn c ?_ fun kept => ?_
  · cases hentry : get? Kind.player.key vs (Kind.player.key c.value) with
    | none => exact .cons (fun _ _ => nofun) Gauge.throughout_nil
    | some cached =>
      cases hserver : Player.serverName c.value with
      | none =>
        have hevents : eventsOfUpdate .player c.value (some cached) = [.playerUpdated c.value] := by
          simp [eventsOfUpdate, Cache.playerEvents, hserver]
        rw [hevents]
        exact .cons (fun _ _ => nofun) Gauge.throughout_nil
      | some server =>
        obtain ⟨way, hway, hevents⟩ := playerEvents_eq c.value cached hserver
        rw [hevents]
        refine .append (Gauge.throughout_of_forall fun e he _ p server heq =>
          absurd heq (hway e he p server)) ?_
        split
        · rename_i harrived
          -- an arrival tells nothing, so what is kept when it comes is what is kept afterwards
          have hafter := h.keepAll_update c.value
          rw [hentry, hevents, if_pos harrived, Gauge.keepAll_append] at hafter
          refine .cons ?_ Gauge.throughout_nil
          rintro p server' heq
          cases heq
          refine (hafter.resolve_left fun hnone => ?_).trans hserver
          cases hnone.symm.trans hserver
        · exact Gauge.throughout_nil
  · exact .cons (fun _ _ => nofun) Gauge.throughout_nil

/-! ## Single calls -/

/-- The event that a service has authenticated itself. -/
def Event.isConnection : Event → Bool
  | serviceConnected _ => true
  | _ => false

/-- A service that is there authenticates itself with the call. -/
def Authenticates (t : Cache.Turn .service) : Bool :=
  t.entry.elim false fun cached => !cached.authenticated && t.call.value.authenticated

/-- The call on a service tells of its authentication if and only if it brings it about. -/
theorem connections_of_turn (t : Cache.Turn .service) :
    t.events.filter Event.isConnection =
      if Authenticates t then [.serviceConnected t.call.value] else [] := by
  obtain ⟨entry, v, action, fromPacket⟩ := t
  have hstate : ∀ cached : Service, (if cached.state = v.state then ([] : List Event) else
      [.serviceStateChanged v cached.state v.state]).filter Event.isConnection = [] := by
    intro cached
    split <;> rfl
  have hupdate : ∀ cached : Service,
      (eventsOfUpdate .service v (some cached)).filter Event.isConnection =
        if !cached.authenticated && v.authenticated then [.serviceConnected v] else [] := by
    intro cached
    show (Cache.serviceEvents v (some cached)).filter Event.isConnection = _
    unfold Cache.serviceEvents
    rw [List.filter_append, List.filter_append, hstate]
    split <;> rfl
  cases entry with
  | none => cases action <;> rfl
  | some cached =>
    cases action with
    | update => exact hupdate cached
    | delete =>
      show List.filter _ (eventsOfUpdate .service v (some cached) ++ eventsOfRemoval .service v) = _
      rw [List.filter_append, hupdate]
      exact List.append_nil _

/-- The call on a player tells of a way to another server only with the server that the player was
on before. -/
theorem way_of_turn {t : Cache.Turn .player} {p : Player} {old : Option String} {new : String}
    (h : .playerServerConnect p old new ∈ t.events) :
    ∃ cached, t.entry = some cached ∧ old = Player.serverName cached ∧ p = t.call.value ∧
      p.serverName = some new ∧ old ≠ some new := by
  obtain ⟨entry, v, action, fromPacket⟩ := t
  have hupdate : ∀ cached : Player,
      .playerServerConnect p old new ∈ eventsOfUpdate .player v (some cached) →
        old = cached.serverName ∧ p = v ∧ p.serverName = some new ∧ old ≠ some new := by
    intro cached hmem
    have hmem : .playerServerConnect p old new ∈ Cache.playerEvents v (some cached) := hmem
    unfold Cache.playerEvents at hmem
    cases hserver : Player.serverName v with
    | none => simp [hserver] at hmem
    | some server =>
      simp only [hserver] at hmem
      by_cases hsame : cached.serverName = some server <;> simp [hsame] at hmem
      obtain ⟨rfl, rfl, rfl⟩ := hmem
      exact ⟨rfl, rfl, hserver, hsame⟩
  cases entry with
  | none =>
    cases action <;>
      simp [Cache.Turn.events, Call.events, eventsOfUpdate, Cache.playerEvents] at h
  | some cached =>
    refine ⟨cached, rfl, hupdate cached ?_⟩
    cases action with
    | update => exact h
    | delete => exact (List.mem_append.1 h).resolve_right (by simp [eventsOfRemoval])

/-! ## Calls one after another -/

/-- What `stateGauge` keeps after events, from nothing. -/
def keptStates (es : List Event) : NameKey → Option ServiceState :=
  stateGauge.keepAll (fun _ => none) es

/-- What `serverGauge` keeps after events, from nothing. -/
def keptServers (es : List Event) : Uuid → Option String :=
  serverGauge.keepAll (fun _ => none) es

/-- The events of calls on the services, read with `stateGauge`, and the services that the calls
leave. -/
structure StatesTold (calls : List (Call Kind.service.Val)) (events : List Event)
    (vs : List Kind.service.Val) : Prop where
  contents : vs = contentsAfter [] calls
  heard : events = eventsAfter [] calls
  /-- After any number of the calls, the state that is kept is the state of the copy. -/
  kept : ∀ before after, calls = before ++ after → ∀ key s,
    get? Kind.service.key (contentsAfter [] before) key = some s →
      keptStates (eventsAfter [] before) key = some (Service.state s)
  /-- Every way to another state begins at the state that is kept, and ends elsewhere. -/
  changed : ∀ before s old new after, events = before ++ .serviceStateChanged s old new :: after →
    keptStates before s.key = some old ∧ old ≠ new
  /-- An authentication is told with the calls by which a service that is there authenticates
  itself, and with no others. -/
  connected : ∀ t ∈ turns [] calls, t.events.filter Event.isConnection =
    if Authenticates t then [.serviceConnected t.call.value] else []

theorem statesTold_turns (calls : List (Call Kind.service.Val)) :
    StatesTold calls (eventsAfter [] calls) (contentsAfter [] calls) where
  contents := rfl
  heard := rfl
  kept before _ _ key s hs :=
    ((Gauge.Knows.nil _).turns before key s hs).resolve_left nofun
  changed before s old new after heq :=
    Gauge.Knows.throughout (fun _ _ h c => leadsOn_turn h c) (Gauge.Knows.nil _) calls before _
      after heq s old new rfl
  connected t _ := connections_of_turn t

/-- The events of calls on the players, read with `serverGauge`, and the players that the calls
leave. -/
structure ServersTold (calls : List (Call Kind.player.Val)) (events : List Event)
    (vs : List Kind.player.Val) : Prop where
  contents : vs = contentsAfter [] calls
  heard : events = eventsAfter [] calls
  /-- After any number of the calls, the server that is kept is the server of the copy, if that has
  one. -/
  kept : ∀ before after, calls = before ++ after → ∀ key p,
    get? Kind.player.key (contentsAfter [] before) key = some p → ∀ server,
      Player.serverName p = some server →
        keptServers (eventsAfter [] before) key = some server
  /-- Every way to another server begins at the server that the player was on right before. -/
  connect : ∀ t ∈ turns [] calls, ∀ p old new, .playerServerConnect p old new ∈ t.events →
    ∃ cached, t.entry = some cached ∧ old = Player.serverName cached ∧ p = t.call.value ∧
      p.serverName = some new ∧ old ≠ some new
  /-- Every arrival is on the server that is kept. -/
  connected : ∀ before p server after,
    events = before ++ .playerServerConnected p server :: after →
      keptServers before p.uniqueId = some server

theorem serversTold_turns (calls : List (Call Kind.player.Val)) :
    ServersTold calls (eventsAfter [] calls) (contentsAfter [] calls) where
  contents := rfl
  heard := rfl
  kept before _ _ key p hp server hserver := by
    refine (((Gauge.Knows.nil _).turns before key p hp).resolve_left fun hnone => ?_).trans hserver
    cases hnone.symm.trans hserver
  connect _ _ _ _ _ hmem := way_of_turn hmem
  connected before p server after heq :=
    Gauge.Knows.throughout (fun _ _ h c => arrivesThere_turn h c) (Gauge.Knows.nil _) calls before _
      after heq p server rfl

/-! ## A listener of a node -/

namespace Traffic

section

variable {outcome : Nat → Except SyncError Report} {w : World} {t : Traffic}

/-- `Bus.drain` changes nothing that the journal tells of. -/
theorem serial_drain (h : Serial outcome w t.world t.journal) (i id : Nat) :
    Serial outcome w (t.drain i id).1.world (t.drain i id).1.journal := by
  unfold drain
  cases hn : t.world[i]? with
  | none => exact h
  | some n =>
    show Serial outcome w (t.world.update i { n with bus := (n.bus.drain id).1 }) t.journal
    rw [← List.append_nil t.journal]
    refine h.set hn (fun n₀ hn₀ => ?_) (fun _ _ _ => rfl) fun _ _ => rfl
    rw [List.append_nil]
    refine ⟨hn₀.config, hn₀.registry, hn₀.broadcaster, fun k => ?_, hn₀.handed⟩
    refine ⟨(hn₀.follows k).1, Eq.trans ?_ (hn₀.follows k).2⟩
    show ((n.bus.drain id).1.log).filter _ = n.bus.log.filter _
    rw [Cache.Bus.log_drain]

theorem sound_drain {standing : Claimant → Standing} (h : Sound ⟨t, standing⟩) (i id : Nat) :
    Sound ⟨(t.drain i id).1, standing⟩ := by
  unfold drain
  cases t.world[i]? with
  | none => exact h
  | some n => exact h.setNode i _

theorem kept_serial (outcome : Nat → Except SyncError Report) (w : World) :
    Kept fun x => Serial outcome w x.traffic.world x.traffic.journal where
  move _ hmove h := h.of_move hmove
  same hsame h := by
    rw [hsame.world, hsame.journal]
    exact h

/-- The journal tells of the nodes also in a run with a listener. -/
theorem serial_listen {standing : Claimant → Standing} (hsound : Sound ⟨t, standing⟩)
    (h : Serial outcome w t.world t.journal) (i id : Nat) (parts : List (List Step)) :
    Serial outcome w (t.listen i id parts).1.world (t.listen i id parts).1.journal := by
  induction parts generalizing t standing with
  | nil => exact h
  | cons steps parts ih =>
    obtain ⟨⟨t', standing'⟩, hsound', hserial, htraffic⟩ :=
      hsound.run (kept_serial outcome w) h steps
    obtain rfl : t' = t.run steps := htraffic
    rw [listen_cons]
    exact ih (sound_drain hsound' i id) (serial_drain hserial i id)

end

variable {w : World} {i : Nat} {n : Node}

/-- A listener that subscribes before anything is done is given the events of the turns that the
journal has of each list, if no events are lost. -/
theorem listen_turns (hnode : w[i]? = some n) (hempty : n.lists = .empty)
    (hissued : ∀ l ∈ n.bus.listeners, l.id < n.bus.issued) (parts : List (List Step)) :
    let listening := { n with bus := n.bus.subscribe.1 }
    let heard := (Traffic.new (w.update i listening)).listen i n.bus.subscribe.2 parts
    (∀ d ∈ heard.2, d.lost = 0) →
    ∃ n', heard.1.world[i]? = some n' ∧ ∀ k,
      n'.values k = contentsAfter [] (Journal.calls i k heard.1.journal) ∧
      eventsOf k (heard.2.flatMap (·.events)) =
        eventsAfter [] (Journal.calls i k heard.1.journal) := by
  intro listening heard hlost
  have hempty' : listening.lists = .empty := hempty
  have htidy : listening.Tidy := Node.tidy_of_empty hempty'
  have hlistening : (w.update i listening)[i]? = some listening :=
    World.getElem?_update_self hnode listening
  have hsound := sound_new (w.update i listening)
  obtain ⟨n', hnode', hlog, -⟩ := mirrors_listen hsound hlistening htidy
    (Cache.Bus.upToDate_subscribe hissued) parts hlost
  have hserial : Serial (fun _ => .ok .empty) (w.update i listening) heard.1.world
      heard.1.journal := serial_listen hsound (.refl _) i n.bus.subscribe.2 parts
  obtain ⟨n'', hnode'', hcontinues⟩ := hserial.node i listening hlistening
  cases hnode'.symm.trans hnode''
  refine ⟨n', hnode', fun k => ?_⟩
  obtain ⟨hvalues, henvelopes⟩ := hcontinues.eq_turns htidy k
  unfold Node.valuesAfter at hvalues
  unfold Node.envelopesAfter at henvelopes
  rw [Node.values_of_empty hempty'] at hvalues henvelopes
  refine ⟨hvalues, ?_⟩
  -- what was published before the listener came stands in front of both
  have hheard : n'.envelopes k = listening.envelopes k ++
      (heard.2.flatMap (·.events)).filter (·.listName = k.listName) := by
    unfold Node.envelopes
    rw [hlog, List.filter_append]
  have hsame := List.append_cancel_left (hheard.symm.trans henvelopes)
  unfold eventsOf
  rw [hsame, List.map_flatMap]
  refine List.flatMap_congr fun t _ => ?_
  simp [Cache.Turn.envelopes, Function.comp_def]

/-- A listener subscribes to a node whose lists are empty, before anything is done. Whatever
operations there are, however their steps are interleaved and their rounds end, and whenever there
is a `drain`: if no events were lost, then each way from state to state and from server to server
that the listener is given begins where the events before it left the service or the player. -/
theorem transitions_without_gaps (hnode : w[i]? = some n) (hempty : n.lists = .empty)
    (hissued : ∀ l ∈ n.bus.listeners, l.id < n.bus.issued) (parts : List (List Step)) :
    let listening := { n with bus := n.bus.subscribe.1 }
    let heard := (Traffic.new (w.update i listening)).listen i n.bus.subscribe.2 parts
    (∀ d ∈ heard.2, d.lost = 0) →
    ∃ n', heard.1.world[i]? = some n' ∧
      StatesTold (Journal.calls i .service heard.1.journal)
        (eventsOf .service (heard.2.flatMap (·.events))) (n'.values .service) ∧
      ServersTold (Journal.calls i .player heard.1.journal)
        (eventsOf .player (heard.2.flatMap (·.events))) (n'.values .player) := by
  intro listening heard hlost
  obtain ⟨n', hnode', hturns⟩ := listen_turns hnode hempty hissued parts hlost
  refine ⟨n', hnode', ?_, ?_⟩
  · obtain ⟨hvalues, hevents⟩ := hturns .service
    rw [hvalues, hevents]
    exact statesTold_turns _
  · obtain ⟨hvalues, hevents⟩ := hturns .player
    rw [hvalues, hevents]
    exact serversTold_turns _

/-! ### A service from its start to its end, and a player on the way -/

namespace Journey

def service : Service := .new "Lobby" 1 25565

/-- The service is open, and has authenticated itself with the same update. -/
def opened : Service := { service with state := .visible, authenticated := true }

def player : Player := .new ⟨1⟩ "Alex" "Proxy" 0

/-- The player is on the way to a server. -/
def leaving : Player := { player with serverName := some "Lobby-1" }

def arrived : Player := { leaving with connectState := .connected }

/-- The player is on the way to nowhere, and then on another server at once. -/
def between : Player := { player with connectState := .connecting }

def elsewhere : Player := { arrived with serverName := some "Arena-1" }

/-- The steps by which a change is begun and carried out, after others. -/
def steps (before : Nat) (k : Kind) (v : k.Val) (action : Action) (fromPacket : Bool) : List Step :=
  [.start 0 (.change ⟨k, v, action, fromPacket, false⟩), .poll before]

/-- The service is deleted with a state that it did not have before. -/
def parts : List (List Step) :=
  [steps 0 .service service .update false ++ steps 1 .player player .update false ++
      steps 2 .service opened .update true ++ steps 3 .player leaving .update true,
    steps 4 .player arrived .update false ++ steps 5 .player between .update false ++
      steps 6 .player elsewhere .update false ++
      steps 7 .service { opened with state := .closed } .delete true]

def node : Node := .new .standard (.recording 1 true 0) none none

def heard : Traffic × List Delivery :=
  (Traffic.new (World.update [node] 0 { node with bus := node.bus.subscribe.1 })).listen 0
    node.bus.subscribe.2 parts

/-- The service goes from its first state to the second one and from there to its last, the player
from no server to one, and from none to the other. -/
theorem transitions_without_gaps_on_journey :
    (∀ d ∈ heard.2, d.lost = 0) ∧
    eventsOf .service (heard.2.flatMap (·.events)) =
      [.serviceRegistered service, .serviceUpdated opened,
        .serviceStateChanged opened .prepared .visible, .serviceConnected opened,
        .serviceUpdated { opened with state := .closed },
        .serviceStateChanged { opened with state := .closed } .visible .closed,
        .serviceUnregistered { opened with state := .closed }] ∧
    eventsOf .player (heard.2.flatMap (·.events)) =
      [.playerRegistered player, .playerUpdated leaving,
        .playerServerConnect leaving none "Lobby-1", .playerUpdated arrived,
        .playerServerConnected arrived "Lobby-1", .playerUpdated between, .playerUpdated elsewhere,
        .playerServerConnect elsewhere none "Arena-1",
        .playerServerConnected elsewhere "Arena-1"] ∧
    ∃ n', heard.1.world[0]? = some n' ∧
      StatesTold (Journal.calls 0 .service heard.1.journal)
        (eventsOf .service (heard.2.flatMap (·.events))) (n'.values .service) ∧
      ServersTold (Journal.calls 0 .player heard.1.journal)
        (eventsOf .player (heard.2.flatMap (·.events))) (n'.values .player) := by
  have hlost : ∀ d ∈ heard.2, d.lost = 0 := by decide
  have hissued : ∀ l ∈ node.bus.listeners, l.id < node.bus.issued :=
    fun _ hl => absurd hl List.not_mem_nil
  exact ⟨hlost, rfl, rfl,
    transitions_without_gaps (w := [node]) (i := 0) (n := node) rfl rfl hissued parts hlost⟩

end Journey

end Traffic

end CloudRoster
