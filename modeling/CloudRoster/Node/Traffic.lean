import CloudRoster.Cache.LockTable
import CloudRoster.Node.Operation

/-!
# Operations at the same time

Any number of operations on the nodes of a world, and the steps by which they go on. A step takes
one operation from where it waits to where it waits next, or to its end; between two steps anything
else may happen. Which steps are taken, and in which order, is left open: a run is a list of steps,
and a step that cannot be taken changes nothing.

An operation goes on when it is polled and has been handed what it claims, when the outcome of its
round comes from outside, when the store has done its part, or when the time of its round is up. A
round whose time is up is first looked at once more: if the visit that it waits for can go on, it
does. A visit first comes to its peer and asks for its site in a later step, so that operations on
different nodes can each have their own site and ask for that of the other.
-/

namespace CloudRoster

open Cache (LockTable)

/-- Operations on the nodes of a world. -/
structure Traffic where
  world : World
  /-- The milliseconds that have passed. -/
  clock : Nat
  /-- All operations ever started; an operation is known by its place. -/
  operations : List Operation
  locks : LockTable Site Claimant
  /-- What has happened, oldest first. -/
  journal : List Note

/-- What can happen next. -/
inductive Step where
  /-- A new operation is started. -/
  | start (node : Nat) (task : Task)
  /-- An operation looks whether it can go on. -/
  | poll (id : Nat)
  /-- The outcome of the round of an operation comes from outside. -/
  | answer (id : Nat) (outcome : Except SyncError Report)
  /-- The store that an operation waits for does its part. -/
  | persist (id : Nat)
  /-- The time of the round of an operation is up. -/
  | expire (id : Nat)
  /-- An operation is abandoned. -/
  | abandon (id : Nat)
  /-- Time passes. -/
  | tick (ms : Nat)

namespace Traffic

/-- Nodes on which nothing has been started yet. -/
def new (w : World) : Traffic := ⟨w, 0, [], .empty, []⟩

/-- The phase of an operation. -/
def phase? (t : Traffic) (id : Nat) : Option Phase := (t.operations[id]?).map (·.phase)

/-- Puts an operation into another phase. -/
def enter (t : Traffic) (id : Nat) (p : Phase) : Traffic :=
  { t with operations := t.operations.modify id fun o => { o with phase := p } }

/-- Changes a node. -/
def setNode (t : Traffic) (i : Nat) (n : Node) : Traffic := { t with world := t.world.update i n }

/-- Writes a note down. -/
def note (t : Traffic) (x : Note) : Traffic := { t with journal := t.journal ++ [x] }

/-! ## Claims -/

/-- Asks for a site. -/
def claim (t : Traffic) (site : Site) (who : Claimant) : Traffic × Bool :=
  let (locks, got) := t.locks.ask site who
  ({ t with locks := locks }.note (.asked site who), got)

/-- Picks up a site that was handed over. -/
def pickUp (t : Traffic) (site : Site) (who : Claimant) : Traffic :=
  { t with locks := t.locks.pickUp site who }

/-- Gives a site back. -/
def release (t : Traffic) (site : Site) (who : Claimant) : Traffic :=
  { t with locks := t.locks.release site who }

/-- Gives up the claim to a site that is not held. -/
def leave (t : Traffic) (site : Site) (who : Claimant) : Traffic :=
  { t with locks := t.locks.leave site who }

/-! ## The end of a change -/

/-- Ends an operation, which gives its site back. -/
def finish (t : Traffic) (id : Nat) (o : Operation) (c : Change) (result : Except SyncError Unit) :
    Traffic :=
  (t.release (o.node, c.subject) ⟨id, false⟩).enter id (.ended (o.task.outcome result))

/-- Goes on after the last round of a change: to the store, or to the end. -/
def conclude (t : Traffic) (id : Nat) (o : Operation) (c : Change)
    (result : Except SyncError Unit) : Traffic :=
  if ((t.world[o.node]?).bind (·.storeFor? c result)).isSome then t.enter id (.storing c result)
  else t.finish id o c result

/-! ## Visits -/

/-- What became of a visit: the reply of the peer, or a visit that waits. -/
abbrev Visited := Message ⊕ Visit

/-- Commits the change of a visit that has its site. The site is given back with the reply, unless
the store of the peer has still to be told. -/
def commitVisit (t : Traffic) (id : Nat) (v : Visit) : Traffic × Visited :=
  match t.world[v.node]? with
  | none => (t.release v.site ⟨id, true⟩, .inl .ack)
  | some n =>
    match n.commit v.change with
    | .error e => (t.release v.site ⟨id, true⟩, .inl (Node.replyTo (.error e)))
    | .ok (n, _) =>
      let t := (t.setNode v.node n).note (.committed v.site ⟨id, true⟩ v.change)
      if (n.storeFor? v.change (.ok ())).isSome then (t, .inr { v with stage := .committed })
      else (t.release v.site ⟨id, true⟩, .inl .ack)

/-- Asks for the site of a visit, and commits the change if the site is free. -/
def askVisit (t : Traffic) (id : Nat) (v : Visit) : Traffic × Visited :=
  match t.claim v.site ⟨id, true⟩ with
  | (t, true) => t.commitVisit id v
  | (t, false) => (t, .inr { v with stage := .asked })

/-- Brings a message to a peer, who answers it at once or is asked for a change. -/
def visit (t : Traffic) (m : Message) (name : String) (node : Nat) : Visited :=
  match t.world[node]? with
  | none => .inl .ack
  | some n =>
    match n.arrival m with
    | .reply r => .inl r
    | .change c => .inr ⟨name, node, c, .coming⟩

/-- Visits peers one after another, until one is asked for a change. -/
def visitAll (t : Traffic) (m : Message) : List (String × Nat) → Report → Report ⊕ Awaited
  | [], r => .inl r
  | (name, node) :: later, r =>
    match t.visit m name node with
    | .inl reply => visitAll t m later (r.count name reply)
    | .inr v => .inr (.visit v later r)

/-! ## Rounds -/

/-- Hands a message to the broadcaster of the node of an operation: the outcome of the round, or
what it waits for. -/
def sendOne (t : Traffic) (id : Nat) (o : Operation) (c : Change) (u : CacheUpdate) :
    Traffic × (Except SyncError Report ⊕ Awaited) :=
  match t.world[o.node]? with
  | none => (t, .inl (.ok .empty))
  | some n =>
    let t := (t.setNode o.node (n.hand (.cacheUpdate u))).note
      (.handed (o.node, c.subject) id u)
    match n.broadcaster with
    | .none => (t, .inl (.ok .empty))
    | .recording peers failing _ => (t, .inl (.ok (Broadcaster.recordingReport peers failing)))
    | .external _ _ => (t, .inr .outside)
    | .loopback peers =>
      match t.visitAll (.cacheUpdate u) peers ⟨peers.length, 0, []⟩ with
      | .inl r => (t, .inl (.ok r))
      | .inr a => (t, .inr a)

/-- When the time of a round that begins now on a node is up. -/
def deadline (t : Traffic) (node : Nat) : Nat :=
  t.clock + ((t.world[node]?).map (·.config.broadcastTimeoutMs.toNat)).getD 0

/-- Hands out messages, a round for each, until a round fails or waits. -/
def sendAll (id : Nat) (o : Operation) (c : Change) : Traffic → List CacheUpdate → Traffic
  | t, [] => t.conclude id o c (.ok ())
  | t, u :: later =>
    match t.sendOne id o c u with
    | (t, .inl outcome) =>
      match outcome.bind Report.result with
      | .ok () => sendAll id o c t later
      | .error e => t.conclude id o c (.error e)
    | (t, .inr a) => t.enter id (.round c ⟨u, t.deadline o.node, a, later⟩)

/-- Goes on after a round. -/
def afterRound (t : Traffic) (id : Nat) (o : Operation) (c : Change) (later : List CacheUpdate)
    (outcome : Except SyncError Report) : Traffic :=
  match outcome.bind Report.result with
  | .ok () => sendAll id o c t later
  | .error e => t.conclude id o c (.error e)

/-- Goes on after a visit of a round, or waits further on in it. -/
def afterVisit (t : Traffic) (id : Nat) (o : Operation) (c : Change) (r : Round)
    (later : List (String × Nat)) (report : Report) (name : String) : Visited → Traffic
  | .inr v => t.enter id (.round c { r with awaited := .visit v later report })
  | .inl reply =>
    match t.visitAll (.cacheUpdate r.message) later (report.count name reply) with
    | .inl report => t.afterRound id o c r.later (.ok report)
    | .inr a => t.enter id (.round c { r with awaited := a })

/-! ## The beginning of a change -/

/-- Commits the change of an operation that has its site, and hands out its messages. -/
def carryOut (t : Traffic) (id : Nat) (o : Operation) (c : Change) : Traffic :=
  match t.world[o.node]? with
  | none => t.finish id o c (.ok ())
  | some n =>
    match n.commit c with
    | .error e => t.finish id o c (.error e)
    | .ok (n, outbox) =>
      sendAll id o c
        ((t.setNode o.node n).note (.committed (o.node, c.subject) ⟨id, false⟩ c)) outbox

/-- Claims the site of a change, and carries the change out if the site is free. -/
def request (t : Traffic) (id : Nat) (o : Operation) (c : Change) : Traffic :=
  match t.claim (o.node, c.subject) ⟨id, false⟩ with
  | (t, true) => t.carryOut id o c
  | (t, false) => t.enter id (.waiting c)

/-- Begins an operation. -/
def begin (t : Traffic) (id : Nat) (o : Operation) : Traffic :=
  match o.task with
  | .change c => t.request id o c
  | .deleteTemplate name =>
    match (t.world[o.node]?).bind (·.lists.templates.find? (.ofName name)) with
    | none => t.enter id (.ended (.result (.ok ())))
    | some v => t.request id o ⟨.template, v, .delete, false, true⟩
  | .message m =>
    match t.world[o.node]? with
    | none => t.enter id (.ended (.reply .ack))
    | some n =>
      match n.arrival m with
      | .reply r => t.enter id (.ended (.reply r))
      | .change c => t.request id o c

/-! ## Steps -/

/-- An operation looks whether it can go on. -/
def poll (t : Traffic) (id : Nat) (o : Operation) : Traffic :=
  match o.phase with
  | .fresh => t.begin id o
  | .waiting c =>
    if t.locks.isHanded (o.node, c.subject) ⟨id, false⟩ then
      (t.pickUp (o.node, c.subject) ⟨id, false⟩).carryOut id o c
    else t
  | .round c r =>
    match r.awaited with
    | .outside => t
    | .visit v later report =>
      match v.stage with
      | .coming =>
        match t.askVisit id v with
        | (t, visited) => t.afterVisit id o c r later report v.name visited
      | .asked =>
        if t.locks.isHanded v.site ⟨id, true⟩ then
          match (t.pickUp v.site ⟨id, true⟩).commitVisit id v with
          | (t, visited) => t.afterVisit id o c r later report v.name visited
        else t
      | .committed => t
  | .storing _ _ | .ended _ | .abandoned => t

/-- The outcome of a round comes from outside. -/
def answer (t : Traffic) (id : Nat) (o : Operation) (outcome : Except SyncError Report) : Traffic :=
  match o.phase with
  | .round c ⟨_, _, .outside, later⟩ => t.afterRound id o c later outcome
  | _ => t

/-- The store that an operation waits for does its part. -/
def persist (t : Traffic) (id : Nat) (o : Operation) : Traffic :=
  match o.phase with
  | .storing c result =>
    match t.world[o.node]? with
    | none => t
    | some n =>
      let (n, result) := n.persist c result
      (t.setNode o.node n).finish id o c result
  | .round c r =>
    match r.awaited with
    | .visit v later report =>
      if v.stage = .committed then
        match t.world[v.node]? with
        | none => t
        | some n =>
          let (n, result) := n.persist v.change (.ok ())
          ((t.setNode v.node n).release v.site ⟨id, true⟩).afterVisit id o c r later report v.name
            (.inl (Node.replyTo result))
      else t
    | .outside => t
  | _ => t

/-- Gives up what a round waits for. -/
def giveUp (t : Traffic) (id : Nat) : Awaited → Traffic
  | .outside => t
  | .visit v _ _ =>
    match v.stage with
    | .coming => t
    | .asked => t.leave v.site ⟨id, true⟩
    | .committed => t.release v.site ⟨id, true⟩

/-- Whether what a round waits for is there, so that polling the operation takes it on. -/
def isThere (t : Traffic) (id : Nat) : Awaited → Bool
  | .outside => false
  | .visit v _ _ =>
    match v.stage with
    | .coming => true
    | .asked => t.locks.isHanded v.site ⟨id, true⟩
    | .committed => false

/-- Ends a round whose time is up. -/
def expire (t : Traffic) (id : Nat) (o : Operation) : Traffic :=
  match o.phase with
  | .round c r =>
    if r.deadline ≤ t.clock && !t.isThere id r.awaited then
      (t.giveUp id r.awaited).afterRound id o c r.later (.error .timeout)
    else t
  | _ => t

/-- Abandons an operation, which gives up what it waits for and what it has. -/
def abandon (t : Traffic) (id : Nat) (o : Operation) : Traffic :=
  match o.phase with
  | .fresh => t.enter id .abandoned
  | .waiting c => (t.leave (o.node, c.subject) ⟨id, false⟩).enter id .abandoned
  | .round c r =>
    ((t.giveUp id r.awaited).release (o.node, c.subject) ⟨id, false⟩).enter id .abandoned
  | .storing c _ => (t.release (o.node, c.subject) ⟨id, false⟩).enter id .abandoned
  | .ended _ | .abandoned => t

/-- Lets one thing happen. -/
def step (t : Traffic) : Step → Traffic
  | .start node task => { t with operations := t.operations ++ [⟨node, task, .fresh⟩] }
  | .tick ms => { t with clock := t.clock + ms }
  | .poll id => (t.operations[id]?).elim t (t.poll id)
  | .answer id outcome => (t.operations[id]?).elim t (t.answer id · outcome)
  | .persist id => (t.operations[id]?).elim t (t.persist id)
  | .expire id => (t.operations[id]?).elim t (t.expire id)
  | .abandon id => (t.operations[id]?).elim t (t.abandon id)

/-- Lets things happen one after another. -/
def run (t : Traffic) (steps : List Step) : Traffic := steps.foldl step t

theorem run_append (t : Traffic) (before after : List Step) :
    t.run (before ++ after) = (t.run before).run after := List.foldl_append

/-- Whether all operations are over. -/
def isQuiet (t : Traffic) : Bool := t.operations.all (·.phase.isOver)

end Traffic

end CloudRoster
