import CloudRoster.Node.Handler

/-!
# Operations one after another

The nodes of a world, and the operations on them when each is carried out to its end before the
next begins. A change is committed on its node; then its messages are handed out, a round for each,
until a round fails; then the store is told. A round over the loopback visits the peers in turn. The
node that a change started on is busy with its value, so a visit of that very value there would
wait until the round's time is up.
-/

namespace CloudRoster

/-- The nodes of a world. -/
abbrev World := List Node

namespace World

/-- The world with one node changed. -/
def update (w : World) (i : Nat) (n : Node) : World := w.set i n

/-- A visit of a peer: the message is handled there, and a reply other than an error counts as
delivered. Nothing comes back from a visit that would wait for what is `busy`. -/
def visit (w : World) (busy : Option (Nat × ((k : Kind) × k.Key))) (m : Message) (name : String)
    (i : Nat) (r : Report) : Option (World × Report) :=
  match w[i]? with
  | none => some (w, r.deliver)
  | some n =>
    let waits := match n.arrival m with
      | .change c => decide (busy = some (i, c.subject))
      | .reply _ => false
    if waits then none
    else
      let (n, reply) := n.receive m
      some (w.update i n, r.count name reply)

/-- Visits peers one after another. The report is missing if the last visit made would wait. -/
def visitAll (busy : Option (Nat × ((k : Kind) × k.Key))) (m : Message) :
    World → List (String × Nat) → Report → World × Option Report
  | w, [], r => (w, some r)
  | w, (name, i) :: peers, r =>
    match w.visit busy m name i r with
    | some (w, r) => visitAll busy m w peers r
    | none => (w, none)

/-- Hands a message to the broadcaster of a node that is busy with something, and waits for the
outcome at most as long as told. -/
def broadcast (w : World) (i : Nat) (busy : Option ((k : Kind) × k.Key)) (timeout : Option Nat)
    (m : Message) : World × Except SyncError Report :=
  match w[i]? with
  | none => (w, .ok .empty)
  | some n =>
    let w := w.update i (n.hand m)
    match n.broadcaster with
    | .none => (w, .ok .empty)
    | .recording peers failing _ => (w, .ok (Broadcaster.recordingReport peers failing))
    | .external _ answer =>
      let a := answer n.handed.length
      if timeout.all (a.delay ≤ ·) then (w, a.result) else (w, .error .timeout)
    | .loopback peers =>
      let (w, r) := visitAll (busy.map fun s => (i, s)) m w peers ⟨peers.length, 0, []⟩
      match r with
      | some r => (w, .ok r)
      | none => (w, .error .timeout)

/-- Hands out the messages of a change, a round for each, until a round fails. -/
def spread (i : Nat) (c : Change) : World → List CacheUpdate → World × Except SyncError Unit
  | w, [] => (w, .ok ())
  | w, u :: outbox =>
    let timeout := (w[i]?).map (·.config.broadcastTimeoutMs.toNat)
    let (w, outcome) := w.broadcast i (some c.subject) timeout (.cacheUpdate u)
    match outcome.bind Report.result with
    | .ok () => spread i c w outbox
    | .error e => (w, .error e)

/-- Carries out a change on a node from beginning to end. -/
def perform (w : World) (i : Nat) (c : Change) : World × Except SyncError Unit :=
  match w[i]? with
  | none => (w, .ok ())
  | some n =>
    match n.commit c with
    | .error e => (w, .error e)
    | .ok (n, outbox) =>
      let (w, result) := spread i c (w.update i n) outbox
      match w[i]? with
      | none => (w, result)
      | some n =>
        let (n, result) := n.persist c result
        (w.update i n, result)

/-- Brings staged changes into the list of a node, past the manager of its kind
(`Change.managed`). -/
def apply (w : World) (i : Nat) (k : Kind) (u : k.Updater) : World × Except SyncError Unit :=
  w.perform i ⟨k, k.merge u, .update, false, false⟩

/-- Deletes the template of a name, if there is one. -/
def deleteTemplate (w : World) (i : Nat) (name : String) : World × Except SyncError Unit :=
  match w[i]? with
  | none => (w, .ok ())
  | some n =>
    match n.lists.templates.find? (.ofName name) with
    | none => (w, .ok ())
    | some t => w.perform i ⟨.template, t, .delete, false, true⟩

/-- Gives a message to a node as if it came from a peer. -/
def receive (w : World) (i : Nat) (m : Message) : World × Message :=
  match w[i]? with
  | none => (w, .ack)
  | some n =>
    let (n, reply) := n.receive m
    (w.update i n, reply)

end World

end CloudRoster
