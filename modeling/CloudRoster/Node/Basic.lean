import CloudRoster.Cache.Bus
import CloudRoster.Cache.Registry
import CloudRoster.Node.Lists
import CloudRoster.Storage.Store
import CloudRoster.Sync.Config
import CloudRoster.Sync.Report

/-!
# Nodes

A node holds a list for each kind of value, publishes the events of every change on its bus, hands
messages about its own changes to a broadcaster, and saves groups and templates in stores. This
module holds what a node does between two waits: `Node.commit`, `Node.persist`, `Node.hand` and the
questions about its lists.

Operations on a node take turns where they wait: for a site, for a round, for a store. What one of
them does between two waits is one step, and no other operation sees a part of it. The program may
run operations on several threads, which also interleave inside such a stretch; what is left out by
that is said where it matters, at `Node.commit`.
-/

namespace CloudRoster

open Cache (Bus Registry Rules)
open Storage (Store Order)

/-- The answer of a broadcaster whose peers are no nodes of the world. -/
structure Answer where
  /-- After how many milliseconds it comes. -/
  delay : Nat
  result : Except SyncError Report

/-- By what a node reaches its peers. -/
inductive Broadcaster where
  /-- There are no peers. -/
  | none
  /-- A number of peers that only take notes, or fail all together. `cleared` is the number of
  messages that the notes no longer hold. -/
  | recording (peers : Nat) (failing : Bool) (cleared : Nat)
  /-- Nodes of the same world, by the name under which they are connected. -/
  | loopback (peers : List (String × Nat))
  /-- A number of peers outside the world: the answer to each round, counted from zero. -/
  | external (peers : Nat) (answer : Nat → Answer)

namespace Broadcaster

/-- The report of peers that only take notes. -/
def recordingReport (peers : Nat) (failing : Bool) : Report :=
  if failing then
    ⟨peers, 0, (List.range peers).map fun i => ("peer-" ++ toString i, "unreachable")⟩
  else ⟨peers, peers, []⟩

/-- The number of peers. -/
def peerCount : Broadcaster → Nat
  | none => 0
  | recording peers _ _ => peers
  | loopback peers => peers.length
  | external peers _ => peers

/-- The broadcaster with one more node connected; others have no nodes to connect to. -/
def connect (name : String) (i : Nat) : Broadcaster → Broadcaster
  | loopback peers => loopback (peers ++ [(name, i)])
  | b => b

/-- The broadcaster without the nodes connected under a name. -/
def disconnect (name : String) : Broadcaster → Broadcaster
  | loopback peers => loopback (peers.filter (·.1 ≠ name))
  | b => b

/-- The broadcaster whose peers all fail, or all take notes again. -/
def setFailing (failing : Bool) : Broadcaster → Broadcaster
  | recording peers _ cleared => recording peers failing cleared
  | b => b

end Broadcaster

/-- A change of a list. -/
structure Change where
  kind : Kind
  value : kind.Val
  action : Action
  /-- Whether the change came from a peer. -/
  fromPacket : Bool
  /-- Whether the change is made by the manager of its kind, which refuses to delete groups in use
  (`Node.guard`) and tells the store (`Node.persist`), and not on the list alone. -/
  managed : Bool

namespace Change

/-- What a change is about: the kind and the key of its value. -/
def subject (c : Change) : (k : Kind) × k.Key := ⟨c.kind, c.kind.key c.value⟩

end Change

/-- A node. -/
structure Node where
  config : SyncConfig
  lists : Lists
  bus : Bus
  /-- The lists that are open to messages, by name. -/
  registry : Registry Kind
  broadcaster : Broadcaster
  /-- All messages handed to the broadcaster, oldest first. -/
  handed : List Message
  groupStore : Option Store
  templateStore : Option Store

namespace Node

/-- A node without values. -/
def new (config : SyncConfig) (broadcaster : Broadcaster)
    (groupStore templateStore : Option Store) : Node where
  config := config
  lists := .empty
  bus := .new config.eventCapacity.toNat
  registry := ⟨Kind.all.map fun k => (k.listName, k)⟩
  broadcaster := broadcaster
  handed := []
  groupStore := groupStore
  templateStore := templateStore

/-- Whether changes of a list are told to the peers. The players of a manager are not: it learns of
them from the others. -/
def spreads (n : Node) (k : Kind) : Bool := k ≠ .player || n.config.role ≠ .manager

/-- The copy of a value. -/
def cached (n : Node) (k : Kind) (v : k.Val) : Option k.Val := (n.lists.get k).find? (k.key v)

/-! ## Questions -/

/-- All values of a kind. -/
def values (n : Node) (k : Kind) : List k.Val := (n.lists.get k).values

/-- The services of a group, by its name whatever the case of ASCII letters. -/
def servicesOfGroup (n : Node) (group : String) : List Service :=
  (n.values .service).filter fun s => Text.sameIgnoringAsciiCase s.groupName group

/-- The services on a wrapper, by its name whatever the case of ASCII letters. -/
def servicesOnWrapper (n : Node) (wrapper : String) : List Service :=
  (n.values .service).filter fun s => s.wrapperName.any (Text.sameIgnoringAsciiCase · wrapper)

/-- The players on a server, by its name whatever the case of ASCII letters. -/
def playersOnServer (n : Node) (server : String) : List Player :=
  (n.values .player).filter fun p => p.serverName.any (Text.sameIgnoringAsciiCase · server)

/-- The first player of a name, whatever the case of ASCII letters. -/
def playerByName (n : Node) (name : String) : Option Player :=
  (n.values .player).find? fun p => Text.sameIgnoringAsciiCase p.name name

/-- The groups of a type. -/
def groupsOfType (n : Node) (t : GroupType) : List Group :=
  (n.values .group).filter (·.groupType = t)

/-- The wrappers that have logged in. -/
def authenticatedWrappers (n : Node) : List Wrapper :=
  (n.values .wrapper).filter (·.authenticated)

/-! ## Changes -/

/-- A group that has services cannot be deleted. -/
def guard (n : Node) (c : Change) : Except SyncError Unit :=
  match c with
  | ⟨.group, group, .delete, _, true⟩ =>
    match (n.servicesOfGroup group.name).length with
    | 0 => .ok ()
    | services => .error (.groupInUse group.name services)
  | _ => .ok ()

/-- Carries out a change on the list of its kind and publishes its events on the bus. The messages
that it has for the peers are returned, to be handed out.

This is one step: nothing is awaited from the lookup of the copy to the last event, so no other
operation finds the new entries without their events, and events are published in the order in
which the entries were changed. Commits of two different values of one list that run on two threads
could publish in the other order; such runs are left out. -/
def commit (n : Node) (c : Change) : Except SyncError (Node × List CacheUpdate) := do
  n.guard c
  let commit ← (Rules.ofKind c.kind).commit (n.spreads c.kind) c.fromPacket (n.lists.get c.kind)
    c.value c.action
  let changed := { n with
    lists := n.lists.set c.kind commit.entries
    bus := n.bus.publishAll commit.events }
  return (changed, commit.outbox)

/-- The order that a change gives to a store. -/
def orderOf : Action → Order
  | .update => .save
  | .delete => .remove

/-- The store of a kind. -/
def store? (n : Node) : Kind → Option Store
  | .group => n.groupStore
  | .template => n.templateStore
  | _ => none

/-- The node with another store of a kind. -/
def setStore (n : Node) (k : Kind) (s : Store) : Node :=
  match k with
  | .group => { n with groupStore := some s }
  | .template => { n with templateStore := some s }
  | _ => n

/-- Whether the lists kept a change that ended with a result: only a value that cannot be written
is not kept. -/
def keptLocally : Except SyncError Unit → Bool
  | .error (.serialization _) => false
  | _ => true

/-- The store that is to be told of a change that ended with a result. -/
def storeFor? (n : Node) (c : Change) (result : Except SyncError Unit) : Option Store :=
  if c.managed && keptLocally result then n.store? c.kind else none

/-- Tells the store of a change that ended with a result. A failure of the store is the result then,
whatever it was before. -/
def persist (n : Node) (c : Change) (result : Except SyncError Unit) :
    Node × Except SyncError Unit :=
  match n.storeFor? c result with
  | none => (n, result)
  | some s =>
    let (s, stored) := s.obey (orderOf c.action) ⟨c.kind, c.value⟩
    (n.setStore c.kind s, stored.bind fun () => result)

/-- Carries out a change that has no messages for the peers. -/
def carryOut (n : Node) (c : Change) : Node × Except SyncError Unit :=
  match n.commit c with
  | .error e => (n, .error e)
  | .ok (n, _) => n.persist c (.ok ())

/-- Notes a message that is handed to the broadcaster. -/
def hand (n : Node) (m : Message) : Node := { n with handed := n.handed ++ [m] }

/-- The messages that peers have notes of. -/
def notes (n : Node) : List Message :=
  match n.broadcaster with
  | .recording _ _ cleared => n.handed.drop cleared
  | _ => []

/-- The node whose peers have no notes any more. -/
def clearNotes (n : Node) : Node :=
  match n.broadcaster with
  | .recording peers failing _ => { n with broadcaster := .recording peers failing n.handed.length }
  | _ => n

end Node

end CloudRoster
