import CloudRoster.Cloud.ValueTypes
import CloudRoster.Node.Basic

/-!
# Messages that arrive

What a node makes of a message from a peer. A change is checked from outside in: the list must be
open, the type known, the payload a value of it, and the type that of the list; a list that is not
open is none of the node's business, and the change is taken as done. Everything else is answered
at once.
-/

namespace CloudRoster

/-- What a message asks of a node. -/
inductive Arrival where
  /-- The message is answered without doing anything. -/
  | reply (message : Message)
  /-- A change is to be carried out. -/
  | change (c : Change)

/-- The report of a round with the reply of one more peer: any reply but an error counts as
delivered. -/
def Report.count (r : Report) (peer : String) : Message → Report
  | .error e => r.fail peer e.message
  | _ => r.deliver

namespace Node

/-- The hello of a node. -/
def hello (n : Node) : Hello := .new n.config.nodeName n.registry.names

/-- The answer to a hello. -/
def greet (n : Node) (h : Hello) : HelloAck :=
  if h.version = protocolVersion then .accept n.config.nodeName
  else .reject n.config.nodeName (ErrorReply.versionMismatch protocolVersion h.version).message

/-- The change that a message about a value asks for; none if the list is not open. -/
def requestedChange (n : Node) (u : CacheUpdate) : Except SyncError (Option Change) :=
  match n.registry.find? u.listName with
  | none => .ok none
  | some list => do
    let ⟨k, v⟩ ← ValueTypes.all.decode u.valueType u.jsonData
    if k = list then return some ⟨k, v, u.action, true, true⟩
    throw (.typeMismatch u.listName list.typeName u.valueType)

/-- The reply to a change with a result. -/
def replyTo : Except SyncError Unit → Message
  | .ok () => .ack
  | .error e => .error (.ofError e)

/-- What a message asks of the node. -/
def arrival (n : Node) : Message → Arrival
  | .hello h => .reply (.helloAck (n.greet h))
  | .cacheUpdate u =>
    match n.requestedChange u with
    | .ok none => .reply .ack
    | .ok (some c) => .change c
    | .error e => .reply (replyTo (.error e))
  | .ping k => .reply (.pong k)
  | .helloAck _ | .ack | .pong _ | .error _ => .reply (.error (.internal "unexpected message"))

/-- Carries out what a message about a value asks for. -/
def applyCacheUpdate (n : Node) (u : CacheUpdate) : Node × Except SyncError Unit :=
  match n.requestedChange u with
  | .ok none => (n, .ok ())
  | .ok (some c) => n.carryOut c
  | .error e => (n, .error e)

/-- Takes a message and answers it. -/
def receive (n : Node) (m : Message) : Node × Message :=
  match n.arrival m with
  | .reply r => (n, r)
  | .change c =>
    let (n, result) := n.carryOut c
    (n, replyTo result)

/-- The messages that tell a peer of all values of the open lists, list by list in the order of
their names. -/
def snapshot (n : Node) : Except SyncError (List CacheUpdate) := do
  let parts ← n.registry.inOrder.mapM fun k => (Cache.Rules.ofKind k).snapshot (n.lists.get k)
  return parts.flatten

/-- The node, as the handler of messages, in a diagnostic. -/
def describe (n : Node) : String :=
  "PacketHandler \x7b node_name: " ++ Text.quoted n.config.nodeName ++ ", lists: " ++
    n.registry.describe ++ " \x7d"

end Node

end CloudRoster
