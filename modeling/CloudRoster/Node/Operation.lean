import CloudRoster.Node.World

/-!
# Operations in flight

What an operation on a node is to do, and how far it has got. An operation that changes a value
first claims what the value is about on its node, then commits the change, hands out its messages, a
round for each, tells the store, and gives the claim back. Between two of these it may wait: for its
claim, for the outcome of a round, or for the store. A round over the loopback is a row of visits; a
visit makes a claim of its own at the peer, and may wait for it and for the store of the peer.
-/

namespace CloudRoster

/-- What can be claimed: a subject on a node. -/
abbrev Site := Nat × ((k : Kind) × k.Key)

/-- An operation as a claimant of sites. -/
structure Claimant where
  operation : Nat
  /-- Whether the claim is for the visit that the operation makes, and not for its own node. -/
  visiting : Bool
  deriving Repr, DecidableEq

/-- What an operation is to do. -/
inductive Task where
  | change (c : Change)
  /-- Delete the template of a name, as it is when the operation begins. -/
  | deleteTemplate (name : String)
  /-- Answer a message from a peer. -/
  | message (m : Message)

/-- What an operation ended with. -/
inductive Outcome where
  | result (r : Except SyncError Unit)
  | reply (m : Message)

/-- The outcome of a task whose change ended with a result. -/
def Task.outcome (result : Except SyncError Unit) : Task → Outcome
  | .message _ => .reply (Node.replyTo result)
  | _ => .result result

/-- How far a visit has got. -/
inductive Stage where
  /-- It has not asked for its site yet. -/
  | coming
  | asked
  /-- The change is committed, and only the store of the peer has still to be told. -/
  | committed
  deriving Repr, DecidableEq

/-- The visit of a peer. -/
structure Visit where
  /-- The name under which the peer is connected. -/
  name : String
  node : Nat
  /-- The change that the message asks of the peer. -/
  change : Change
  stage : Stage

namespace Visit

/-- What the visit claims. -/
def site (v : Visit) : Site := (v.node, v.change.subject)

end Visit

/-- What a round waits for. -/
inductive Awaited where
  /-- The outcome of the whole round, from outside the world. -/
  | outside
  /-- A visit; the peers after it, and the report of those before it. -/
  | visit (v : Visit) (later : List (String × Nat)) (report : Report)

/-- A round that is not over. -/
structure Round where
  message : CacheUpdate
  /-- When the time of the round is up. -/
  deadline : Nat
  awaited : Awaited
  /-- The messages that are handed out after this one. -/
  later : List CacheUpdate

/-- How far an operation has got. -/
inductive Phase where
  /-- It has not begun. -/
  | fresh
  /-- It has asked for its site. -/
  | waiting (c : Change)
  /-- It has its site, and waits for the outcome of a round. -/
  | round (c : Change) (r : Round)
  /-- It has its site, and waits for the store; the result is that of the rounds. -/
  | storing (c : Change) (result : Except SyncError Unit)
  | ended (o : Outcome)
  /-- It was abandoned before its end. -/
  | abandoned

namespace Phase

/-- Whether nothing more comes of the operation. -/
def isOver : Phase → Bool
  | ended _ | abandoned => true
  | _ => false

/-- What the operation ended with. -/
def outcome? : Phase → Option Outcome
  | ended o => some o
  | _ => none

/-- How often the operation may still have to wait for an outcome or the store. -/
def waitsAhead : Phase → Nat
  | round _ r => r.later.length + 2
  | storing _ _ => 1
  | _ => 0

end Phase

/-- An operation on a node. -/
structure Operation where
  node : Nat
  task : Task
  phase : Phase

/-- What is written down of the operations on a world. -/
inductive Note where
  /-- A claimant asked for a site. -/
  | asked (site : Site) (who : Claimant)
  /-- A claimant who has a site committed a change of it. -/
  | committed (site : Site) (who : Claimant) (c : Change)
  /-- An operation handed out a message about its site. -/
  | handed (site : Site) (operation : Nat) (u : CacheUpdate)

end CloudRoster
