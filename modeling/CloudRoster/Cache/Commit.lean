import CloudRoster.Cache.Rules

/-!
# Commits

The change of a list that one operation makes, all at once: the entries after it, the events it
publishes and the messages it has for the peers. A value that cannot be written for the peers
changes nothing. A removal first brings the copy up to the final state of the value and then takes
it away; it has two messages, because a peer is to learn of both.
-/

namespace CloudRoster.Cache

/-- An event as it is published. -/
structure Envelope where
  /-- The list that changed. -/
  listName : String
  /-- Whether the change came from a peer. -/
  fromPacket : Bool
  event : Event
  deriving Repr, DecidableEq

/-- What an operation does to a list. -/
structure Commit (K V : Type) where
  /-- The entries after it. -/
  entries : Entries K V
  /-- The events it publishes. -/
  events : List Envelope
  /-- The messages it has for the peers. -/
  outbox : List CacheUpdate

variable {K V : Type} [DecidableEq K]

namespace Rules

/-- The messages of an operation: a list that does not spread, or a change that came from a peer,
has none. -/
def outbox (rules : Rules K V) (spreads fromPacket : Bool) (v : V) (actions : List Action) :
    Except SyncError (List CacheUpdate) :=
  if spreads && !fromPacket then actions.mapM (rules.message v) else .ok []

/-- The envelopes of events. -/
def envelopes (rules : Rules K V) (fromPacket : Bool) (events : List Event) : List Envelope :=
  events.map fun e => ⟨rules.listName, fromPacket, e⟩

/-- The entries with a value: in the place of its copy, or put in as a new one. -/
def place (rules : Rules K V) (entries : Entries K V) (v : V) : Entries K V :=
  let key := rules.identify v
  if (entries.find? key).isSome then entries.replace key v else rules.insert entries key v

/-- Puts a value into a list. -/
def update (rules : Rules K V) (spreads fromPacket : Bool) (entries : Entries K V) (v : V) :
    Except SyncError (Commit K V) := do
  let outbox ← rules.outbox spreads fromPacket v [.update]
  return {
    entries := rules.place entries v
    events := rules.envelopes fromPacket (rules.updateEvents v (entries.find? (rules.identify v)))
    outbox := outbox }

/-- Takes a value out of a list. A value whose key is not there changes nothing. -/
def delete (rules : Rules K V) (spreads fromPacket : Bool) (entries : Entries K V) (v : V) :
    Except SyncError (Commit K V) :=
  let key := rules.identify v
  match entries.find? key with
  | none => .ok ⟨entries, [], []⟩
  | some cached => do
    let outbox ← rules.outbox spreads fromPacket v [.update, .delete]
    let events := rules.updateEvents v (some cached) ++ rules.removalEvents v
    return ⟨(entries.replace key v).erase key, rules.envelopes fromPacket events, outbox⟩

/-- Carries out an action. -/
def commit (rules : Rules K V) (spreads fromPacket : Bool) (entries : Entries K V) (v : V) :
    Action → Except SyncError (Commit K V)
  | .update => rules.update spreads fromPacket entries v
  | .delete => rules.delete spreads fromPacket entries v

end Rules

end CloudRoster.Cache
