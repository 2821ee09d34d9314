import CloudRoster.Cache.Commit

/-!
# The event bus

Events are published in one sequence. A listener gets those that came after its `Bus.subscribe`, in
order. The bus keeps a bounded number of the latest events; `Bus.drain` gives a listener that is
further behind the number of events it has missed, and goes on with the oldest event kept.
-/

namespace CloudRoster.Cache

/-- A subscription to the events. -/
structure Listener where
  /-- By what the listener is told apart from the others. -/
  id : Nat
  /-- How many of the events ever published the listener is past. -/
  position : Nat
  deriving Repr, DecidableEq

/-- The sequence of events with its listeners. -/
structure Bus where
  /-- How many events are kept. -/
  capacity : Nat
  /-- All events ever published, oldest first. -/
  log : List Envelope
  listeners : List Listener
  /-- The number of listeners there have ever been. -/
  issued : Nat
  deriving Repr, DecidableEq

/-- What a listener gets from the bus. -/
structure Delivery where
  /-- How many events were lost before the others. -/
  lost : Nat
  events : List Envelope
  deriving Repr, DecidableEq

namespace Bus

/-- The least power of two that is at least a number. -/
def powerOfTwoFrom (n : Nat) : Nat := if n ≤ 1 then 1 else Nat.pow 2 ((n - 1).log2 + 1)

/-- A bus that is to keep at least as many events as asked for, and at least one. -/
def new (capacity : Nat) : Bus := ⟨powerOfTwoFrom capacity, [], [], 0⟩

/-- Publishes an event. -/
def publish (b : Bus) (e : Envelope) : Bus := { b with log := b.log ++ [e] }

/-- Publishes events in order. -/
def publishAll (b : Bus) (es : List Envelope) : Bus := { b with log := b.log ++ es }

/-- The number of listeners. -/
def listenerCount (b : Bus) : Nat := b.listeners.length

/-- Adds a listener, which is past all events so far. -/
def subscribe (b : Bus) : Bus × Nat :=
  ({ b with listeners := b.listeners ++ [⟨b.issued, b.log.length⟩], issued := b.issued + 1 },
    b.issued)

/-- Whether there is a listener of an identifier. -/
def listens (b : Bus) (id : Nat) : Bool := b.listeners.any (·.id = id)

/-- Removes a listener. -/
def unsubscribe (b : Bus) (id : Nat) : Bus :=
  { b with listeners := b.listeners.filter (·.id ≠ id) }

/-- What a listener at a position is behind with. -/
def behind (b : Bus) (position : Nat) : Delivery :=
  let waiting := b.log.drop position
  let lost := waiting.length - b.capacity
  ⟨lost, waiting.drop lost⟩

/-- Hands a listener everything it is behind with. -/
def drain (b : Bus) (id : Nat) : Bus × Option Delivery :=
  match b.listeners.find? (·.id = id) with
  | none => (b, none)
  | some l =>
    ({ b with listeners := b.listeners.map fun l =>
        if l.id = id then { l with position := b.log.length } else l },
      some (b.behind l.position))

end Bus

end CloudRoster.Cache
