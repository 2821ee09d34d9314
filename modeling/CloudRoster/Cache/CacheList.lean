import CloudRoster.Cache.Commit
import CloudRoster.Sync.Report

/-!
# A list by itself

A list with its rules, apart from any node: its entries, the events it has published and the
messages it has handed out. Operations are carried out one after another. A change is committed
first; then its messages are handed out, a round for each, until a round fails. The outcome of each
round is given from outside.
-/

namespace CloudRoster.Cache

/-- A list of values. -/
structure CacheList (K V : Type) where
  rules : Rules K V
  /-- Whether its own changes are told to the peers. -/
  spreads : Bool
  entries : Entries K V
  /-- The events published, oldest first. -/
  log : List Envelope
  /-- The messages handed out, oldest first. -/
  handed : List CacheUpdate

namespace CacheList

variable {K V : Type}

/-- A list without values. -/
def new (rules : Rules K V) (spreads : Bool) : CacheList K V := ⟨rules, spreads, [], [], []⟩

/-- Hands out messages, a round for each, until a round fails; `outcome` tells how a round ends,
counted from the first message ever handed out. -/
def handOut (outcome : Nat → Except SyncError Report) :
    CacheList K V → List CacheUpdate → CacheList K V × Except SyncError Unit
  | l, [] => (l, .ok ())
  | l, u :: outbox =>
    let result := (outcome l.handed.length).bind Report.result
    let l := { l with handed := l.handed ++ [u] }
    match result with
    | .ok () => handOut outcome l outbox
    | .error e => (l, .error e)

variable [DecidableEq K]

/-- Carries out an action with a value. -/
def perform (outcome : Nat → Except SyncError Report) (l : CacheList K V) (v : V) (action : Action)
    (fromPacket : Bool) : CacheList K V × Except SyncError Unit :=
  match l.rules.commit l.spreads fromPacket l.entries v action with
  | .error e => (l, .error e)
  | .ok c => handOut outcome { l with entries := c.entries, log := l.log ++ c.events } c.outbox

/-- The value of a key. -/
def get? (l : CacheList K V) (key : K) : Option V := l.entries.find? key

/-- The copy of a value. -/
def cached (l : CacheList K V) (v : V) : Option V := l.get? (l.rules.identify v)

/-- The messages that tell a peer of all values. -/
def snapshot (l : CacheList K V) : Except SyncError (List CacheUpdate) := l.rules.snapshot l.entries

/-- The error of a value of another type. -/
def foreignValue (l : CacheList K V) : SyncError :=
  .typeMismatch l.rules.listName l.rules.typeName "another type"

end CacheList

end CloudRoster.Cache
