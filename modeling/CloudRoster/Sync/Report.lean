import CloudRoster.Sync.Error

/-!
# The outcome of a round

A round hands one message to every peer. Its report counts the peers and those that took the
message, and tells for the others why they did not.
-/

namespace CloudRoster

/-- The outcome of handing a message to every peer. -/
structure Report where
  /-- The number of peers. -/
  total : Nat
  /-- The number of peers that took the message. -/
  delivered : Nat
  /-- The other peers by name, each with its reason. -/
  failures : List (String × String)
  deriving Repr, DecidableEq

namespace Report

/-- The report of a round without peers. -/
def empty : Report := ⟨0, 0, []⟩

/-- Whether every peer took the message. -/
def isComplete (r : Report) : Bool := r.failures.isEmpty && r.delivered == r.total

/-- The reasons of all failures in one line. -/
def reasons (r : Report) : String :=
  "; ".intercalate (r.failures.map fun (peer, reason) => peer ++ ": " ++ reason)

/-- A round that did not reach every peer is an error. -/
def result (r : Report) : Except SyncError Unit :=
  if r.isComplete then .ok () else .error (.broadcast r.delivered r.total r.reasons)

/-- The report with one more peer that took the message. -/
def deliver (r : Report) : Report := { r with delivered := r.delivered + 1 }

/-- The report with one more peer that did not take the message. -/
def fail (r : Report) (peer reason : String) : Report :=
  { r with failures := r.failures ++ [(peer, reason)] }

end Report

end CloudRoster
