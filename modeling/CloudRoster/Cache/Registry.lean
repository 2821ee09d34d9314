import CloudRoster.Sync.Error
import CloudRoster.Text.Quoted

/-!
# Registries of names

Lists are reached by name. A name is given to one list at a time, and names are shown in order.
-/

namespace CloudRoster.Cache

/-- Things by name. -/
structure Registry (α : Type) where
  entries : List (String × α)
  deriving DecidableEq

/-- Names in increasing order. -/
def sortedNames (names : List String) : List String := names.mergeSort fun a b => !(b < a)

namespace Registry

variable {α : Type}

/-- A registry without names. -/
def empty : Registry α := ⟨[]⟩

/-- What a name is given to. -/
def find? (r : Registry α) (name : String) : Option α :=
  (r.entries.find? (·.1 = name)).map (·.2)

/-- What a name must be given to. -/
def require (r : Registry α) (name : String) : Except SyncError α :=
  match r.find? name with
  | some a => .ok a
  | none => .error (.unknownList name)

/-- Gives a name that is still free. -/
def register (r : Registry α) (name : String) (a : α) : Except SyncError (Registry α) :=
  if (r.find? name).isSome then .error (.duplicateList name)
  else .ok ⟨r.entries ++ [(name, a)]⟩

/-- Takes a name back, and tells what it was given to. -/
def unregister (r : Registry α) (name : String) : Registry α × Option α :=
  (⟨r.entries.filter (·.1 ≠ name)⟩, r.find? name)

/-- The names in order. -/
def names (r : Registry α) : List String := sortedNames (r.entries.map (·.1))

/-- What the names are given to, in the order of the names. -/
def inOrder (r : Registry α) : List α :=
  (r.entries.mergeSort fun a b => !(b.1 < a.1)).map (·.2)

/-- How many names are given. -/
def size (r : Registry α) : Nat := r.entries.length

/-- The registry in a diagnostic. -/
def describe (r : Registry α) : String :=
  "CacheListManager \x7b lists: " ++ Text.quotedList r.names ++ " \x7d"

end Registry

end CloudRoster.Cache
