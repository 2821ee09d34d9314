import CloudRoster.Identity.NameKey
import CloudRoster.Json.Record

/-!
# Wrappers

A wrapper is a machine that services run on.
-/

namespace CloudRoster

open Json (Codec Record Field)

/-- A machine that services run on. -/
structure Wrapper where
  name : String
  host : String
  /-- The memory for services, in megabytes. -/
  maxMemoryMb : UInt32
  /-- The memory in use, in megabytes. -/
  usedMemoryMb : UInt32
  /-- How many services may be starting at the same time. -/
  maxStartingServices : UInt32
  authenticated : Bool
  /-- Whether the machine has all templates. -/
  templatesReady : Bool
  deriving Repr, DecidableEq

namespace Wrapper

/-- A machine that has not logged in yet. -/
def new (name host : String) (maxMemoryMb : UInt32) : Wrapper where
  name := name
  host := host
  maxMemoryMb := maxMemoryMb
  usedMemoryMb := 0
  maxStartingServices := 2
  authenticated := false
  templatesReady := false

/-- The memory left, which is none where more is in use than there is. -/
def freeMemoryMb (w : Wrapper) : UInt32 :=
  if w.usedMemoryMb ≤ w.maxMemoryMb then w.maxMemoryMb - w.usedMemoryMb else 0

/-- The fields of a wrapper. -/
def record : Record Wrapper where
  title := "Wrapper"
  fields := [
    .required "name" .text, .required "host" .text, .required "max_memory_mb" .uint32,
    .required "used_memory_mb" .uint32, .required "max_simultaneously_starting_services" .uint32,
    .required "authenticated" .boolean, .required "templates_ready" .boolean]
  toRow w := (w.name, w.host, w.maxMemoryMb, w.usedMemoryMb, w.maxStartingServices,
    w.authenticated, w.templatesReady, ())
  ofRow := fun (name, host, memory, used, starting, authenticated, ready, ()) =>
    ⟨name, host, memory, used, starting, authenticated, ready⟩
  ofRow_toRow _ := rfl
  toRow_ofRow _ := rfl

/-- How wrappers are written. -/
def codec : Codec Wrapper := record.codec

/-- The key of a wrapper. -/
def key (w : Wrapper) : NameKey := .ofName w.name

/-! ## Staged changes -/

/-- One staged change. -/
inductive Edit where
  | maxMemory (mb : UInt32)
  | usedMemory (mb : UInt32)
  | maxStartingServices (count : UInt32)
  | authenticated (on : Bool)
  | templatesReady (on : Bool)
  deriving Repr, DecidableEq

/-- A wrapper together with the changes staged against it. -/
structure Updater where
  /-- The wrapper before the changes. -/
  baseline : Wrapper
  maxMemoryMb : Option UInt32
  usedMemoryMb : Option UInt32
  maxStartingServices : Option UInt32
  authenticated : Option Bool
  templatesReady : Option Bool
  deriving Repr, DecidableEq

/-- The wrapper with no changes staged. -/
def updater (w : Wrapper) : Updater := ⟨w, none, none, none, none, none⟩

namespace Updater

/-- Stages a change; it replaces an earlier one of the same field. -/
def stage (u : Updater) : Edit → Updater
  | .maxMemory mb => { u with maxMemoryMb := some mb }
  | .usedMemory mb => { u with usedMemoryMb := some mb }
  | .maxStartingServices count => { u with maxStartingServices := some count }
  | .authenticated on => { u with authenticated := some on }
  | .templatesReady on => { u with templatesReady := some on }

/-- The wrapper with the staged changes. -/
def merge (u : Updater) : Wrapper :=
  { u.baseline with
    maxMemoryMb := u.maxMemoryMb.getD u.baseline.maxMemoryMb
    usedMemoryMb := u.usedMemoryMb.getD u.baseline.usedMemoryMb
    maxStartingServices := u.maxStartingServices.getD u.baseline.maxStartingServices
    authenticated := u.authenticated.getD u.baseline.authenticated
    templatesReady := u.templatesReady.getD u.baseline.templatesReady }

/-- Whether anything is staged. -/
def hasChanges (u : Updater) : Bool :=
  u.maxMemoryMb.isSome || u.usedMemoryMb.isSome || u.maxStartingServices.isSome ||
    u.authenticated.isSome || u.templatesReady.isSome

end Updater

end Wrapper

end CloudRoster
