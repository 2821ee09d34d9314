import CloudRoster.Identity.NameKey
import CloudRoster.Json.Record

/-!
# Services

A service is started from a group and numbered within it; group and number make its name.
-/

namespace CloudRoster

open Json (Codec Record Field)

/-- How far a service is in its life. -/
inductive ServiceState where
  | prepared
  | starting
  | visible
  | invisible
  | closed
  deriving Repr, DecidableEq

namespace ServiceState

/-- The written name of a state. -/
def name : ServiceState → String
  | .prepared => "PREPARED"
  | .starting => "STARTING"
  | .visible => "VISIBLE"
  | .invisible => "INVISIBLE"
  | .closed => "CLOSED"

/-- States are written as their names. -/
def codec : Codec ServiceState :=
  .enumeration [("PREPARED", .prepared), ("STARTING", .starting), ("VISIBLE", .visible),
    ("INVISIBLE", .invisible), ("CLOSED", .closed)] name

end ServiceState

/-- A running service, or one that waits to be started. -/
structure Service where
  groupName : String
  serviceNumber : UInt32
  /-- The machine it runs on. -/
  wrapperName : Option String
  port : UInt16
  state : ServiceState
  /-- How many players are on it. -/
  onlineCount : UInt32
  maxPlayers : UInt32
  usedMemoryMb : UInt32
  authenticated : Bool
  deriving Repr, DecidableEq

namespace Service

/-- A service that waits to be started. -/
def new (groupName : String) (serviceNumber : UInt32) (port : UInt16) : Service where
  groupName := groupName
  serviceNumber := serviceNumber
  wrapperName := none
  port := port
  state := .prepared
  onlineCount := 0
  maxPlayers := 20
  usedMemoryMb := 0
  authenticated := false

/-- The name of a service. -/
def name (s : Service) : String :=
  s.groupName ++ "-" ++ String.ofList (Nat.toDigits 10 s.serviceNumber.toNat)

/-- The fields of a service. -/
def record : Record Service where
  title := "CloudService"
  fields := [
    .required "group_name" .text, .required "service_number" .uint32,
    .optional "wrapper_name" .text, .required "port" .uint16,
    .required "state" ServiceState.codec, .required "online_count" .uint32,
    .required "max_players" .uint32, .required "used_memory_mb" .uint32,
    .required "authenticated" .boolean]
  toRow s := (s.groupName, s.serviceNumber, s.wrapperName, s.port, s.state, s.onlineCount,
    s.maxPlayers, s.usedMemoryMb, s.authenticated, ())
  ofRow := fun (group, number, wrapper, port, state, online, players, memory, authenticated, ()) =>
    ⟨group, number, wrapper, port, state, online, players, memory, authenticated⟩
  ofRow_toRow _ := rfl
  toRow_ofRow _ := rfl

/-- How services are written. -/
def codec : Codec Service := record.codec

/-- The key of a service. -/
def key (s : Service) : NameKey := .ofName s.name

/-! ## Staged changes -/

/-- One staged change. -/
inductive Edit where
  | wrapper (name : Option String)
  | state (value : ServiceState)
  | onlineCount (count : UInt32)
  | maxPlayers (players : UInt32)
  | usedMemory (mb : UInt32)
  | authenticated (on : Bool)
  deriving Repr, DecidableEq

/-- A service together with the changes staged against it. -/
structure Updater where
  /-- The service before the changes. -/
  baseline : Service
  wrapperName : Option (Option String)
  state : Option ServiceState
  onlineCount : Option UInt32
  maxPlayers : Option UInt32
  usedMemoryMb : Option UInt32
  authenticated : Option Bool
  deriving Repr, DecidableEq

/-- The service with no changes staged. -/
def updater (s : Service) : Updater := ⟨s, none, none, none, none, none, none⟩

namespace Updater

/-- Stages a change; it replaces an earlier one of the same field. -/
def stage (u : Updater) : Edit → Updater
  | .wrapper name => { u with wrapperName := some name }
  | .state value => { u with state := some value }
  | .onlineCount count => { u with onlineCount := some count }
  | .maxPlayers players => { u with maxPlayers := some players }
  | .usedMemory mb => { u with usedMemoryMb := some mb }
  | .authenticated on => { u with authenticated := some on }

/-- The service with the staged changes. -/
def merge (u : Updater) : Service :=
  { u.baseline with
    wrapperName := u.wrapperName.getD u.baseline.wrapperName
    state := u.state.getD u.baseline.state
    onlineCount := u.onlineCount.getD u.baseline.onlineCount
    maxPlayers := u.maxPlayers.getD u.baseline.maxPlayers
    usedMemoryMb := u.usedMemoryMb.getD u.baseline.usedMemoryMb
    authenticated := u.authenticated.getD u.baseline.authenticated }

/-- Whether anything is staged. -/
def hasChanges (u : Updater) : Bool :=
  u.wrapperName.isSome || u.state.isSome || u.onlineCount.isSome || u.maxPlayers.isSome ||
    u.usedMemoryMb.isSome || u.authenticated.isSome

end Updater

end Service

end CloudRoster
