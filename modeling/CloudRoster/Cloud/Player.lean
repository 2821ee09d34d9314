import CloudRoster.Identity.Uuid
import CloudRoster.Json.Record

/-!
# Players

A player who is online, and the changes that can be staged against one. Staged changes are merged
into a whole player; the identifier and the name of a player never change.
-/

namespace CloudRoster

open Json (Codec Record Field)

/-- Whether a player is on the way to a server or has arrived. -/
inductive ConnectState where
  | connecting
  | connected
  deriving Repr, DecidableEq

namespace ConnectState

/-- The written name of a state. -/
def name : ConnectState → String
  | .connecting => "CONNECTING"
  | .connected => "CONNECTED"

/-- States are written as their names. -/
def codec : Codec ConnectState :=
  .enumeration [("CONNECTING", .connecting), ("CONNECTED", .connected)] name

end ConnectState

/-- A player who is online. -/
structure Player where
  /-- The identifier. -/
  uniqueId : Uuid
  /-- The account name. -/
  name : String
  /-- The name shown to others. -/
  displayName : String
  /-- The proxy that the player came through. -/
  proxyName : Option String
  /-- The server that the player is on or on the way to. -/
  serverName : Option String
  /-- Whether the player has arrived there. -/
  connectState : ConnectState
  /-- When the player first logged in, in milliseconds. -/
  firstLogin : Int64
  /-- When the player last logged in, in milliseconds. -/
  lastLogin : Int64
  /-- How long the player has been online, in milliseconds. -/
  onlineTimeMs : Int64
  deriving Repr, DecidableEq

namespace Player

/-- A player who logs in at a time through a proxy. -/
def new (uniqueId : Uuid) (name proxy : String) (now : Int64) : Player where
  uniqueId := uniqueId
  name := name
  displayName := name
  proxyName := some proxy
  serverName := none
  connectState := .connecting
  firstLogin := now
  lastLogin := now
  onlineTimeMs := 0

/-- The fields of a player. -/
def record : Record Player where
  title := "CloudPlayer"
  fields := [
    .required "unique_id" Uuid.codec, .required "name" .text, .required "display_name" .text,
    .optional "connected_proxy_name" .text, .optional "connected_server_name" .text,
    .required "server_connect_state" ConnectState.codec, .required "first_login" .int64,
    .required "last_login" .int64, .required "online_time_ms" .int64]
  toRow p := (p.uniqueId, p.name, p.displayName, p.proxyName, p.serverName, p.connectState,
    p.firstLogin, p.lastLogin, p.onlineTimeMs, ())
  ofRow := fun (id, name, display, proxy, server, state, first, last, time, ()) =>
    ⟨id, name, display, proxy, server, state, first, last, time⟩
  ofRow_toRow _ := rfl
  toRow_ofRow _ := rfl

/-- How players are written. -/
def codec : Codec Player := record.codec

/-! ## Staged changes -/

/-- One staged change. -/
inductive Edit where
  | displayName (name : String)
  | proxy (name : Option String)
  /-- Sends the player on the way to a server. -/
  | connectTo (server : String)
  | server (name : Option String)
  | connectState (state : ConnectState)
  | onlineTime (millis : Int64)
  deriving Repr, DecidableEq

/-- A player together with the changes staged against it. -/
structure Updater where
  /-- The player before the changes. -/
  baseline : Player
  displayName : Option String
  proxyName : Option (Option String)
  serverName : Option (Option String)
  connectState : Option ConnectState
  onlineTimeMs : Option Int64
  deriving Repr, DecidableEq

/-- The player with no changes staged. -/
def updater (p : Player) : Updater := ⟨p, none, none, none, none, none⟩

namespace Updater

/-- Stages a change; it replaces an earlier one of the same field. -/
def stage (u : Updater) : Edit → Updater
  | .displayName name => { u with displayName := some name }
  | .proxy name => { u with proxyName := some name }
  | .connectTo server =>
    { u with serverName := some (some server), connectState := some .connecting }
  | .server name => { u with serverName := some name }
  | .connectState state => { u with connectState := some state }
  | .onlineTime millis => { u with onlineTimeMs := some millis }

/-- The server that the player will be on. -/
def connectedServer (u : Updater) : Option String := u.serverName.getD u.baseline.serverName

/-- The player with the staged changes. -/
def merge (u : Updater) : Player :=
  { u.baseline with
    displayName := u.displayName.getD u.baseline.displayName
    proxyName := u.proxyName.getD u.baseline.proxyName
    serverName := u.serverName.getD u.baseline.serverName
    connectState := u.connectState.getD u.baseline.connectState
    onlineTimeMs := u.onlineTimeMs.getD u.baseline.onlineTimeMs }

/-- Whether anything is staged. -/
def hasChanges (u : Updater) : Bool :=
  u.displayName.isSome || u.proxyName.isSome || u.serverName.isSome || u.connectState.isSome ||
    u.onlineTimeMs.isSome

end Updater

end Player

end CloudRoster
