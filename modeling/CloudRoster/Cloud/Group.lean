import CloudRoster.Identity.NameKey
import CloudRoster.Json.Record

/-!
# Service groups

A group is the plan that services are started from. Its name and its kind never change, and only a
lobby group has a priority that does.
-/

namespace CloudRoster

open Json (Codec Record Field)

/-- What the services of a group are for. -/
inductive GroupType where
  | proxy
  | lobby
  | server
  deriving Repr, DecidableEq

namespace GroupType

/-- The written name of a kind of group. -/
def name : GroupType → String
  | .proxy => "PROXY"
  | .lobby => "LOBBY"
  | .server => "SERVER"

/-- Kinds of groups are written as their names. -/
def codec : Codec GroupType :=
  .enumeration [("PROXY", .proxy), ("LOBBY", .lobby), ("SERVER", .server)] name

end GroupType

/-- A group of services. -/
structure Group where
  name : String
  groupType : GroupType
  /-- The template that its services are started from. -/
  templateName : String
  /-- The memory of a service, in megabytes. -/
  maxMemoryMb : UInt32
  /-- How many services are kept online. -/
  minOnlineCount : UInt32
  /-- How many services may be online, if there is a limit. -/
  maxOnlineCount : Option UInt32
  /-- How many players a service takes. -/
  maxPlayers : UInt32
  maintenance : Bool
  /-- Whether the files of its services are kept. -/
  staticGroup : Bool
  /-- Which lobby is preferred. -/
  priority : Int32
  /-- The first port of its services, if they have fixed ones. -/
  startPort : Option UInt16
  /-- The permission that players need. -/
  permission : Option String
  deriving Repr, DecidableEq

namespace Group

/-- A group with the usual settings. -/
def new (name : String) (groupType : GroupType) : Group where
  name := name
  groupType := groupType
  templateName := name
  maxMemoryMb := 1024
  minOnlineCount := 1
  maxOnlineCount := none
  maxPlayers := 20
  maintenance := false
  staticGroup := false
  priority := 0
  startPort := if groupType = .proxy then some 25565 else none
  permission := none

/-- The fields of a group. -/
def record : Record Group where
  title := "ServiceGroup"
  fields := [
    .required "name" .text, .required "group_type" GroupType.codec,
    .required "template_name" .text, .required "max_memory_mb" .uint32,
    .required "min_online_count" .uint32, .optional "max_online_count" .uint32,
    .required "max_players" .uint32, .required "maintenance" .boolean,
    .required "static_group" .boolean, .defaulted "priority" .int32 0,
    .defaulted "start_port" (.option .uint16) none, .defaulted "permission" (.option .text) none]
  toRow g := (g.name, g.groupType, g.templateName, g.maxMemoryMb, g.minOnlineCount,
    g.maxOnlineCount, g.maxPlayers, g.maintenance, g.staticGroup, g.priority, g.startPort,
    g.permission, ())
  ofRow := fun (name, kind, template, memory, least, most, players, maintenance, fixed, priority,
      port, permission, ()) =>
    ⟨name, kind, template, memory, least, most, players, maintenance, fixed, priority, port,
      permission⟩
  ofRow_toRow _ := rfl
  toRow_ofRow _ := rfl

/-- How groups are written. -/
def codec : Codec Group := record.codec

/-- The key of a group. -/
def key (g : Group) : NameKey := .ofName g.name

/-! ## Staged changes -/

/-- One staged change. -/
inductive Edit where
  | templateName (name : String)
  | maxMemory (mb : UInt32)
  | minOnlineCount (count : UInt32)
  | maxOnlineCount (count : Option UInt32)
  | maxPlayers (players : UInt32)
  | maintenance (on : Bool)
  /-- Has no effect on a group that is no lobby. -/
  | priority (value : Int32)
  | permission (name : Option String)
  deriving Repr, DecidableEq

/-- A group together with the changes staged against it. -/
structure Updater where
  /-- The group before the changes. -/
  baseline : Group
  templateName : Option String
  maxMemoryMb : Option UInt32
  minOnlineCount : Option UInt32
  maxOnlineCount : Option (Option UInt32)
  maxPlayers : Option UInt32
  maintenance : Option Bool
  priority : Option Int32
  permission : Option (Option String)
  deriving Repr, DecidableEq

/-- The group with no changes staged. -/
def updater (g : Group) : Updater := ⟨g, none, none, none, none, none, none, none, none⟩

namespace Updater

/-- Stages a change; it replaces an earlier one of the same field. -/
def stage (u : Updater) : Edit → Updater
  | .templateName name => { u with templateName := some name }
  | .maxMemory mb => { u with maxMemoryMb := some mb }
  | .minOnlineCount count => { u with minOnlineCount := some count }
  | .maxOnlineCount count => { u with maxOnlineCount := some count }
  | .maxPlayers players => { u with maxPlayers := some players }
  | .maintenance on => { u with maintenance := some on }
  | .priority value => { u with priority := some value }
  | .permission name => { u with permission := some name }

/-- The group with the staged changes. -/
def merge (u : Updater) : Group :=
  { u.baseline with
    templateName := u.templateName.getD u.baseline.templateName
    maxMemoryMb := u.maxMemoryMb.getD u.baseline.maxMemoryMb
    minOnlineCount := u.minOnlineCount.getD u.baseline.minOnlineCount
    maxOnlineCount := u.maxOnlineCount.getD u.baseline.maxOnlineCount
    maxPlayers := u.maxPlayers.getD u.baseline.maxPlayers
    maintenance := u.maintenance.getD u.baseline.maintenance
    priority :=
      if u.baseline.groupType = .lobby then u.priority.getD u.baseline.priority
      else u.baseline.priority
    permission := u.permission.getD u.baseline.permission }

/-- Whether anything is staged. -/
def hasChanges (u : Updater) : Bool :=
  u.templateName.isSome || u.maxMemoryMb.isSome || u.minOnlineCount.isSome ||
    u.maxOnlineCount.isSome || u.maxPlayers.isSome || u.maintenance.isSome ||
    u.priority.isSome || u.permission.isSome

end Updater

end Group

end CloudRoster
