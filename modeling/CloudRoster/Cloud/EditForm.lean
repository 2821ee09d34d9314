import CloudRoster.Cloud.Kind

/-!
# Staged changes by name

A change can be staged by the name of what changes and a JSON value. Each kind of value has its
forms of changes; a form reads its JSON value as the type of what changes.
-/

namespace CloudRoster

open Json (Codec Fault)

/-- A way to stage a change by name. -/
structure EditForm (E : Type) where
  name : String
  /-- The change that a JSON value describes. -/
  read : Json → Except Fault E

namespace EditForm

/-- The form of a change of something that a codec reads. -/
def of {α E : Type} (name : String) (c : Codec α) (make : α → E) : EditForm E :=
  ⟨name, fun j => (c.read .text j.draft).map make⟩

end EditForm

/-- The forms of the changes of players. -/
def Player.editForms : List (EditForm Player.Edit) := [
  .of "display_name" .text .displayName,
  .of "connected_proxy" (.option .text) .proxy,
  .of "connect_to" .text .connectTo,
  .of "connected_server" (.option .text) .server,
  .of "server_connect_state" ConnectState.codec .connectState,
  .of "online_time" .int64 .onlineTime]

/-- The forms of the changes of groups. -/
def Group.editForms : List (EditForm Group.Edit) := [
  .of "template_name" .text .templateName,
  .of "max_memory" .uint32 .maxMemory,
  .of "min_online_count" .uint32 .minOnlineCount,
  .of "max_online_count" (.option .uint32) .maxOnlineCount,
  .of "max_players" .uint32 .maxPlayers,
  .of "maintenance" .boolean .maintenance,
  .of "priority" .int32 .priority,
  .of "permission" (.option .text) .permission]

/-- The forms of the changes of templates. -/
def Template.editForms : List (EditForm Template.Edit) := [
  .of "add_inherited_template" .text .addInherited,
  .of "remove_inherited_template" .text .removeInherited,
  .of "add_module_to_copy" .text .addModule,
  .of "remove_module_to_copy" .text .removeModule]

/-- The forms of the changes of wrappers. -/
def Wrapper.editForms : List (EditForm Wrapper.Edit) := [
  .of "max_memory" .uint32 .maxMemory,
  .of "used_memory" .uint32 .usedMemory,
  .of "max_simultaneously_starting_services" .uint32 .maxStartingServices,
  .of "authenticated" .boolean .authenticated,
  .of "templates_ready" .boolean .templatesReady]

/-- The forms of the changes of services. -/
def Service.editForms : List (EditForm Service.Edit) := [
  .of "wrapper" (.option .text) .wrapper,
  .of "state" ServiceState.codec .state,
  .of "online_count" .uint32 .onlineCount,
  .of "max_players" .uint32 .maxPlayers,
  .of "used_memory" .uint32 .usedMemory,
  .of "authenticated" .boolean .authenticated]

namespace Kind

/-- The forms of the changes of a kind. -/
def editForms : (k : Kind) → List (EditForm k.Edit)
  | player => Player.editForms
  | group => Group.editForms
  | template => Template.editForms
  | wrapper => Wrapper.editForms
  | service => Service.editForms

/-- Stages the change of a name; a name without a form changes nothing. -/
def stageNamed (k : Kind) (u : k.Updater) (name : String) (value : Json) :
    Except Fault k.Updater :=
  match k.editForms.find? (·.name = name) with
  | none => .ok u
  | some form => (form.read value).map (k.stage u)

/-- Stages changes one after another. -/
def stageAll (k : Kind) (u : k.Updater) (changes : List (String × Json)) :
    Except Fault k.Updater :=
  changes.foldlM (fun u (name, value) => k.stageNamed u name value) u

end Kind

end CloudRoster
