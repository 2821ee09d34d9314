import CloudRoster.Cloud.Group
import CloudRoster.Cloud.Player
import CloudRoster.Cloud.Service
import CloudRoster.Cloud.Template
import CloudRoster.Cloud.Wrapper

/-!
# Events

What can be told about a change of the cloud. Events are derived on every node from the difference
between a value and the copy held before; they are written as an object of the event's tag and its
data, and read with the two in either order.
-/

namespace CloudRoster

open Json (Codec Field Row Slots Fault Draft Key Medium)

/-- A change of the cloud. -/
inductive Event where
  | playerRegistered (player : Player)
  | playerUpdated (player : Player)
  /-- The player is sent to another server. -/
  | playerServerConnect (player : Player) (oldServer : Option String) (newServer : String)
  /-- The player has arrived on the server. -/
  | playerServerConnected (player : Player) (server : String)
  | playerUnregistered (player : Player)
  | groupCreated (group : Group)
  | groupUpdated (group : Group)
  | groupDeleted (group : Group)
  | templateCreated (template : Template)
  | templateUpdated (template : Template)
  | templateDeleted (template : Template)
  | wrapperRegistered (wrapper : Wrapper)
  | wrapperUpdated (wrapper : Wrapper)
  | wrapperUnregistered (wrapper : Wrapper)
  | serviceRegistered (service : Service)
  | serviceUpdated (service : Service)
  | serviceStateChanged (service : Service) (old new : ServiceState)
  /-- The service has authenticated itself. -/
  | serviceConnected (service : Service)
  | serviceUnregistered (service : Service)
  deriving Repr, DecidableEq

namespace Event

/-- The name under which an event is announced. -/
def name : Event → String
  | playerRegistered _ => "player-registered"
  | playerUpdated _ => "player-updated"
  | playerServerConnect _ _ _ => "player-server-connect"
  | playerServerConnected _ _ => "player-server-connected"
  | playerUnregistered _ => "player-unregistered"
  | groupCreated _ => "group-created"
  | groupUpdated _ => "group-updated"
  | groupDeleted _ => "group-deleted"
  | templateCreated _ => "template-created"
  | templateUpdated _ => "template-updated"
  | templateDeleted _ => "template-deleted"
  | wrapperRegistered _ => "wrapper-registered"
  | wrapperUpdated _ => "wrapper-updated"
  | wrapperUnregistered _ => "wrapper-unregistered"
  | serviceRegistered _ => "service-registered"
  | serviceUpdated _ => "service-updated"
  | serviceStateChanged _ _ _ => "service-state-changed"
  | serviceConnected _ => "service-connected"
  | serviceUnregistered _ => "service-unregistered"

/-- Whether the event tells that a value is new. -/
def isCreation : Event → Bool
  | playerRegistered _ | groupCreated _ | templateCreated _ | wrapperRegistered _
  | serviceRegistered _ => true
  | _ => false

/-- Whether the event tells that a value is gone. -/
def isRemoval : Event → Bool
  | playerUnregistered _ | groupDeleted _ | templateDeleted _ | wrapperUnregistered _
  | serviceUnregistered _ => true
  | _ => false

/-! ## Written form -/

/-- The tags of events. -/
inductive Tag where
  | playerRegistered
  | playerUpdated
  | playerServerConnect
  | playerServerConnected
  | playerUnregistered
  | groupCreated
  | groupUpdated
  | groupDeleted
  | templateCreated
  | templateUpdated
  | templateDeleted
  | wrapperRegistered
  | wrapperUpdated
  | wrapperUnregistered
  | serviceRegistered
  | serviceUpdated
  | serviceStateChanged
  | serviceConnected
  | serviceUnregistered
  deriving Repr, DecidableEq

namespace Tag

/-- All tags. -/
def all : List Tag := [
  playerRegistered, playerUpdated, playerServerConnect, playerServerConnected, playerUnregistered,
  groupCreated, groupUpdated, groupDeleted, templateCreated, templateUpdated, templateDeleted,
  wrapperRegistered, wrapperUpdated, wrapperUnregistered, serviceRegistered, serviceUpdated,
  serviceStateChanged, serviceConnected, serviceUnregistered]

/-- The written form of a tag. -/
def text : Tag → String
  | playerRegistered => "PlayerRegistered"
  | playerUpdated => "PlayerUpdated"
  | playerServerConnect => "PlayerServerConnect"
  | playerServerConnected => "PlayerServerConnected"
  | playerUnregistered => "PlayerUnregistered"
  | groupCreated => "GroupCreated"
  | groupUpdated => "GroupUpdated"
  | groupDeleted => "GroupDeleted"
  | templateCreated => "TemplateCreated"
  | templateUpdated => "TemplateUpdated"
  | templateDeleted => "TemplateDeleted"
  | wrapperRegistered => "WrapperRegistered"
  | wrapperUpdated => "WrapperUpdated"
  | wrapperUnregistered => "WrapperUnregistered"
  | serviceRegistered => "ServiceRegistered"
  | serviceUpdated => "ServiceUpdated"
  | serviceStateChanged => "ServiceStateChanged"
  | serviceConnected => "ServiceConnected"
  | serviceUnregistered => "ServiceUnregistered"

/-- The fields of the data of an event. -/
def fields : Tag → List Field
  | playerRegistered | playerUpdated | playerUnregistered => [.required "player" Player.codec]
  | playerServerConnect =>
    [.required "player" Player.codec, .optional "old_server" .text, .required "new_server" .text]
  | playerServerConnected => [.required "player" Player.codec, .required "server" .text]
  | groupCreated | groupUpdated | groupDeleted => [.required "group" Group.codec]
  | templateCreated | templateUpdated | templateDeleted => [.required "template" Template.codec]
  | wrapperRegistered | wrapperUpdated | wrapperUnregistered => [.required "wrapper" Wrapper.codec]
  | serviceRegistered | serviceUpdated | serviceConnected | serviceUnregistered =>
    [.required "service" Service.codec]
  | serviceStateChanged =>
    [.required "service" Service.codec, .required "from" ServiceState.codec,
      .required "to" ServiceState.codec]

/-- The event with given data. -/
def make : (t : Tag) → Row t.fields → Event
  | playerRegistered, (p, ()) => .playerRegistered p
  | playerUpdated, (p, ()) => .playerUpdated p
  | playerServerConnect, (p, old, new, ()) => .playerServerConnect p old new
  | playerServerConnected, (p, server, ()) => .playerServerConnected p server
  | playerUnregistered, (p, ()) => .playerUnregistered p
  | groupCreated, (g, ()) => .groupCreated g
  | groupUpdated, (g, ()) => .groupUpdated g
  | groupDeleted, (g, ()) => .groupDeleted g
  | templateCreated, (t, ()) => .templateCreated t
  | templateUpdated, (t, ()) => .templateUpdated t
  | templateDeleted, (t, ()) => .templateDeleted t
  | wrapperRegistered, (w, ()) => .wrapperRegistered w
  | wrapperUpdated, (w, ()) => .wrapperUpdated w
  | wrapperUnregistered, (w, ()) => .wrapperUnregistered w
  | serviceRegistered, (s, ()) => .serviceRegistered s
  | serviceUpdated, (s, ()) => .serviceUpdated s
  | serviceStateChanged, (s, old, new, ()) => .serviceStateChanged s old new
  | serviceConnected, (s, ()) => .serviceConnected s
  | serviceUnregistered, (s, ()) => .serviceUnregistered s

end Tag

/-- The tag of an event together with its data. -/
def parts : Event → (t : Tag) × Row t.fields
  | playerRegistered p => ⟨.playerRegistered, (p, ())⟩
  | playerUpdated p => ⟨.playerUpdated, (p, ())⟩
  | playerServerConnect p old new => ⟨.playerServerConnect, (p, old, new, ())⟩
  | playerServerConnected p server => ⟨.playerServerConnected, (p, server, ())⟩
  | playerUnregistered p => ⟨.playerUnregistered, (p, ())⟩
  | groupCreated g => ⟨.groupCreated, (g, ())⟩
  | groupUpdated g => ⟨.groupUpdated, (g, ())⟩
  | groupDeleted g => ⟨.groupDeleted, (g, ())⟩
  | templateCreated t => ⟨.templateCreated, (t, ())⟩
  | templateUpdated t => ⟨.templateUpdated, (t, ())⟩
  | templateDeleted t => ⟨.templateDeleted, (t, ())⟩
  | wrapperRegistered w => ⟨.wrapperRegistered, (w, ())⟩
  | wrapperUpdated w => ⟨.wrapperUpdated, (w, ())⟩
  | wrapperUnregistered w => ⟨.wrapperUnregistered, (w, ())⟩
  | serviceRegistered s => ⟨.serviceRegistered, (s, ())⟩
  | serviceUpdated s => ⟨.serviceUpdated, (s, ())⟩
  | serviceStateChanged s old new => ⟨.serviceStateChanged, (s, old, new, ())⟩
  | serviceConnected s => ⟨.serviceConnected, (s, ())⟩
  | serviceUnregistered s => ⟨.serviceUnregistered, (s, ())⟩

/-- The written form: the tag, then the data. -/
def write (e : Event) : Json :=
  let ⟨t, row⟩ := e.parts
  .map [("event", .text t.text), ("data", .map (Row.write t.fields row))]

/-! ## Reading -/

/-- The tags as alternatives without payload. -/
def tagVariants : List (Codec.Variant Tag) := Tag.all.map fun t => .unit t.text t

/-- Reads the tag of an event that is written as an object: any form of a choice will do. -/
def readTag (d : Draft) : Except Fault Tag := Codec.readChoice tagVariants d

/-- Reads the tag of an event that is written as an array: only the bare name will do. -/
def readTagName (d : Draft) : Except Fault Tag := Codec.readName tagVariants d

/-- Reads the data of an event with a known tag, which must be an object. -/
def readData (medium : Medium) (t : Tag) (d : Draft) : Except Fault Event :=
  ((Row.readMap? medium t.fields d).getD
    (.error (d.mismatch ("struct variant CloudEvent::" ++ t.text)))).map t.make

/-- What has been read of an event. -/
inductive Progress where
  | nothing
  | tagged (tag : Tag)
  /-- The data came first and were set aside. -/
  | stored (data : Json)
  | complete (event : Event)

/-- How many containers may be inside each other in data that are set aside. -/
def dataDepth : Nat := Json.depthLimit - 1

namespace Progress

/-- A second tag or second data are a fault. -/
def checkKey (p : Progress) (key : String) : Except Fault Unit :=
  match p, key with
  | tagged _, "event" | complete _, "event" => .error (.duplicateField "event")
  | stored _, "data" | complete _, "data" => .error (.duplicateField "data")
  | _, _ => .ok ()

/-- Takes the value of a key that has been checked. -/
def take (p : Progress) (key : String) (d : Draft) : Except Fault Progress :=
  match key, p with
  | "event", stored data => do return complete (← readData .buffer (← readTag d) data.draft)
  | "event", _ => do return tagged (← readTag d)
  | "data", tagged tag => do return complete (← readData .text tag d)
  | "data", _ => do return stored (← d.value dataDepth)
  | _, _ => do d.skip; return p

/-- Takes the members of an object one after another. -/
def takeAll : Progress → List (Key × Draft) → Except Fault Progress
  | p, [] => .ok p
  | p, (key, d) :: members => do
    let name ← key.wanted
    p.checkKey name
    takeAll (← p.take name d) members

/-- The event, once all members have been taken. -/
def finish : Progress → Except Fault Event
  | complete e => .ok e
  | tagged _ => .error (.missingField "data")
  | nothing | stored _ => .error (.missingField "event")

end Progress

/-- What a reader of an event wants. -/
def wanted : String := "adjacently tagged enum CloudEvent"

/-- Reads an event from an object, or from an array of its tag and its data. -/
def read (d : Draft) : Except Fault Event :=
  match d with
  | .map members => do (← Progress.nothing.takeAll members).finish
  | .openMap members ending => do
    let p ← Progress.nothing.takeAll members
    ending.wantMap
    p.finish
  | .strayKey members _ key => do
    let _ ← Progress.nothing.takeAll members
    .error key.strayKeyFault
  | .noColon members key atEnd => do
    let p ← Progress.nothing.takeAll members
    p.checkKey (← key.wanted)
    .error (if atEnd then .endInMap else .colonExpected)
  | .list [] ending => do
    ending.wantList
    .error (.wrongLength 0 wanted)
  | .list [tag] ending => do
    let _ ← readTagName tag
    ending.wantList
    .error (.wrongLength 1 wanted)
  | .list (tag :: data :: rest) ending => do
    let e ← readData .text (← readTagName tag) data
    let () ← Row.readItems .text "" 2 ending [] 2 rest
    return e
  | d => .error (d.mismatch wanted)

/-- How events are written. -/
def codec : Codec Event where
  write := write
  read _ := read

end Event

end CloudRoster
