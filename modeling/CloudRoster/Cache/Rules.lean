import CloudRoster.Cache.Entries
import CloudRoster.Cloud.Kind
import CloudRoster.Sync.Message

/-!
# The rules of a list

What a list has to know of its values: how they are told apart, which events tell of a change, how
a value that is new gets into the list, and how values are written for the peers. Each kind of
value comes with its rules.
-/

namespace CloudRoster.Cache

/-- The rules of a list of values `V` that are told apart by keys `K`. -/
structure Rules (K V : Type) where
  /-- The name of the list. -/
  listName : String
  /-- The name of the type of its values in messages. -/
  typeName : String
  /-- The key of a value. -/
  identify : V → K
  /-- The events of a value that replaces a copy, or is new. -/
  updateEvents : V → Option V → List Event
  /-- The events of a value that is removed. -/
  removalEvents : V → List Event
  /-- Puts a value that is new among the others. -/
  insert : Entries K V → K → V → Entries K V
  /-- The JSON text of a value, or why it has none. -/
  encode : V → Except String String

/-! ## The events of each kind -/

/-- The events of a player: a change, and on top of it the way to another server and the arrival
there. -/
def playerEvents (update : Player) : Option Player → List Event
  | none => [.playerRegistered update]
  | some cached =>
    [.playerUpdated update] ++
      match update.serverName with
      | none => []
      | some server =>
        (if cached.serverName = some server then []
          else [.playerServerConnect update cached.serverName server]) ++
        (if cached.connectState = .connecting ∧ update.connectState = .connected then
          [.playerServerConnected update server]
          else [])

/-- The events of a group. -/
def groupEvents (update : Group) : Option Group → List Event
  | none => [.groupCreated update]
  | some _ => [.groupUpdated update]

/-- The events of a template. -/
def templateEvents (update : Template) : Option Template → List Event
  | none => [.templateCreated update]
  | some _ => [.templateUpdated update]

/-- The events of a wrapper. -/
def wrapperEvents (update : Wrapper) : Option Wrapper → List Event
  | none => [.wrapperRegistered update]
  | some _ => [.wrapperUpdated update]

/-- The events of a service: a change, and on top of it another state and the authentication. -/
def serviceEvents (update : Service) : Option Service → List Event
  | none => [.serviceRegistered update]
  | some cached =>
    [.serviceUpdated update] ++
      (if cached.state = update.state then []
        else [.serviceStateChanged update cached.state update.state]) ++
      (if !cached.authenticated && update.authenticated then [.serviceConnected update] else [])

/-- The events of a value that replaces a copy, or is new. -/
def eventsOfUpdate : (k : Kind) → k.Val → Option k.Val → List Event
  | .player => playerEvents
  | .group => groupEvents
  | .template => templateEvents
  | .wrapper => wrapperEvents
  | .service => serviceEvents

/-- The events of a value that is removed. -/
def eventsOfRemoval : (k : Kind) → k.Val → List Event
  | .player, p => [.playerUnregistered p]
  | .group, g => [.groupDeleted g]
  | .template, t => [.templateDeleted t]
  | .wrapper, w => [.wrapperUnregistered w]
  | .service, s => [.serviceUnregistered s]

/-- The rules of a kind: new values go to the end, and every value can be written. -/
def Rules.ofKind (k : Kind) : Rules k.Key k.Val where
  listName := k.listName
  typeName := k.typeName
  identify := k.key
  updateEvents := eventsOfUpdate k
  removalEvents := eventsOfRemoval k
  insert := Entries.push
  encode v := .ok (k.codec.encode v)

/-- The message that tells peers of a value. -/
def Rules.message {K V : Type} (rules : Rules K V) (v : V) (action : Action) :
    Except SyncError CacheUpdate :=
  match rules.encode v with
  | .ok json => .ok ⟨rules.listName, rules.typeName, json, action⟩
  | .error reason => .error (.serialization reason)

/-- The messages that tell a peer of all values. -/
def Rules.snapshot {K V : Type} (rules : Rules K V) (entries : Entries K V) :
    Except SyncError (List CacheUpdate) :=
  entries.mapM fun (_, v) => rules.message v .update

end CloudRoster.Cache
