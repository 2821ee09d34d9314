import CloudRoster.Json.Record
import CloudRoster.Sync.Error

/-!
# Messages between nodes

Every message is a request that one reply answers: a hello by its acknowledgement, a changed or
removed value by an acknowledgement or an error, a ping by a pong.
-/

namespace CloudRoster

open Json (Codec Record)

/-- The version of the messages. -/
def protocolVersion : UInt32 := 1

/-- The code of a node that speaks another version. -/
def versionMismatchCode : UInt32 := 1

/-- The code of an error that has no code of its own. -/
def internalErrorCode : UInt32 := 99

/-- What is done to a value. -/
inductive Action where
  | update
  | delete
  deriving Repr, DecidableEq

namespace Action

/-- The written name of an action. -/
def name : Action → String
  | update => "UPDATE"
  | delete => "DELETE"

/-- Actions are written as their names. -/
def codec : Codec Action := .enumeration [("UPDATE", update), ("DELETE", delete)] name

end Action

/-- The first message of a node that connects. -/
structure Hello where
  version : UInt32
  nodeName : String
  /-- The lists that the node holds. -/
  listNames : List String
  deriving Repr, DecidableEq

/-- The answer to a hello. -/
structure HelloAck where
  version : UInt32
  nodeName : String
  accepted : Bool
  /-- Why the node was not accepted. -/
  reason : Option String
  deriving Repr, DecidableEq

/-- A value that has changed or is to be removed. -/
structure CacheUpdate where
  listName : String
  valueType : String
  /-- The value as a JSON text. -/
  jsonData : String
  action : Action
  deriving Repr, DecidableEq

/-- The answer to a request that failed. -/
structure ErrorReply where
  code : UInt32
  message : String
  deriving Repr, DecidableEq

/-- A message between nodes. -/
inductive Message where
  | hello (hello : Hello)
  | helloAck (ack : HelloAck)
  | cacheUpdate (update : CacheUpdate)
  | ack
  | ping (n : UInt64)
  | pong (n : UInt64)
  | error (reply : ErrorReply)
  deriving Repr, DecidableEq

namespace Hello

/-- The hello of a node that holds lists of these names. -/
def new (nodeName : String) (listNames : List String) : Hello :=
  ⟨protocolVersion, nodeName, listNames⟩

/-- The fields of a hello. -/
def record : Record Hello where
  title := "HelloMessage"
  fields := [.required "version" .uint32, .required "node_name" .text,
    .defaulted "list_names" (.list .text) []]
  toRow h := (h.version, h.nodeName, h.listNames, ())
  ofRow := fun (version, node, lists, ()) => ⟨version, node, lists⟩
  ofRow_toRow _ := rfl
  toRow_ofRow _ := rfl

/-- How hellos are written. -/
def codec : Codec Hello := record.codec

end Hello

namespace HelloAck

/-- The answer that accepts a node. -/
def accept (nodeName : String) : HelloAck := ⟨protocolVersion, nodeName, true, none⟩

/-- The answer that refuses a node. -/
def reject (nodeName reason : String) : HelloAck := ⟨protocolVersion, nodeName, false, some reason⟩

/-- The fields of an answer to a hello. -/
def record : Record HelloAck where
  title := "HelloAckMessage"
  fields := [.required "version" .uint32, .required "node_name" .text,
    .required "accepted" .boolean, .optional "reason" .text]
  toRow h := (h.version, h.nodeName, h.accepted, h.reason, ())
  ofRow := fun (version, node, accepted, reason, ()) => ⟨version, node, accepted, reason⟩
  ofRow_toRow _ := rfl
  toRow_ofRow _ := rfl

/-- How answers to hellos are written. -/
def codec : Codec HelloAck := record.codec

end HelloAck

namespace CacheUpdate

/-- The fields of a change. -/
def record : Record CacheUpdate where
  title := "CacheUpdateMessage"
  fields := [.required "list_name" .text, .required "value_type" .text,
    .required "json_data" .text, .required "action" Action.codec]
  toRow u := (u.listName, u.valueType, u.jsonData, u.action, ())
  ofRow := fun (list, type, json, action, ()) => ⟨list, type, json, action⟩
  ofRow_toRow _ := rfl
  toRow_ofRow _ := rfl

/-- How changes are written. -/
def codec : Codec CacheUpdate := record.codec

end CacheUpdate

namespace ErrorReply

/-- The reply that tells a peer of an error. -/
def ofError (e : SyncError) : ErrorReply := ⟨e.code, e.message⟩

/-- The reply to a node of another version. -/
def versionMismatch (expected got : UInt32) : ErrorReply :=
  ⟨versionMismatchCode, "protocol version mismatch: expected " ++ toString expected.toNat ++
    ", got " ++ toString got.toNat⟩

/-- The reply for a cause without a code of its own. -/
def internal (message : String) : ErrorReply := ⟨internalErrorCode, message⟩

/-- The fields of an error. -/
def record : Record ErrorReply where
  title := "ErrorMessage"
  fields := [.required "code" .uint32, .required "message" .text]
  toRow e := (e.code, e.message, ())
  ofRow := fun (code, message, ()) => ⟨code, message⟩
  ofRow_toRow _ := rfl
  toRow_ofRow _ := rfl

/-- How errors are written. -/
def codec : Codec ErrorReply := record.codec

end ErrorReply

namespace Message

/-- The written form: a bare name, or an object with the name as its only key. -/
def write : Message → Json
  | hello h => .map [("Hello", Hello.codec.write h)]
  | helloAck h => .map [("HelloAck", HelloAck.codec.write h)]
  | cacheUpdate u => .map [("CacheUpdate", CacheUpdate.codec.write u)]
  | ack => .text "Ack"
  | ping n => .map [("Ping", .nat n.toNat)]
  | pong n => .map [("Pong", .nat n.toNat)]
  | error e => .map [("Error", ErrorReply.codec.write e)]

/-- How messages are written. -/
def codec : Codec Message :=
  .choice [
    .newtype "Hello" Hello.codec hello, .newtype "HelloAck" HelloAck.codec helloAck,
    .newtype "CacheUpdate" CacheUpdate.codec cacheUpdate, .unit "Ack" ack,
    .newtype "Ping" (.uint64 "u64") ping, .newtype "Pong" (.uint64 "u64") pong,
    .newtype "Error" ErrorReply.codec error] write

/-- Whether a message as a reply tells of success. -/
def isSuccess : Message → Bool
  | error _ => false
  | _ => true

end Message

end CloudRoster
