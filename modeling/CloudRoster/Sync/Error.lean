/-!
# What can go wrong on a node

The causes for which an operation is refused or fails, their wording, and the codes by which peers
are told.
-/

namespace CloudRoster

/-- Why an operation failed. -/
inductive SyncError where
  /-- A value cannot be written. -/
  | serialization (reason : String)
  | unknownList (name : String)
  | unknownType (name : String)
  /-- A payload is not a value of its type. -/
  | malformedPayload (valueType reason : String)
  /-- A value is not of the type of the list it is meant for. -/
  | typeMismatch (list expected got : String)
  | duplicateList (name : String)
  /-- A group still has services. -/
  | groupInUse (group : String) (services : Nat)
  /-- Not every peer took a message. -/
  | broadcast (delivered total : Nat) (reason : String)
  | persistence (reason : String)
  | network (reason : String)
  | protocol (reason : String)
  | io (reason : String)
  | timeout
  | channelClosed
  deriving Repr, DecidableEq

namespace SyncError

/-- The name of the cause. -/
def name : SyncError → String
  | serialization _ => "Serialization"
  | unknownList _ => "UnknownList"
  | unknownType _ => "UnknownType"
  | malformedPayload _ _ => "MalformedPayload"
  | typeMismatch _ _ _ => "TypeMismatch"
  | duplicateList _ => "DuplicateList"
  | groupInUse _ _ => "GroupInUse"
  | broadcast _ _ _ => "Broadcast"
  | persistence _ => "Persistence"
  | network _ => "Network"
  | protocol _ => "Protocol"
  | io _ => "Io"
  | timeout => "Timeout"
  | channelClosed => "ChannelClosed"

/-- The wording of an error. -/
def message : SyncError → String
  | serialization reason => "serialization error: " ++ reason
  | unknownList name => "unknown cache list: " ++ name
  | unknownType name => "unknown value type: " ++ name
  | malformedPayload valueType reason => "malformed payload for " ++ valueType ++ ": " ++ reason
  | typeMismatch list expected got =>
    "cache list " ++ list ++ " holds " ++ expected ++ ", got " ++ got
  | duplicateList name => "cache list already registered: " ++ name
  | groupInUse group services =>
    "cannot delete group " ++ group ++ " while " ++ toString services ++
      " service(s) are registered"
  | broadcast delivered total reason =>
    "broadcast reached " ++ toString delivered ++ "/" ++ toString total ++ " peer(s): " ++ reason
  | persistence reason => "persistence error: " ++ reason
  | network reason => "network error: " ++ reason
  | protocol reason => "protocol error: " ++ reason
  | io reason => "IO error: " ++ reason
  | timeout => "operation timed out"
  | channelClosed => "channel closed"

/-- The code by which a peer is told of an error. -/
def code : SyncError → UInt32
  | malformedPayload _ _ | serialization _ => 400
  | unknownType _ | unknownList _ => 404
  | timeout => 408
  | typeMismatch _ _ _ => 409
  | groupInUse _ _ => 423
  | duplicateList _ | broadcast _ _ _ | persistence _ | network _ | protocol _ | io _
  | channelClosed => 99

end SyncError

end CloudRoster
