import CloudRoster.Json.Record
import CloudRoster.Text.AsciiCase

/-!
# The configuration of synchronisation

What a node is, how long it waits for its peers, and how many events it keeps for a slow listener.
-/

namespace CloudRoster

open Json (Codec Record)

/-- What a node does in the cloud. -/
inductive Role where
  /-- It holds the stores and decides. -/
  | manager
  | wrapper
  | service
  deriving Repr, DecidableEq

namespace Role

/-- The written name of a role. -/
def name : Role → String
  | manager => "manager"
  | wrapper => "wrapper"
  | service => "service"

/-- All roles. -/
def all : List Role := [manager, wrapper, service]

/-- Roles are written as their names. -/
def codec : Codec Role := .enumeration (all.map fun r => (r.name, r)) name

/-- The role that a word stands for, whatever the case of its letters, or the word that stands for
none, in lowercase. -/
def ofWord (word : String) : Except String Role :=
  let word := Text.asciiLower word
  match all.find? (·.name = word) with
  | some r => .ok r
  | none => .error word

/-- What is said of a word that stands for no role. -/
def unknownMessage (word : String) : String := "unknown role: " ++ word

end Role

/-- The configuration of synchronisation. -/
structure SyncConfig where
  nodeName : String
  role : Role
  /-- How long a round of messages to the peers may take, in milliseconds. -/
  broadcastTimeoutMs : UInt64
  /-- How long a peer may take to answer, in milliseconds. -/
  requestTimeoutMs : UInt64
  /-- How many events are kept for a listener that is behind. -/
  eventCapacity : UInt64
  deriving Repr, DecidableEq

namespace SyncConfig

/-- The number of events that are kept unless configured otherwise. -/
def defaultEventCapacity : UInt64 := 1024

/-- The configuration of a node that nothing is said about. -/
def standard : SyncConfig := ⟨"Manager", .manager, 5000, 3000, defaultEventCapacity⟩

/-- The fields of the configuration; each has a default. -/
def record : Record SyncConfig where
  title := "SyncConfig"
  fields := [
    .defaulted "node_name" .text standard.nodeName, .defaulted "role" Role.codec standard.role,
    .defaulted "broadcast_timeout_ms" (.uint64 "u64") standard.broadcastTimeoutMs,
    .defaulted "request_timeout_ms" (.uint64 "u64") standard.requestTimeoutMs,
    .defaulted "event_channel_capacity" (.uint64 "usize") standard.eventCapacity]
  toRow c := (c.nodeName, c.role, c.broadcastTimeoutMs, c.requestTimeoutMs, c.eventCapacity, ())
  ofRow := fun (name, role, broadcast, request, capacity, ()) =>
    ⟨name, role, broadcast, request, capacity⟩
  ofRow_toRow _ := rfl
  toRow_ofRow _ := rfl

/-- How configurations are written. -/
def codec : Codec SyncConfig := record.codec

end SyncConfig

end CloudRoster
