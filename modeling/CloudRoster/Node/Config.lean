import CloudRoster.Net.SocketAddr
import CloudRoster.Sync.Config
import CloudRoster.Toml.Document

/-!
# The configuration of a node

What a node is told about itself, where it listens, whom it connects to and where it keeps its
stores. It is read from a configuration text in which everything has a default, and the command line
goes before it.
-/

namespace CloudRoster

open Net (SocketAddr)

/-- The configuration of a node. -/
structure NodeConfig where
  sync : SyncConfig
  /-- Where the node accepts peers. -/
  listen : Option SocketAddr
  /-- The nodes it connects to when it starts. -/
  peers : List SocketAddr
  /-- The directory of its stores. -/
  dataDir : Option String
  deriving Repr, DecidableEq

/-- Why there is no configuration. -/
inductive ConfigError where
  /-- The text is no configuration. -/
  | malformed
  /-- The text of a file is no configuration. -/
  | malformedFile (path : String)
  | unreadable (path : String)
  deriving Repr, DecidableEq

namespace ConfigError

/-- The wording of an error. -/
def message : ConfigError → String
  | malformed => "invalid node config"
  | malformedFile path => "in " ++ path
  | unreadable path => "failed to read " ++ path

end ConfigError

/-! ## Reading -/

/-- What a configuration text gives for a field: a value of the wrong type is refused, and what is
not given has a default. -/
def Toml.field {α : Type} (read : Toml.Value → Option α) (default : α) :
    Option Toml.Value → Option α
  | none => some default
  | some v => read v

/-- A text. -/
def Toml.Value.asText : Toml.Value → Option String
  | .text s => some s
  | _ => none

/-- A natural number. -/
def Toml.Value.asUInt64 : Toml.Value → Option UInt64
  | .integer n => if 0 ≤ n then some (.ofNat n.toNat) else none
  | _ => none

/-- The address that a text names. -/
def Toml.Value.asAddr : Toml.Value → Option SocketAddr
  | .text s => SocketAddr.ofText? s
  | _ => none

/-- The role of a name. -/
def Role.ofName? (name : String) : Option Role := Role.all.find? (·.name = name)

/-- A role: its name, or a table that holds nothing under its name. -/
def Role.ofToml : Toml.Value → Option Role
  | .text s => ofName? s
  | .table [(name, .table [])] | .table [(name, .list [])] => ofName? name
  | _ => none

namespace SyncConfig

/-- The configuration with the fields that are given. -/
def ofFields (given : Nat → String → Option Toml.Value) : Option SyncConfig := do
  return {
    nodeName := ← Toml.field (·.asText) standard.nodeName (given 0 "node_name")
    role := ← Toml.field Role.ofToml standard.role (given 1 "role")
    broadcastTimeoutMs :=
      ← Toml.field (·.asUInt64) standard.broadcastTimeoutMs (given 2 "broadcast_timeout_ms")
    requestTimeoutMs :=
      ← Toml.field (·.asUInt64) standard.requestTimeoutMs (given 3 "request_timeout_ms")
    eventCapacity :=
      ← Toml.field (·.asUInt64) standard.eventCapacity (given 4 "event_channel_capacity") }

/-- The configuration that a value describes: a table of the fields, or a list of them in order. A
point in time is taken for a table without any field. -/
def ofToml : Toml.Value → Option SyncConfig
  | .table ms => ofFields fun _ name => Toml.find? ms name
  | .list vs => ofFields fun i _ => vs[i]?
  | .time _ => some standard
  | _ => none

end SyncConfig

namespace NodeConfig

/-- The configuration of a node that nothing is said about. -/
def standard : NodeConfig := ⟨.standard, none, [], none⟩

/-- The configuration that a table describes. -/
def ofTable (ms : List (String × Toml.Value)) : Option NodeConfig := do
  return {
    sync := ← Toml.field SyncConfig.ofToml .standard (Toml.find? ms "sync")
    listen := ← Toml.field (·.asAddr.map some) none (Toml.find? ms "listen")
    peers := ← Toml.field (fun
      | .list vs => vs.mapM (·.asAddr)
      | _ => none) [] (Toml.find? ms "peers")
    dataDir := ← Toml.field (·.asText.map some) none (Toml.find? ms "data_dir") }

/-- The configuration that a text describes. -/
def ofText (s : String) : Except ConfigError NodeConfig :=
  match (Toml.ofText? s).bind ofTable with
  | some c => .ok c
  | none => .error .malformed

/-- The configuration in a file, of which the text is given if it can be read. -/
def load (path : String) (text : Option String) : Except ConfigError NodeConfig :=
  match text with
  | none => .error (.unreadable path)
  | some s => (ofText s).mapError fun _ => .malformedFile path

/-! ## Writing -/

/-- The configuration as a JSON value. -/
def toJson (c : NodeConfig) : Json :=
  let optional : Option String → Json
    | some s => .text s
    | none => .null
  .map [("sync", SyncConfig.codec.write c.sync), ("listen", optional (c.listen.map (·.text))),
    ("peers", .list (c.peers.map fun a => .text a.text)), ("data_dir", optional c.dataDir)]

end NodeConfig

/-! ## The command line -/

/-- What the command line says about a node. -/
structure Overrides where
  nodeName : Option String
  role : Option Role
  listen : Option SocketAddr
  peers : List SocketAddr
  dataDir : Option String
  deriving Repr, DecidableEq

namespace NodeConfig

/-- The peers with one more, unless it is there already. -/
def addPeer (peers : List SocketAddr) (a : SocketAddr) : List SocketAddr :=
  if peers.contains a then peers else peers ++ [a]

/-- The configuration with what the command line says. Its peers come on top of the others. -/
def apply (c : NodeConfig) (o : Overrides) : NodeConfig where
  sync := { c.sync with
    nodeName := o.nodeName.getD c.sync.nodeName
    role := o.role.getD c.sync.role }
  listen := o.listen <|> c.listen
  peers := o.peers.foldl addPeer c.peers
  dataDir := o.dataDir <|> c.dataDir

end NodeConfig

end CloudRoster
