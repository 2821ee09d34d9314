import CloudRoster.Json.Place
import CloudRoster.Net.Transport
import CloudRoster.Node.Basic
import CloudRoster.Node.Config
import CloudRoster.Node.Log
import CloudRoster.Storage.FileTree

/-!
# The start of a node

A manager with a data directory opens its stores, groups before templates, and reads what they hold.
Then the node is put together, its lists are filled with the stored values, templates before groups,
it begins to listen, and it connects to its peers. A store that cannot be opened or read, or an
address that it cannot listen at, keeps it from starting; a peer that cannot be reached does not.
-/

namespace CloudRoster

open Net (Host SocketAddr Transport)
open Storage (Directory FileTree Store)

/-- Why a node did not start. -/
inductive StartError where
  | groupStore
  | templateStore
  /-- A store cannot be read. -/
  | stored (e : SyncError)
  | listen (addr : SocketAddr)
  deriving DecidableEq

namespace StartError

/-- The wording of an error. -/
def message : StartError → String
  | groupStore => "failed to open group store"
  | templateStore => "failed to open template store"
  | stored e => e.message
  | listen addr => "failed to listen on " ++ addr.text

end StartError

/-- A node that has started. -/
structure Started where
  node : Node
  transport : Transport

/-- The directories of the stores of a node. -/
structure StoreDirectories where
  groups : Directory
  templates : Directory

/-! ## What is said about it -/

namespace LogLine

/-- A line of the program around the node. -/
def ofProgram (severity : Severity) (text : String) : LogLine :=
  ⟨severity, "simplecloud_node", text⟩

/-- A line of a part of the synchronisation. -/
def ofSync (severity : Severity) (part text : String) : LogLine :=
  ⟨severity, "simplecloud_sync::" ++ part, text⟩

/-- The lines about the reading of a store. -/
def loaded {k : Kind} (d : Directory) (l : Directory.Loaded k) : List LogLine :=
  (l.skipped.map fun u => ofSync .warn "persistence" ("Skipping unreadable " ++ d.path ++ "/" ++
    u.name ++ ": " ++ u.fault.message ++ " at " ++ (k.codec.placeOf u.text u.fault).text)) ++
  [ofSync .debug "persistence"
    ("Loaded " ++ toString l.values.length ++ " value(s) from " ++ d.path)]

/-- The lines about a node that is put together. -/
def assembled (c : SyncConfig) : List LogLine :=
  (Kind.all.map fun k => ofSync .debug "registry"
    ("Registered cache list " ++ k.listName ++ " (" ++ k.typeName ++ ")")) ++
  [ofSync .info "context" ("Cloud context ready for " ++ c.nodeName ++ " (" ++ c.role.name ++
    ") with " ++ toString Kind.all.length ++ " list(s)")]

/-- The lines about a stored value that a node puts into its list: what becomes of the list, the
events, and a round among no peers. -/
def restoring (n : Node) (v : Value) : List LogLine :=
  let list := v.1.listName
  let key := v.1.keyText (v.1.key v.2)
  let cached := n.cached v.1 v.2
  [ofSync .trace "cache_list"
    (if cached.isSome then "Replaced " ++ key ++ " in " ++ list
      else "Added " ++ key ++ " to " ++ list)] ++
  (((Cache.Rules.ofKind v.1).updateEvents v.2 cached).map fun e => ofSync .trace "events"
    ("Publishing " ++ e.name ++ " from " ++ list ++ " (from_packet=false)")) ++
  [ofSync .trace "cache_list" ("Broadcast Update for " ++ list ++ " reached 0/0 peer(s)")]

/-- The line about stored values, if there are any. -/
def restored (count : Nat) : List LogLine :=
  if count = 0 then []
  else [ofProgram .info ("Restored " ++ toString count ++ " stored object(s)")]

end LogLine

/-! ## Stores -/

/-- The directory of a name in another one. -/
def Storage.joinPath (directory name : String) : String :=
  if directory = "" || directory.endsWith "/" then directory ++ name else directory ++ "/" ++ name

namespace NodeConfig

/-- Where the node keeps stores: only a manager does. -/
def storeRoot? (c : NodeConfig) : Option String :=
  match c.sync.role with
  | .manager => c.dataDir
  | _ => none

/-- Opens the stores under a directory, groups before templates. -/
def openStores (files : FileTree) (root : String) : FileTree × Except StartError StoreDirectories :=
  match files.openDirectory (Storage.joinPath root "groups") with
  | (files, none) => (files, .error .groupStore)
  | (files, some groups) =>
    match files.openDirectory (Storage.joinPath root "templates") with
    | (files, none) => (files, .error .templateStore)
    | (files, some templates) => (files, .ok ⟨groups, templates⟩)

end NodeConfig

namespace StoreDirectories

/-- What the stores hold, groups read before templates. -/
def load (s : StoreDirectories) : List LogLine × Except StartError (List Group × List Template) :=
  match s.groups.load .group with
  | .error e => ([], .error (.stored e))
  | .ok groups =>
    match s.templates.load .template with
    | .error e => (LogLine.loaded s.groups groups, .error (.stored e))
    | .ok templates =>
      (LogLine.loaded s.groups groups ++ LogLine.loaded s.templates templates,
        .ok (groups.values, templates.values))

/-- What the stores hold, if there are any. -/
def loadAny : Option StoreDirectories →
    List LogLine × Except StartError (List Group × List Template)
  | none => ([], .ok ([], []))
  | some s => s.load

end StoreDirectories

/-! ## Nodes -/

namespace Node

/-- Puts a stored value into its list, before there are any peers. -/
def restore (n : Node) (v : Value) : Node :=
  match n.commit ⟨v.1, v.2, .update, false, false⟩ with
  | .error _ => n
  | .ok (n, outbox) => outbox.foldl (fun n u => n.hand (.cacheUpdate u)) n

/-- Puts stored values into their lists one after another, and says so. -/
def restoreAll (n : Node) : List Value → List LogLine × Node
  | [] => ([], n)
  | v :: vs =>
    let (log, restored) := restoreAll (n.restore v) vs
    (LogLine.restoring n v ++ log, restored)

/-- A node of a configuration, with the stores it keeps and the values they hold, templates before
groups. -/
def assemble (c : SyncConfig) (stores : Option StoreDirectories) (groups : List Group)
    (templates : List Template) : List LogLine × Node :=
  (Node.new c .none (stores.map fun s => .onDirectory s.groups)
    (stores.map fun s => .onDirectory s.templates)).restoreAll
      (templates.map (⟨.template, ·⟩) ++ groups.map (⟨.group, ·⟩))

/-- Begins to listen, if an address is given. -/
def beginListening (t : Transport) (host : Host) :
    Option SocketAddr → List LogLine × Except StartError Transport
  | none => ([], .ok t)
  | some addr =>
    match host.bind addr with
    | none => ([], .error (.listen addr))
    | some bound =>
      ([.ofSync .info "net::transport" (t.nodeName ++ " listening on " ++ bound.text)],
        .ok (t.listenAt bound))

/-- The line about a peer that cannot be reached. -/
def unreached (t : Transport) (host : Host) (peer : SocketAddr) : LogLine :=
  .ofProgram .warn ("Could not connect to " ++ peer.text ++ ": " ++
    (t.refuse peer.text (host.refusal peer)).message)

/-- Starts a node whose stores have been opened. -/
def startWith (c : NodeConfig) (host : Host) (stores : Option StoreDirectories) :
    List LogLine × Except StartError Started :=
  match StoreDirectories.loadAny stores with
  | (log, .error e) => (log, .error e)
  | (log, .ok (groups, templates)) =>
    let (restoring, node) := assemble c.sync stores groups templates
    let log := log ++ LogLine.assembled c.sync ++ restoring ++
      LogLine.restored (groups.length + templates.length)
    match beginListening ⟨c.sync.nodeName, true, none⟩ host c.listen with
    | (more, .error e) => (log ++ more, .error e)
    | (more, .ok transport) =>
      (log ++ more ++ c.peers.map (unreached transport host), .ok ⟨node, transport⟩)

/-- Starts a node on a machine with files. -/
def start (c : NodeConfig) (host : Host) (files : FileTree) :
    FileTree × List LogLine × Except StartError Started :=
  match c.storeRoot? with
  | none => (files, startWith c host none)
  | some root =>
    match NodeConfig.openStores files root with
    | (files, .error e) => (files, [], .error e)
    | (files, .ok stores) => (files, startWith c host (some stores))

end Node

end CloudRoster
