import CloudRoster.Net.SocketAddr
import CloudRoster.Sync.Error

/-!
# The transport of a node

By what a node listens and connects to others, as far as it can be known without a network: whether
there is a handler for the messages that arrive, where the node listens, and why a connection does
not come about. What goes over a connection that has come about is said where frames, requests and
messages are.
-/

namespace CloudRoster.Net

/-- What the system says when there is no way to a host. -/
def unreachableText : String := "Network is unreachable (os error 101)"

/-- The machine a node runs on. -/
structure Host where
  /-- The address that a listener gets; none if it cannot have the one it asks for. -/
  bind : SocketAddr → Option SocketAddr
  /-- Why an address cannot be connected to. -/
  refusal : SocketAddr → String

namespace Host

/-- Whether an address belongs to every machine. -/
def isOwn : SocketAddr → Bool
  | .v4 (127 :: _) _ | .v4 [0, 0, 0, 0] _ => true
  | .v6 gs _ _ => gs = [0, 0, 0, 0, 0, 0, 0, 0] || gs = [0, 0, 0, 0, 0, 0, 0, 1]
  | _ => false

/-- A machine without a network. -/
def alone : Host where
  bind a := if isOwn a then some a else none
  refusal _ := unreachableText

end Host

/-- The transport of a node. -/
structure Transport where
  nodeName : String
  /-- Whether there is a handler for the messages that arrive. -/
  attached : Bool
  /-- Where the node listens, by its first listener. -/
  localAddr : Option SocketAddr
  deriving Repr, DecidableEq

namespace Transport

/-- The transport of a node that does not listen yet. -/
def new (nodeName : String) : Transport := ⟨nodeName, false, none⟩

/-- Attaches the handler for the messages that arrive, once. -/
def attach (t : Transport) : Except SyncError Transport :=
  if t.attached then .error (.protocol "packet handler already attached")
  else .ok { t with attached := true }

/-- The transport with a listener at an address. -/
def listenAt (t : Transport) (bound : SocketAddr) : Transport :=
  { t with localAddr := t.localAddr <|> some bound }

/-- Why a node gets no connection to an address that the system cannot reach. -/
def refuse (t : Transport) (addr : String) (refusal : String) : SyncError :=
  if t.attached then .network ("connect to " ++ addr ++ ": " ++ refusal)
  else .protocol "no packet handler attached"

end Transport

end CloudRoster.Net
