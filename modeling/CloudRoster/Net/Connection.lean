import CloudRoster.Net.Frame
import CloudRoster.Net.SocketAddr
import CloudRoster.Text.Quoted

/-!
# Requests on a connection

A connection has a queue of frames on their way to the peer, with room for a bounded number of them,
and knows which requests still wait for their reply. A request gets a number of its own, is
registered, waits for room in the queue, and then waits for its reply until its time is up; only the
wait for the reply is limited. A reply finds its request by the number.

The calls on a connection go on at the same time. A call goes on when it is polled; between two
polls anything else may happen. Room that becomes free is given to the call that has waited longest,
which still has to be polled to make use of it.

What a call does from one wait to the next is one step: `request` up to its wait for room, `push`
from the room up to the wait for the reply, `look` when it is woken. So are `complete`, `close` and
`takeFrame`, which wait for nothing. The program runs on several threads, on which another call, a
reply or a `close` may also fall inside such a stretch; those runs are left out, and `request` and
`look` say which they are.
-/

namespace CloudRoster.Net

/-- What has become of the reply to a request. -/
inductive Reply where
  /-- It may still come. -/
  | awaited
  | arrived (m : Message)
  /-- It will never come. -/
  | lost
  deriving DecidableEq

/-- What a call ended with. -/
inductive CallResult where
  | replied (m : Message)
  /-- A frame that no reply is awaited to is in the queue. -/
  | queued
  | failed (e : SyncError)
  deriving DecidableEq

/-- How far a call has got. -/
inductive CallPhase where
  /-- It waits for room in the queue. -/
  | waiting
  /-- It has been given room, and has not made use of it yet. -/
  | admitted
  /-- Its request is in the queue or beyond; its time is up at the deadline. -/
  | replying (deadline : Nat)
  | ended (r : CallResult)
  /-- It was abandoned before its end. -/
  | abandoned
  deriving DecidableEq

/-- A call on a connection. -/
structure Call where
  frame : Frame
  /-- For a request: how long it waits for its reply, in milliseconds. -/
  timeout : Option Nat
  reply : Reply
  phase : CallPhase
  deriving DecidableEq

namespace Call

/-- Whether nothing more comes of a call. -/
def isOver (c : Call) : Bool :=
  match c.phase with
  | .ended _ | .abandoned => true
  | _ => false

/-- What a call ended with. -/
def result? (c : Call) : Option CallResult :=
  match c.phase with
  | .ended r => some r
  | _ => none

end Call

/-- A connection to a peer. -/
structure Connection where
  id : UInt64
  addr : SocketAddr
  /-- The name of the peer, known after the handshake. -/
  nodeName : Option String
  connected : Bool
  /-- The number of frames that there is room for. -/
  capacity : Nat
  /-- The frames in the queue, oldest first. -/
  queue : List Frame
  /-- Whether frames are still taken off the queue. -/
  receiving : Bool
  /-- The requests that wait for a reply: the number of each, and its call. -/
  pending : List (UInt64 × Nat)
  /-- The number of the next request. -/
  nextNumber : UInt64
  /-- All calls ever made; a call is known by its place. -/
  calls : List Call
  /-- The milliseconds that have passed. -/
  clock : Nat

namespace Connection

/-- A new connection. -/
def new (id : UInt64) (addr : SocketAddr) (capacity : Nat) : Connection where
  id := id
  addr := addr
  nodeName := none
  connected := true
  capacity := capacity
  queue := []
  receiving := true
  pending := []
  nextNumber := 1
  calls := []
  clock := 0

/-- The name of the peer, or its address before the handshake. -/
def name (c : Connection) : String := c.nodeName.getD c.addr.text

/-- The connection after a handshake with a peer of a name. -/
def setName (c : Connection) (name : String) : Connection := { c with nodeName := some name }

/-- The connection in a diagnostic. -/
def describe (c : Connection) : String :=
  "PeerConnection \x7b id: " ++ toString c.id.toNat ++ ", addr: " ++ c.addr.text ++
    ", node_name: " ++ Text.quotedOption c.nodeName ++ ", pending: " ++
    toString c.pending.length ++ ", connected: " ++ (if c.connected then "true" else "false") ++
    " \x7d"

/-! ## Calls -/

/-- Changes a call. -/
def modify (c : Connection) (i : Nat) (f : Call → Call) : Connection :=
  { c with calls := c.calls.modify i f }

/-- Puts a call into another phase. -/
def enter (c : Connection) (i : Nat) (p : CallPhase) : Connection :=
  c.modify i fun call => { call with phase := p }

/-- Forgets that a request waits for a reply. -/
def forget (c : Connection) (number : UInt64) : Connection :=
  { c with pending := c.pending.filter (·.1 ≠ number) }

/-- Ends a call. A request that ended waits for no reply any more. -/
def finish (c : Connection) (i : Nat) (call : Call) (p : CallPhase) : Connection :=
  let c := c.enter i p
  if call.timeout.isSome then c.forget call.frame.id else c

/-- The number of calls that have been given room and have not made use of it yet. -/
def admittedCount (c : Connection) : Nat :=
  (c.calls.filter fun call => decide (call.phase = .admitted)).length

/-- Whether there is room in the queue. -/
def hasRoom (c : Connection) : Bool := decide (c.queue.length + c.admittedCount < c.capacity)

/-- Gives free room to the call that has waited longest. -/
def admitNext (c : Connection) : Connection :=
  match c.calls.findIdx? fun call => decide (call.phase = .waiting) with
  | none => c
  | some i => if c.hasRoom then c.enter i .admitted else c

/-- A request whose frame is in the queue looks for its reply; its time may be up.

The reply is looked for first, then the time, and a request that ends is forgotten with that, all in
one step. A reply that comes on another thread between the look and the deadline, or between the
deadline and the end of the entry in `pending`, is taken to come before the step or after it. -/
def look (c : Connection) (i : Nat) (call : Call) (deadline : Nat) : Connection :=
  match call.reply with
  | .arrived m => c.finish i call (.ended (.replied m))
  | .lost => c.finish i call (.ended (.failed .channelClosed))
  | .awaited =>
    if deadline ≤ c.clock then c.finish i call (.ended (.failed .timeout))
    else c.enter i (.replying deadline)

/-- Puts the frame of a call into the queue; a request then looks for its reply. -/
def push (c : Connection) (i : Nat) (call : Call) : Connection :=
  let c := { c with queue := c.queue ++ [call.frame] }
  match call.timeout with
  | none => c.finish i call (.ended .queued)
  | some ms => c.look i call (c.clock + ms)

/-- A call looks whether it can go on. -/
def poll (c : Connection) (i : Nat) : Connection :=
  match c.calls[i]? with
  | none => c
  | some call =>
    match call.phase with
    | .waiting =>
      if c.receiving then c else c.finish i call (.ended (.failed .channelClosed))
    | .admitted =>
      if c.receiving then c.push i call else c.finish i call (.ended (.failed .channelClosed))
    | .replying deadline => c.look i call deadline
    | .ended _ | .abandoned => c

/-- Makes a call. It puts its frame into the queue at once if there is room and no other call
waits. -/
def make (c : Connection) (call : Call) : Connection :=
  let free := c.hasRoom && !c.calls.any fun other => decide (other.phase = .waiting)
  let i := c.calls.length
  let phase : CallPhase := if free then .admitted else .waiting
  ({ c with calls := c.calls ++ [{ call with phase := phase }] }).poll i

/-- The request that held a number loses its reply. -/
def lose (c : Connection) (number : UInt64) : Connection :=
  match c.pending.find? (·.1 = number) with
  | none => c
  | some (_, i) => (c.modify i fun call => { call with reply := .lost }).forget number

/-- Asks the peer for something, and waits for the reply.

Nothing is awaited from the look at `connected` to the entry in `pending` and the first look for
room, so this is one step. A `close` on another thread may fall between the look and the entry,
after which the request is registered on a closed connection; such runs are left out. -/
def request (c : Connection) (m : Message) (timeout : Nat) : Connection :=
  if c.connected then
    let number := c.nextNumber
    let c := c.lose number
    make { c with
      pending := c.pending ++ [(number, c.calls.length)]
      nextNumber := number + 1 } ⟨⟨number, .request, m⟩, some timeout, .awaited, .waiting⟩
  else
    let refusal := SyncError.network (c.name ++ " is disconnected")
    { c with calls := c.calls ++ [⟨⟨0, .request, m⟩, none, .lost, .ended (.failed refusal)⟩] }

/-- Replies to a request of the peer. -/
def respond (c : Connection) (number : UInt64) (m : Message) : Connection :=
  c.make ⟨⟨number, .response, m⟩, none, .lost, .waiting⟩

/-! ## Events -/

/-- Hands a reply to the request that waits for it, and tells whether there is one. -/
def complete (c : Connection) (number : UInt64) (m : Message) : Connection × Bool :=
  match c.pending.find? (·.1 = number) with
  | none => (c, false)
  | some (_, i) =>
    ((c.modify i fun call => { call with reply := .arrived m }).forget number, true)

/-- Closes the connection: the requests that wait for a reply lose it. -/
def close (c : Connection) : Connection :=
  let lost := c.pending.foldl (fun c (number, _) => c.lose number) c
  { lost with connected := false }

/-- Takes a frame off the queue. -/
def takeFrame (c : Connection) : Connection × Option Frame :=
  match c.queue with
  | [] => (c, none)
  | f :: queue => (admitNext { c with queue := queue }, some f)

/-- Takes up to a number of frames off the queue, before any call goes on. -/
def takeFrames : Nat → Connection → Connection × List Frame
  | 0, c => (c, [])
  | n + 1, c =>
    match c.takeFrame with
    | (c, none) => (c, [])
    | (c, some f) =>
      let (c, fs) := takeFrames n c
      (c, f :: fs)

/-- Nothing is taken off the queue any more. -/
def stopReceiving (c : Connection) : Connection := { c with receiving := false, queue := [] }

/-- Abandons a call. Room that it was given goes to the next one. -/
def abandon (c : Connection) (i : Nat) : Connection :=
  match c.calls[i]? with
  | none => c
  | some call => if call.isOver then c else (c.finish i call .abandoned).admitNext

/-- Lets time pass. -/
def tick (c : Connection) (ms : Nat) : Connection := { c with clock := c.clock + ms }

/-- Every call goes on as far as it can. -/
def settle (c : Connection) : Connection := (List.range c.calls.length).foldl poll c

end Connection

end CloudRoster.Net
