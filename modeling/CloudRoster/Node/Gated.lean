import CloudRoster.Node.Traffic

/-!
# A node that is let go on

A node whose peer takes a message, and whose store an order, only with a permit. Permits are used up
in the order in which they are asked for. The operations on the node take turns: one that can go on
queues up, and at its turn goes on until it waits for a permit or for its site, or ends. This is one
way to choose the steps of operations at the same time, and the only one in which nothing is left
open.
-/

namespace CloudRoster

/-- Permits, and the operations that wait for one. -/
structure Gate where
  permits : Nat
  /-- In the order in which they asked. -/
  waiting : List Nat
  deriving Repr, DecidableEq

namespace Gate

/-- An operation asks for a permit, and gets it or waits. -/
def ask (g : Gate) (id : Nat) : Gate × Bool :=
  match g.permits with
  | 0 => ({ g with waiting := g.waiting ++ [id] }, false)
  | permits + 1 => ({ g with permits := permits }, true)

/-- Adds permits, and tells which operations get one. -/
def grant (g : Gate) (n : Nat) : Gate × List Nat :=
  (⟨g.permits + n - g.waiting.length, g.waiting.drop (g.permits + n)⟩,
    g.waiting.take (g.permits + n))

/-- An operation does not wait any more. -/
def withdraw (g : Gate) (id : Nat) : Gate := { g with waiting := g.waiting.erase id }

end Gate

/-- Why an operation has a turn. -/
inductive Turn where
  /-- It is new, or was handed its site. -/
  | ready
  /-- It has a permit for the peer. -/
  | sent
  /-- It has a permit for the store. -/
  | stored
  /-- The time of its round is up. -/
  | late
  deriving Repr, DecidableEq

/-- The step that an operation takes at its turn. -/
def Turn.step (id : Nat) : Turn → Step
  | ready => .poll id
  | sent => .answer id (.ok ⟨1, 1, []⟩)
  | stored => .persist id
  | late => .expire id

/-- A node whose peer and store wait for permits. -/
structure Gated where
  traffic : Traffic
  peer : Gate
  store : Gate
  /-- The messages that the peer took, oldest first. -/
  sent : List CacheUpdate

namespace Gated

/-- A node with permits for its peer and its store of groups. -/
def new (config : SyncConfig) (permits : Nat) (groupStore : Bool) (storePermits : Nat) : Gated where
  traffic := .new [.new config (.external 1 fun _ => ⟨0, .ok ⟨1, 1, []⟩⟩)
    (if groupStore then some .journalOnly else none) none]
  peer := ⟨permits, []⟩
  store := ⟨storePermits, []⟩
  sent := []

/-- Takes the step of a turn. A message that has its permit is sent. -/
def take (g : Gated) (id : Nat) (turn : Turn) : Gated :=
  let sent := match turn, g.traffic.phase? id with
    | .sent, some (.round _ r) => [r.message]
    | _, _ => []
  { g with
    traffic := g.traffic.step (turn.step id)
    peer := if turn = .late then g.peer.withdraw id else g.peer
    sent := g.sent ++ sent }

/-- The operation asks for the permits that it needs, and goes on as long as it gets them. -/
def goOn : Nat → Gated → Nat → Gated
  | 0, g, _ => g
  | fuel + 1, g, id =>
    match g.traffic.phase? id with
    | some (.round _ r) =>
      match g.peer.ask id with
      | (peer, true) => goOn fuel (take { g with peer := peer } id .sent) id
      | (peer, false) =>
        if r.deadline ≤ g.traffic.clock then goOn fuel (take { g with peer := peer } id .late) id
        else { g with peer := peer }
    | some (.storing _ _) =>
      match g.store.ask id with
      | (store, true) => goOn fuel (take { g with store := store } id .stored) id
      | (store, false) => { g with store := store }
    | _ => g

/-- A turn of an operation, until it waits or ends. -/
def play (g : Gated) (id : Nat) (turn : Turn) : Gated :=
  let g := g.take id turn
  goOn (((g.traffic.phase? id).map (·.waitsAhead)).getD 0 + 1) g id

/-- The operations that were handed their site and have no turn yet. -/
def newlyReady (g : Gated) (turns : List (Nat × Turn)) : List (Nat × Turn) :=
  let ids := (g.traffic.locks.handed.map (·.operation)).filter fun id =>
    !turns.any (·.1 = id)
  ids.map (·, .ready)

/-- Plays turns in order; an operation that becomes ready gets its turn after the others. -/
def playAll : Nat → Gated → List (Nat × Turn) → Gated
  | 0, g, _ => g
  | _ + 1, g, [] => g
  | fuel + 1, g, (id, turn) :: turns =>
    let g := g.play id turn
    playAll fuel g (turns ++ g.newlyReady turns)

/-- Plays turns until every operation waits. An operation becomes ready at most once. -/
def settle (g : Gated) (turns : List (Nat × Turn)) : Gated :=
  playAll (turns.length + g.traffic.operations.length) g turns

/-- Starts an operation. -/
def start (g : Gated) (task : Task) : Gated :=
  settle { g with traffic := g.traffic.step (.start 0 task) }
    [(g.traffic.operations.length, .ready)]

/-- Gives permits for the peer. -/
def permit (g : Gated) (n : Nat) : Gated :=
  let (peer, ids) := g.peer.grant n
  settle { g with peer := peer } (ids.map (·, .sent))

/-- Gives permits for the store. -/
def permitStore (g : Gated) (n : Nat) : Gated :=
  let (store, ids) := g.store.grant n
  settle { g with store := store } (ids.map (·, .stored))

/-- Whether the time of the round of an operation is up. -/
def isLate (t : Traffic) (id : Nat) : Bool :=
  match t.phase? id with
  | some (.round _ r) => r.deadline ≤ t.clock
  | _ => false

/-- Lets time pass. -/
def advance (g : Gated) (ms : Nat) : Gated :=
  let t := g.traffic.step (.tick ms)
  settle { g with traffic := t } ((g.peer.waiting.filter (isLate t)).map (·, .late))

/-- Abandons an operation. -/
def abort (g : Gated) (id : Nat) : Gated :=
  let g := { g with
    traffic := g.traffic.step (.abandon id)
    peer := g.peer.withdraw id
    store := g.store.withdraw id }
  g.settle (g.newlyReady [])

/-- The operations that are not over, in the order in which they were started. -/
def running (g : Gated) : List Nat :=
  (List.range g.traffic.operations.length).filter fun id =>
    (g.traffic.phase? id).any (!·.isOver)

end Gated

end CloudRoster
