import CloudRoster.Net.Connection
import Mathlib.Data.List.Induction
import Mathlib.Logic.Relation

/-!
# What happens on a connection

Calls are made, go on when they are polled and are abandoned; replies come in, frames are taken off
the queue, time passes, and the connection is closed: in any order, any number of times. A session
keeps, beside the connection, the frames that were ever put into the queue and the replies that were
ever handed to a request.

Of all that, the matching of requests and replies depends on the *books*: the calls, the requests
that wait for a reply, the next number, and what was queued and handed over. Every event comes down
to a few moves of the books, so what holds of the books at every time has to be checked for these.
-/

namespace CloudRoster.Net

open Relation (ReflTransGen)

/-- What can happen on a connection. -/
inductive ConnectionEvent where
  | request (m : Message) (timeout : Nat)
  | respond (number : UInt64) (m : Message)
  /-- A call looks whether it can go on. -/
  | poll (call : Nat)
  | abandon (call : Nat)
  /-- A reply to the request of a number has come. -/
  | complete (number : UInt64) (m : Message)
  | close
  | takeFrame
  | stopReceiving
  | setName (name : String)
  | tick (ms : Nat)
  deriving DecidableEq

/-- Whether an event is a request that is made. -/
def ConnectionEvent.isRequest : ConnectionEvent → Bool
  | .request _ _ => true
  | _ => false

namespace Connection

/-- The connection behind an event. -/
def follow (c : Connection) : ConnectionEvent → Connection
  | .request m timeout => c.request m timeout
  | .respond number m => c.respond number m
  | .poll i => c.poll i
  | .abandon i => c.abandon i
  | .complete number m => (c.complete number m).1
  | .close => c.close
  | .takeFrame => c.takeFrame.1
  | .stopReceiving => c.stopReceiving
  | .setName name => c.setName name
  | .tick ms => c.tick ms

end Connection

/-- A connection, and what has been seen of it. -/
structure Session where
  connection : Connection
  /-- The frames that were put into the queue, oldest first. -/
  queued : List Frame
  /-- The replies that a request took, with its number, oldest first. -/
  taken : List (UInt64 × Message)

namespace Session

/-- A connection that nothing has happened on. -/
def new (id : UInt64) (addr : SocketAddr) (capacity : Nat) : Session where
  connection := .new id addr capacity
  queued := []
  taken := []

/-- The session behind an event. What the queue has grown by was put into it. -/
def step (s : Session) (e : ConnectionEvent) : Session where
  connection := s.connection.follow e
  queued := s.queued ++ (s.connection.follow e).queue.drop s.connection.queue.length
  taken := match e with
    | .complete number m =>
      if (s.connection.complete number m).2 then s.taken ++ [(number, m)] else s.taken
    | _ => s.taken

/-- The session behind events, one after another. -/
def run (s : Session) (es : List ConnectionEvent) : Session := es.foldl step s

theorem run_append (s : Session) (es fs : List ConnectionEvent) :
    s.run (es ++ fs) = (s.run es).run fs :=
  List.foldl_append

end Session

/-! ## Books -/

/-- What the matching of requests and replies depends on. -/
structure Books where
  calls : List Call
  pending : List (UInt64 × Nat)
  nextNumber : UInt64
  connected : Bool
  queued : List Frame
  taken : List (UInt64 × Message)

/-- The books of a connection, with what has been queued and taken. -/
def Connection.books (c : Connection) (queued : List Frame) (taken : List (UInt64 × Message)) :
    Books :=
  ⟨c.calls, c.pending, c.nextNumber, c.connected, queued, taken⟩

/-- The books of a session. -/
def Session.books (s : Session) : Books := s.connection.books s.queued s.taken

namespace Call

/-- Whether the call is a request that was given a number. -/
def isRequest (call : Call) : Bool := call.timeout.isSome

end Call

namespace Books

/-- Puts a call into another phase. -/
def enter (b : Books) (i : Nat) (p : CallPhase) : Books :=
  { b with calls := b.calls.modify i fun call => { call with phase := p } }

/-- Forgets that a request waits for a reply. -/
def forget (b : Books) (number : UInt64) : Books :=
  { b with pending := b.pending.filter (·.1 ≠ number) }

/-- Ends a call. -/
def finish (b : Books) (i : Nat) (call : Call) (p : CallPhase) : Books :=
  if call.isRequest then (b.enter i p).forget call.frame.id else b.enter i p

/-- Puts a frame into the queue. -/
def queue (b : Books) (f : Frame) : Books := { b with queued := b.queued ++ [f] }

/-- Settles what becomes of the reply to a request, which then waits no more. -/
def settle (b : Books) (i : Nat) (number : UInt64) (r : Reply) : Books :=
  { b with calls := b.calls.modify i fun call => { call with reply := r } }.forget number

/-- Notes that a reply was taken. -/
def take (b : Books) (number : UInt64) (m : Message) : Books :=
  { b with taken := b.taken ++ [(number, m)] }

/-- Adds a call that is no numbered request. -/
def add (b : Books) (call : Call) : Books := { b with calls := b.calls ++ [call] }

/-- Adds a request with a number of its own, which waits for a reply. -/
def register (b : Books) (m : Message) (timeout : Nat) : Books :=
  { b with
    calls := b.calls ++ [⟨⟨b.nextNumber, .request, m⟩, some timeout, .awaited, .waiting⟩]
    pending := b.pending ++ [(b.nextNumber, b.calls.length)]
    nextNumber := b.nextNumber + 1 }

/-- How an event moves the books. -/
inductive Move (e : ConnectionEvent) (b : Books) : Books → Prop
  | disconnect (hevent : e = .close) : Move e b { b with connected := false }
  /-- A reply, or a request that a closed connection refused at once. -/
  | add {call : Call} (hother : call.isRequest = false) (hlost : call.reply = .lost)
    (hphase : call.phase = .waiting ∧ call.frame.kind = .response ∨
      ∃ error, call.phase = .ended (.failed error)) : Move e b (b.add call)
  | giveRoom {i : Nat} {call : Call} (hfound : b.calls[i]? = some call)
    (hwaiting : call.phase = .waiting) : Move e b (b.enter i .admitted)
  /-- A request is put into the queue and waits for its reply. -/
  | send {i : Nat} {call : Call} (hfound : b.calls[i]? = some call)
    (hadmitted : call.phase = .admitted) (hrequest : call.isRequest = true) (deadline : Nat) :
    Move e b ((b.enter i (.replying deadline)).queue call.frame)
  /-- A reply to the peer is put into the queue, and nothing more comes of it. -/
  | post {i : Nat} {call : Call} (hfound : b.calls[i]? = some call)
    (hadmitted : call.phase = .admitted) (hother : call.isRequest = false) :
    Move e b ((b.enter i (.ended .queued)).queue call.frame)
  /-- A call that is not over ends; in the queue already and handed a reply, it ends with that. -/
  | finish {i : Nat} {call : Call} (hfound : b.calls[i]? = some call)
    (hopened : call.isOver = false)
    {r : CallResult} (hreplied : ∀ m, r = .replied m → call.reply = .arrived m)
    (hkept : ∀ m deadline, call.phase = .replying deadline → call.reply = .arrived m →
      r = .replied m) :
    Move e b (b.finish i call (.ended r))
  | abandon {i : Nat} {call : Call} (hfound : b.calls[i]? = some call)
    (hopened : call.isOver = false) (hevent : e = .abandon i) :
    Move e b (b.finish i call .abandoned)
  /-- A reply comes to the request that waits for it. -/
  | reply {i : Nat} {n number : UInt64} {m : Message}
    (hfound : b.pending.find? (·.1 = number) = some (n, i)) :
    Move e b ((b.settle i number (.arrived m)).take number m)
  /-- A request loses its reply: because the connection is closed, or its number is given anew. -/
  | lose {i : Nat} {n number : UInt64} (hfound : b.pending.find? (·.1 = number) = some (n, i))
    (hcause : b.connected = false ∨ number = b.nextNumber) : Move e b (b.settle i number .lost)

/-- One move after another. -/
abbrev Moves (e : ConnectionEvent) : Books → Books → Prop := ReflTransGen (Move e)

/-- How an event changes the books: by moves, and by at most one new request among them. -/
inductive Change : ConnectionEvent → Books → Books → Prop
  | moves {e : ConnectionEvent} {b b' : Books} (h : Moves e b b') : Change e b b'
  | request {m : Message} {timeout : Nat} {b b₁ b' : Books}
    (hbefore : Moves (.request m timeout) b b₁)
    (hafter : Moves (.request m timeout) (b₁.register m timeout) b') :
    Change (.request m timeout) b b'

end Books

/-! ## From steps to moves -/

namespace Connection

variable {e : ConnectionEvent} {c c' c'' : Connection} {i : Nat} {call : Call}

/-- One connection comes to be another by moves and by frames that are put into the queue. -/
def Leads (e : ConnectionEvent) (c c' : Connection) : Prop :=
  ∀ queued taken, ∃ frames, c'.queue = c.queue ++ frames ∧
    Books.Moves e (c.books queued taken) (c'.books (queued ++ frames) taken)

theorem Leads.refl : Leads e c c := by
  intro queued taken
  refine ⟨[], ?_, ?_⟩
  · simp
  · simpa using ReflTransGen.refl

theorem Leads.trans (h : Leads e c c') (h' : Leads e c' c'') : Leads e c c'' := by
  intro queued taken
  obtain ⟨frames, hqueue, hmoves⟩ := h queued taken
  obtain ⟨frames', hqueue', hmoves'⟩ := h' (queued ++ frames) taken
  refine ⟨frames ++ frames', ?_, ?_⟩
  · rw [hqueue', hqueue, List.append_assoc]
  · rw [← List.append_assoc]
    exact hmoves.trans hmoves'

/-- A move that leaves the queue alone. -/
theorem Leads.of_move (hqueue : c'.queue = c.queue)
    (h : ∀ queued taken, Books.Move e (c.books queued taken) (c'.books queued taken)) :
    Leads e c c' := by
  intro queued taken
  refine ⟨[], ?_, ?_⟩
  · simp [hqueue]
  · simpa using ReflTransGen.single (h queued taken)

@[simp] theorem books_finish (c : Connection) (i : Nat) (call : Call) (p : CallPhase)
    (queued : List Frame) (taken : List (UInt64 × Message)) :
    (c.finish i call p).books queued taken = (c.books queued taken).finish i call p := by
  unfold finish Books.finish Call.isRequest
  split <;> rfl

@[simp] theorem queue_finish (c : Connection) (i : Nat) (call : Call) (p : CallPhase) :
    (c.finish i call p).queue = c.queue := by
  unfold finish
  split <;> rfl

theorem leads_finish (hfound : c.calls[i]? = some call) (hopened : call.isOver = false)
    {r : CallResult} (hreplied : ∀ m, r = .replied m → call.reply = .arrived m)
    (hkept : ∀ m deadline, call.phase = .replying deadline → call.reply = .arrived m →
      r = .replied m) :
    Leads e c (c.finish i call (.ended r)) := by
  apply Leads.of_move (queue_finish ..)
  intro queued taken
  rw [books_finish]
  exact .finish hfound hopened hreplied hkept

/-- A call fails that is not about to take its reply. -/
theorem leads_fail (hfound : c.calls[i]? = some call) (hopened : call.isOver = false)
    (hunanswered : ∀ m deadline, call.phase = .replying deadline → call.reply ≠ .arrived m)
    (error : SyncError) : Leads e c (c.finish i call (.ended (.failed error))) := by
  apply leads_finish hfound hopened
  · intro m h
    cases h
  · intro m deadline hphase harrived
    exact absurd harrived (hunanswered m deadline hphase)

/-- A call in a phase may be put into that phase. -/
theorem enter_phase (hfound : c.calls[i]? = some call) : c.enter i call.phase = c := by
  have hsame : c.calls.modify i (fun other => { other with phase := call.phase }) = c.calls := by
    apply List.ext_getElem?
    intro j
    rw [List.getElem?_modify]
    split
    · next h => subst h; simp [hfound]
    · simp
  show { c with calls := _ } = c
  rw [hsame]

theorem enter_enter (c : Connection) (i : Nat) (p q : CallPhase) :
    (c.enter i p).enter i q = c.enter i q := by
  simp only [enter, modify, List.modify_modify_eq]
  rfl

/-- A request looks for its reply in the same way from whatever phase. -/
theorem look_enter (c : Connection) (i : Nat) (call : Call) (p : CallPhase) (deadline : Nat) :
    (c.enter i p).look i { call with phase := p } deadline = c.look i call deadline := by
  have hfinish (q : CallPhase) :
      (c.enter i p).finish i { call with phase := p } q = c.finish i call q := by
    simp only [finish, enter_enter]
  unfold look
  simp only [hfinish, enter_enter]
  rfl

theorem leads_look (hfound : c.calls[i]? = some call) {deadline : Nat}
    (hphase : call.phase = .replying deadline) : Leads e c (c.look i call deadline) := by
  have hopened : call.isOver = false := by simp [Call.isOver, hphase]
  rw [look.eq_def]
  cases hreply : call.reply with
  | arrived m =>
    apply leads_finish hfound hopened
    · intro m' h
      cases h
      exact hreply
    · intro m' _ _ h
      rw [hreply] at h
      cases h
      rfl
  | lost =>
    apply leads_fail hfound hopened
    intro m' _ _
    simp [hreply]
  | awaited =>
    dsimp only
    split
    · apply leads_fail hfound hopened
      intro m' _ _
      simp [hreply]
    · rw [← hphase, enter_phase hfound]
      exact .refl

theorem leads_push (hfound : c.calls[i]? = some call) (hadmitted : call.phase = .admitted) :
    Leads e c (c.push i call) := by
  rw [push.eq_def]
  cases hrequest : call.timeout with
  | none =>
    intro queued taken
    refine ⟨[call.frame], queue_finish .., ?_⟩
    apply ReflTransGen.single
    have hother : call.isRequest = false := by simp [Call.isRequest, hrequest]
    have hposted := Books.Move.post (e := e) (b := c.books queued taken) hfound hadmitted hother
    dsimp only
    rw [books_finish, Books.finish, hother]
    exact hposted
  | some ms =>
    have hsent : Leads e c
        ({ c with queue := c.queue ++ [call.frame] }.enter i (.replying (c.clock + ms))) := by
      intro queued taken
      refine ⟨[call.frame], rfl, ?_⟩
      apply ReflTransGen.single
      exact .send hfound hadmitted (by simp [Call.isRequest, hrequest]) (c.clock + ms)
    dsimp only
    rw [← look_enter _ i call (.replying (c.clock + ms))]
    apply hsent.trans
    apply leads_look
    · show (c.calls.modify i _)[i]? = _
      rw [List.getElem?_modify_eq, hfound]
      rfl
    · rfl

/-- A call whose frame is not in the queue yet fails when frames are taken off no more. -/
theorem leads_channelClosed (hfound : c.calls[i]? = some call)
    (hbefore : call.phase = .waiting ∨ call.phase = .admitted) :
    Leads e c (c.finish i call (.ended (.failed .channelClosed))) := by
  apply leads_fail hfound
  · rcases hbefore with hphase | hphase <;> simp [Call.isOver, hphase]
  · intro m deadline hreplying
    rw [hreplying] at hbefore
    simp at hbefore

theorem leads_poll (c : Connection) (i : Nat) : Leads e c (c.poll i) := by
  unfold poll
  split
  · exact .refl
  · next call hfound =>
    split
    · next hphase =>
      split
      · exact .refl
      · exact leads_channelClosed hfound (.inl hphase)
    · next hphase =>
      split
      · exact leads_push hfound hphase
      · exact leads_channelClosed hfound (.inr hphase)
    · next hphase => exact leads_look hfound hphase
    · exact .refl
    · exact .refl

theorem leads_giveRoom (hfound : c.calls[i]? = some call) (hwaiting : call.phase = .waiting) :
    Leads e c (c.enter i .admitted) :=
  .of_move rfl fun _ _ => .giveRoom hfound hwaiting

theorem leads_admitNext (c : Connection) : Leads e c c.admitNext := by
  unfold admitNext
  split
  · exact .refl
  · next i hfirst =>
    split
    · obtain ⟨hbound, hwaiting, -⟩ := List.findIdx?_eq_some_iff_getElem.mp hfirst
      have hfound : c.calls[i]? = some c.calls[i] := List.getElem?_eq_getElem hbound
      exact leads_giveRoom hfound (by simpa using hwaiting)
    · exact .refl

theorem queue_admitNext (c : Connection) : c.admitNext.queue = c.queue := by
  unfold admitNext
  split
  · rfl
  · split <;> rfl

theorem modify_last (calls : List Call) (call : Call) (f : Call → Call) :
    (calls ++ [call]).modify calls.length f = calls ++ [f call] := by
  induction calls with
  | nil => rfl
  | cons other calls ih => simp [ih]

/-- A call that is noted as waiting goes on as it does when it is made. -/
theorem leads_make (c : Connection) {call : Call} (hwaiting : call.phase = .waiting) :
    Leads e { c with calls := c.calls ++ [call] } (c.make call) := by
  have hnoted : { c with calls := c.calls ++ [call] }.calls[c.calls.length]? = some call := by simp
  unfold make
  dsimp only
  split
  · refine Leads.trans ?_ (leads_poll _ _)
    have hadmitted : { c with calls := c.calls ++ [{ call with phase := .admitted }] } =
        { c with calls := c.calls ++ [call] }.enter c.calls.length .admitted := by
      simp only [enter, modify, modify_last]
    rw [hadmitted]
    exact leads_giveRoom hnoted hwaiting
  · rw [← hwaiting]
    exact leads_poll _ _

theorem leads_lose (c : Connection) (number : UInt64)
    (hcause : c.connected = false ∨ number = c.nextNumber) : Leads e c (c.lose number) := by
  unfold lose
  split
  · exact .refl
  · next n i hfound =>
    refine Leads.of_move rfl ?_
    intro queued taken
    exact .lose hfound hcause

theorem leads_close (c : Connection) : Leads .close c c.close := by
  -- The flag is looked at by no step of the way, so it may be put first.
  have hlose (c : Connection) (number : UInt64) :
      { c.lose number with connected := false } = { c with connected := false }.lose number := by
    unfold lose
    dsimp only
    split
    · rfl
    · rfl
  have hlosses (entries : List (UInt64 × Nat)) (c : Connection) :
      Leads .close { c with connected := false }
        { entries.foldl (fun c entry => c.lose entry.1) c with connected := false } := by
    induction entries generalizing c with
    | nil => exact .refl
    | cons entry entries ih =>
      rw [List.foldl_cons]
      refine Leads.trans ?_ (ih _)
      rw [hlose]
      exact leads_lose _ _ (.inl rfl)
  have hdisconnected : Leads .close c { c with connected := false } :=
    .of_move rfl fun _ _ => .disconnect rfl
  exact hdisconnected.trans (hlosses c.pending c)

theorem leads_respond (c : Connection) (number : UInt64) (m : Message) :
    Leads e c (c.respond number m) := by
  refine Leads.trans ?_ (leads_make c rfl)
  exact .of_move rfl fun _ _ => .add rfl rfl (.inl ⟨rfl, rfl⟩)

/-- A connection that a request was noted on, before it goes on. -/
def register (c : Connection) (m : Message) (timeout : Nat) : Connection :=
  { c with
    calls := c.calls ++ [⟨⟨c.nextNumber, .request, m⟩, some timeout, .awaited, .waiting⟩]
    pending := c.pending ++ [(c.nextNumber, c.calls.length)]
    nextNumber := c.nextNumber + 1 }

theorem leads_request (hconnected : c.connected = true) (m : Message) (timeout : Nat) :
    Leads e ((c.lose c.nextNumber).register m timeout) (c.request m timeout) := by
  have hnumber : (c.lose c.nextNumber).nextNumber = c.nextNumber := by
    unfold lose
    split <;> rfl
  let call : Call := ⟨⟨c.nextNumber, .request, m⟩, some timeout, .awaited, .waiting⟩
  have hwaiting : call.phase = .waiting := rfl
  have hmade := leads_make (e := e)
    { c.lose c.nextNumber with
      pending := (c.lose c.nextNumber).pending ++
        [(c.nextNumber, (c.lose c.nextNumber).calls.length)]
      nextNumber := c.nextNumber + 1 } hwaiting
  unfold request register
  rw [if_pos hconnected, hnumber]
  exact hmade

/-- A closed connection refuses a request at once. -/
theorem leads_refuse (hclosed : c.connected = false) (m : Message) (timeout : Nat) :
    Leads e c (c.request m timeout) := by
  unfold request
  rw [if_neg (by simp [hclosed])]
  exact .of_move rfl fun _ _ => .add rfl rfl (.inr ⟨_, rfl⟩)

theorem leads_abandon (c : Connection) (i : Nat) : Leads (.abandon i) c (c.abandon i) := by
  unfold abandon
  split
  · exact .refl
  · next call hfound =>
    split
    · exact .refl
    · next hopened =>
      refine Leads.trans ?_ (leads_admitNext _)
      apply Leads.of_move (queue_finish ..)
      intro queued taken
      rw [books_finish]
      exact .abandon hfound (by simpa using hopened) rfl

end Connection

namespace Session

open Books

variable {e : ConnectionEvent}

theorem queued_step {s : Session} {frames : List Frame}
    (hqueue : (s.connection.follow e).queue = s.connection.queue ++ frames) :
    (s.step e).queued = s.queued ++ frames := by
  simp [step, hqueue]

theorem change_of_leads {s : Session} (h : s.connection.Leads e (s.connection.follow e))
    (hother : (s.step e).taken = s.taken) : Books.Change e s.books (s.step e).books := by
  obtain ⟨frames, hqueue, hmoves⟩ := h s.queued s.taken
  rw [books, books, queued_step hqueue, hother]
  exact .moves hmoves

/-- An event that puts nothing into the queue. -/
theorem change_of_moves {s : Session}
    (hqueue : (s.connection.follow e).queue.length ≤ s.connection.queue.length)
    (hmoves : Books.Moves e s.books ((s.connection.follow e).books s.queued (s.step e).taken)) :
    Books.Change e s.books (s.step e).books := by
  have hsame : (s.step e).queued = s.queued := by
    simpa [step] using hqueue
  rw [books, books, hsame]
  exact .moves hmoves

theorem change_request (s : Session) (m : Message) (timeout : Nat) :
    Books.Change (.request m timeout) s.books (s.step (.request m timeout)).books := by
  cases hconnected : s.connection.connected with
  | false => exact change_of_leads (Connection.leads_refuse hconnected m timeout) rfl
  | true =>
    obtain ⟨lost, hnoQueue, hbefore⟩ := Connection.leads_lose (e := .request m timeout)
      s.connection s.connection.nextNumber (.inr rfl) s.queued s.taken
    obtain ⟨frames, hqueue, hafter⟩ := Connection.leads_request (e := .request m timeout)
      hconnected m timeout (s.queued ++ lost) s.taken
    have hgrown : (s.step (.request m timeout)).queued = s.queued ++ lost ++ frames := by
      rw [List.append_assoc]
      apply queued_step
      rw [← List.append_assoc, ← hnoQueue]
      exact hqueue
    rw [books, books, hgrown]
    exact .request hbefore hafter

theorem step_change (s : Session) (e : ConnectionEvent) :
    Books.Change e s.books (s.step e).books := by
  cases e with
  | request m timeout => exact change_request s m timeout
  | respond number m => exact change_of_leads (s.connection.leads_respond number m) rfl
  | poll i => exact change_of_leads (s.connection.leads_poll i) rfl
  | abandon i => exact change_of_leads (s.connection.leads_abandon i) rfl
  | complete number m =>
    cases hfound : s.connection.pending.find? (·.1 = number) with
    | none =>
      have hunknown : s.connection.complete number m = (s.connection, false) := by
        rw [Connection.complete, hfound]
      apply change_of_moves
      · simp [Connection.follow, hunknown]
      · simpa [Connection.follow, step, hunknown] using .refl
    | some entry =>
      obtain ⟨n, i⟩ := entry
      have hknown : s.connection.complete number m =
          ((s.connection.modify i fun call => { call with reply := .arrived m }).forget number,
            true) := by
        rw [Connection.complete, hfound]
      apply change_of_moves
      · simp [Connection.follow, hknown, Connection.forget, Connection.modify]
      · simp only [Connection.follow, step, hknown, if_true]
        exact .single (.reply hfound)
  | close => exact change_of_leads s.connection.leads_close rfl
  | takeFrame =>
    cases hqueue : s.connection.queue with
    | nil =>
      apply change_of_moves
      · simp [Connection.follow, Connection.takeFrame, hqueue]
      · simpa [Connection.follow, Connection.takeFrame, hqueue] using .refl
    | cons f rest =>
      obtain ⟨frames, hgrown, hmoves⟩ := Connection.leads_admitNext (e := .takeFrame)
        { s.connection with queue := rest } s.queued s.taken
      have hnone : frames = [] := by
        rw [Connection.queue_admitNext] at hgrown
        exact List.self_eq_append_right.mp hgrown
      subst hnone
      apply change_of_moves
      · simp [Connection.follow, Connection.takeFrame, hqueue, Connection.queue_admitNext]
      · rw [List.append_nil] at hmoves
        simp only [Connection.follow, Connection.takeFrame, hqueue]
        exact hmoves
  | stopReceiving => exact change_of_moves (Nat.zero_le _) .refl
  | setName name => exact change_of_leads .refl rfl
  | tick ms => exact change_of_leads .refl rfl

end Session

end CloudRoster.Net
