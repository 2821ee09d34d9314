import CloudRoster.Proofs.Net.Session
import Mathlib.Data.List.Perm.Subperm
import Mathlib.Data.List.Nodup

/-!
# A connection that was closed

`Connection.request` looks at `connected` once, when it is called. A request that waits for room in
the queue at the close has that look behind it: when room becomes free it still puts its frame
there, although it has lost its reply by then (`closed_sends_waiting_ping`).

What does hold after a close is `Silenced`: no reply finds a request any more, no call returns a
reply that was not handed over before, and of the requests only those come into the queue that were
waiting for room in it, each at most once. That no request comes into the queue twice is a count: a
frame is in the queue (`requests`) or waits to be put there (`unsent`), and a move only ever takes
it from the second place to the first.
-/

namespace CloudRoster.Net

open Relation (ReflTransGen)

/-! ## Requests on their way into the queue -/

/-- The frame of a request that waits for room in the queue. -/
def Call.unsent? (call : Call) : Option Frame :=
  if call.isRequest && (decide (call.phase = .waiting) || decide (call.phase = .admitted)) then
    some call.frame
  else none

/-- The frames of the requests that wait for room in the queue, in the order of the calls. -/
def unsent (calls : List Call) : List Frame := calls.filterMap Call.unsent?

/-- The requests among frames. -/
def requests (frames : List Frame) : List Frame := frames.filter (·.kind = .request)

theorem requests_append (fs gs : List Frame) : requests (fs ++ gs) = requests fs ++ requests gs :=
  List.filter_append ..

/-- The calls around one that is changed. -/
theorem exists_split_modify {calls : List Call} {i : Nat} {call : Call}
    (hfound : calls[i]? = some call) (f : Call → Call) :
    ∃ before after, calls = before ++ call :: after ∧
      calls.modify i f = before ++ f call :: after := by
  obtain ⟨hbound, rfl⟩ := List.getElem?_eq_some_iff.mp hfound
  refine ⟨calls.take i, calls.drop (i + 1), ?_, List.modify_eq_take_cons_drop hbound⟩
  rw [List.getElem_cons_drop, List.take_append_drop]

section Unsent

variable {calls : List Call} {i : Nat} {call : Call} {f : Call → Call}

/-- A change of a call that concerns no waiting for room. -/
theorem unsent_modify_same (hfound : calls[i]? = some call)
    (hsame : (f call).unsent? = call.unsent?) :
    unsent (calls.modify i f) = unsent calls := by
  obtain ⟨before, after, hsplit, hchanged⟩ := exists_split_modify hfound f
  rw [hchanged, hsplit]
  simp only [unsent, List.filterMap_append, List.filterMap_cons, hsame]

/-- A call that does not wait for room any more. -/
theorem unsent_modify_sublist (hfound : calls[i]? = some call) (hleft : (f call).unsent? = none) :
    (unsent (calls.modify i f)).Sublist (unsent calls) := by
  obtain ⟨before, after, hsplit, hchanged⟩ := exists_split_modify hfound f
  rw [hchanged, hsplit]
  simp only [unsent, List.filterMap_append, List.filterMap_cons, hleft]
  apply List.Sublist.append_left
  cases call.unsent? with
  | none => exact .refl _
  | some frame => exact List.sublist_cons_self ..

/-- A request that waited for room leaves its frame behind. -/
theorem unsent_modify_perm (hfound : calls[i]? = some call) {frame : Frame}
    (hwaited : call.unsent? = some frame) (hleft : (f call).unsent? = none) :
    (frame :: unsent (calls.modify i f)).Perm (unsent calls) := by
  obtain ⟨before, after, hsplit, hchanged⟩ := exists_split_modify hfound f
  rw [hchanged, hsplit]
  simp only [unsent, List.filterMap_append, List.filterMap_cons, hleft, hwaited]
  exact List.perm_middle.symm

end Unsent

namespace Books

variable {b b' : Books} {e : ConnectionEvent} {i : Nat} {call : Call}

/-! ## Calls that agree with the table -/

/-- What holds of the books however many requests there are, also when numbers are given anew. -/
structure Coherent (b : Books) : Prop where
  asks : ∀ call ∈ b.calls, call.isRequest = true → call.frame.kind = .request
  answers : ∀ call ∈ b.calls, call.isRequest = false → call.isOver = false →
    call.frame.kind = .response
  result : ∀ call ∈ b.calls, ∀ m, call.result? = some (.replied m) → call.reply = .arrived m
  /-- An entry of the table is that of a request that is not over. -/
  waits : ∀ entry ∈ b.pending, ∃ call, b.calls[entry.2]? = some call ∧ call.isRequest = true ∧
    call.isOver = false ∧ call.frame.id = entry.1

namespace Coherent

/-- Books stay coherent when one call changes and goes on to agree with them. -/
theorem change (h : b.Coherent) (hfound : b.calls[i]? = some call) {f : Call → Call}
    (hcalls : b'.calls = b.calls.modify i f)
    (hsame : (f call).isRequest = call.isRequest ∧ (f call).frame = call.frame)
    (hopened : (f call).isOver = false → call.isOver = false)
    (hresult : ∀ m, (f call).result? = some (.replied m) → (f call).reply = .arrived m)
    (hpending : ∀ entry ∈ b'.pending, entry ∈ b.pending ∧
      (entry.2 = i → call.frame.id = entry.1 → (f call).isOver = false)) : b'.Coherent := by
  have hlisted : ∀ other ∈ b'.calls, other = f call ∨ other ∈ b.calls := by
    intro other hnow
    obtain ⟨before, after, hsplit, hchanged⟩ := exists_split_modify hfound f
    rw [hcalls, hchanged, List.mem_append, List.mem_cons] at hnow
    rw [hsplit, List.mem_append, List.mem_cons]
    tauto
  have hown := List.mem_of_getElem? hfound
  refine ⟨?_, ?_, ?_, ?_⟩
  · intro other hnow hrequest
    rcases hlisted other hnow with rfl | hold
    · rw [hsame.2]
      exact h.asks call hown (hsame.1 ▸ hrequest)
    · exact h.asks other hold hrequest
  · intro other hnow hnoRequest hopen
    rcases hlisted other hnow with rfl | hold
    · rw [hsame.2]
      exact h.answers call hown (hsame.1 ▸ hnoRequest) (hopened hopen)
    · exact h.answers other hold hnoRequest hopen
  · intro other hnow m hreplied
    rcases hlisted other hnow with rfl | hold
    · exact hresult m hreplied
    · exact h.result other hold m hreplied
  · intro entry hnow
    obtain ⟨hold, hstays⟩ := hpending entry hnow
    obtain ⟨other, hplaced, hrequest, hopen, hnumber⟩ := h.waits entry hold
    rw [hcalls]
    by_cases hhere : entry.2 = i
    · subst hhere
      obtain rfl : other = call := Option.some.inj (hplaced.symm.trans hfound)
      refine ⟨f other, ?_, hsame.1.trans hrequest, hstays rfl hnumber, hsame.2 ▸ hnumber⟩
      rw [List.getElem?_modify_eq, hfound]
      rfl
    · refine ⟨other, ?_, hrequest, hopen, hnumber⟩
      rw [List.getElem?_modify_ne _ _ (Ne.symm hhere), hplaced]

/-- A call that goes on waiting in another phase. -/
theorem enter (h : b.Coherent) (hfound : b.calls[i]? = some call) {p : CallPhase}
    (hopened : call.isOver = false) (hpast : { call with phase := p }.isOver = false) :
    (b.enter i p).Coherent := by
  refine h.change hfound rfl ⟨rfl, rfl⟩ (fun _ => hopened) ?_
    fun entry hold => ⟨hold, fun _ _ => hpast⟩
  intro m hreplied
  cases p <;> simp_all [Call.result?, Call.isOver]

theorem finish (h : b.Coherent) (hfound : b.calls[i]? = some call) (hopened : call.isOver = false)
    {p : CallPhase} (hreplied : ∀ m, p = .ended (.replied m) → call.reply = .arrived m) :
    (b.finish i call p).Coherent := by
  have hresult (m : Message) (hnow : { call with phase := p }.result? = some (.replied m)) :
      call.reply = .arrived m := by
    apply hreplied
    cases p <;> simp_all [Call.result?]
  cases hrequest : call.isRequest with
  | true =>
    rw [Books.finish, hrequest, if_pos rfl]
    refine h.change hfound rfl ⟨rfl, rfl⟩ (fun _ => hopened) hresult ?_
    intro entry hkept
    obtain ⟨hold, hother⟩ := List.mem_filter.mp hkept
    refine ⟨hold, fun _ hsame => ?_⟩
    simp [hsame] at hother
  | false =>
    rw [Books.finish, hrequest]
    refine h.change hfound rfl ⟨rfl, rfl⟩ (fun _ => hopened) hresult fun entry hold => ⟨hold, ?_⟩
    rintro rfl -
    obtain ⟨other, hplaced, hasks, -⟩ := h.waits entry hold
    obtain rfl := Option.some.inj (hplaced.symm.trans hfound)
    rw [hrequest] at hasks
    cases hasks

theorem settle (h : b.Coherent) {n number : UInt64} {r : Reply}
    (hfound : b.pending.find? (·.1 = number) = some (n, i)) : (b.settle i number r).Coherent := by
  obtain ⟨call, hplaced, -, hopened, -⟩ := h.waits _ (List.mem_of_find?_eq_some hfound)
  refine h.change hplaced rfl ⟨rfl, rfl⟩ (fun _ => hopened) ?_ ?_
  · intro m hreplied
    simp only [Call.result?, Call.isOver] at hreplied hopened
    split at hreplied <;> simp_all
  · intro entry hkept
    exact ⟨(List.mem_filter.mp hkept).1, fun _ _ => hopened⟩

/-- What no field of the law is about may change. -/
theorem congr (h : b.Coherent) (hcalls : b'.calls = b.calls) (hpending : b'.pending = b.pending) :
    b'.Coherent := by
  obtain ⟨hasks, hanswers, hresult, hwaits⟩ := h
  constructor <;> simpa only [hcalls, hpending]

/-- A call that comes to the others. -/
theorem append (h : b.Coherent) (hcalls : b'.calls = b.calls ++ [call])
    (hasks : call.isRequest = true → call.frame.kind = .request)
    (hanswers : call.isRequest = false → call.isOver = false → call.frame.kind = .response)
    (hresult : ∀ m, call.result? ≠ some (.replied m))
    (hpending : ∀ entry ∈ b'.pending, entry ∈ b.pending ∨
      entry = (call.frame.id, b.calls.length) ∧ call.isRequest = true ∧ call.isOver = false) :
    b'.Coherent := by
  have hlisted : ∀ other ∈ b'.calls, other ∈ b.calls ∨ other = call := by
    simp [hcalls]
  refine ⟨?_, ?_, ?_, ?_⟩
  · intro other hnow
    rcases hlisted other hnow with hold | rfl
    · exact h.asks other hold
    · exact hasks
  · intro other hnow
    rcases hlisted other hnow with hold | rfl
    · exact h.answers other hold
    · exact hanswers
  · intro other hnow m hreplied
    rcases hlisted other hnow with hold | rfl
    · exact h.result other hold m hreplied
    · exact absurd hreplied (hresult m)
  · intro entry hnow
    rw [hcalls]
    rcases hpending entry hnow with hold | ⟨rfl, hrequest, hopened⟩
    · obtain ⟨other, hplaced, hrest⟩ := h.waits entry hold
      refine ⟨other, ?_, hrest⟩
      rw [List.getElem?_append_left (List.getElem?_eq_some_iff.mp hplaced).1, hplaced]
    · exact ⟨call, by simp, hrequest, hopened, rfl⟩

theorem register (h : b.Coherent) (m : Message) (timeout : Nat) :
    (b.register m timeout).Coherent := by
  refine h.append rfl (fun _ => rfl) ?_ ?_ ?_
  · intro hnoRequest
    cases hnoRequest
  · intro m hreplied
    cases hreplied
  · intro entry hnow
    rcases List.mem_append.mp hnow with hold | hnew
    · exact .inl hold
    · exact .inr ⟨List.mem_singleton.mp hnew, rfl, rfl⟩

theorem move (h : b.Coherent) (hmove : Move e b b') : b'.Coherent := by
  cases hmove with
  | disconnect => exact h.congr rfl rfl
  | add hother hlost hphase =>
    refine h.append rfl ?_ ?_ ?_ fun _ hold => .inl hold
    · simp [hother]
    · intro _ hopened
      rcases hphase with ⟨-, hkind⟩ | ⟨error, hended⟩
      · exact hkind
      · simp [Call.isOver, hended] at hopened
    · intro m hreplied
      rcases hphase with ⟨hwaiting, -⟩ | ⟨error, hended⟩ <;> simp_all [Call.result?]
  | giveRoom hfound hwaiting => exact h.enter hfound (by simp [Call.isOver, hwaiting]) rfl
  | send hfound hadmitted hrequest deadline =>
    exact (h.enter (p := .replying deadline) hfound (by simp [Call.isOver, hadmitted]) rfl).congr
      rfl rfl
  | post hfound hadmitted hother =>
    have hfinished := h.finish (p := .ended .queued) hfound (by simp [Call.isOver, hadmitted])
      (by simp)
    rw [Books.finish, hother] at hfinished
    exact hfinished.congr rfl rfl
  | finish hfound hopened hreplied hkept =>
    apply h.finish hfound hopened
    intro m hended
    cases hended
    exact hreplied m rfl
  | abandon hfound hopened hevent => exact h.finish hfound hopened (by simp)
  | reply hfound => exact (h.settle hfound).congr rfl rfl
  | lose hfound hcause => exact h.settle hfound

theorem moves (h : b.Coherent) (hms : Moves e b b') : b'.Coherent := by
  induction hms with
  | refl => exact h
  | tail _ m ih => exact ih.move m

end Coherent

/-! ## Moves that hand over no reply -/

/-- What becomes of the books while nothing new is asked and no reply comes. -/
structure Quiet (b b' : Books) : Prop where
  /-- A request in the queue was there or waited for room. -/
  outgoing : (requests b'.queued ++ unsent b'.calls).Subperm (requests b.queued ++ unsent b.calls)
  /-- A reply that is here was here. -/
  handed : ∀ (i : Nat) (call : Call) (m : Message), b'.calls[i]? = some call →
    call.reply = .arrived m → ∃ old, b.calls[i]? = some old ∧ old.reply = .arrived m

namespace Quiet

variable {b'' : Books}

theorem refl : Quiet b b := ⟨.refl _, fun _ call _ hfound harrived => ⟨call, hfound, harrived⟩⟩

theorem trans (h : Quiet b b') (h' : Quiet b' b'') : Quiet b b'' := by
  refine ⟨h'.outgoing.trans h.outgoing, ?_⟩
  intro i call m hfound harrived
  obtain ⟨old, hbefore, hthere⟩ := h'.handed i call m hfound harrived
  exact h.handed i old m hbefore hthere

/-- A change of one call, with a frame of its own for the queue or without one. -/
theorem change (hfound : b.calls[i]? = some call) {f : Call → Call}
    (hcalls : b'.calls = b.calls.modify i f)
    (hreply : ∀ m, (f call).reply = .arrived m → call.reply = .arrived m)
    (houtgoing : (requests b'.queued ++ unsent (b.calls.modify i f)).Subperm
      (requests b.queued ++ unsent b.calls)) : Quiet b b' := by
  rw [← hcalls] at houtgoing
  refine ⟨houtgoing, ?_⟩
  intro j other m hplaced harrived
  rw [hcalls] at hplaced
  by_cases hhere : i = j
  · subst hhere
    rw [List.getElem?_modify_eq, hfound] at hplaced
    cases hplaced
    exact ⟨call, hfound, hreply m harrived⟩
  · rw [List.getElem?_modify_ne _ _ hhere] at hplaced
    exact ⟨other, hplaced, harrived⟩

theorem finish (hfound : b.calls[i]? = some call) {p : CallPhase}
    (hpast : { call with phase := p }.isOver = true) : Quiet b (b.finish i call p) := by
  have hqueued : (b.finish i call p).queued = b.queued := by
    unfold Books.finish
    split <;> rfl
  have hleft : { call with phase := p }.unsent? = none := by
    cases p <;> simp_all [Call.unsent?, Call.isOver]
  refine change (f := fun call => { call with phase := p }) hfound ?_
    (fun _ harrived => harrived) ?_
  · unfold Books.finish
    split <;> rfl
  · rw [hqueued]
    exact ((unsent_modify_sublist hfound hleft).append_left _).subperm

theorem move (h : b.Coherent) (hmove : Move e b b') (htaken : b'.taken = b.taken) :
    Quiet b b' := by
  cases hmove with
  | disconnect => exact ⟨.refl _, fun _ call _ hfound harrived => ⟨call, hfound, harrived⟩⟩
  | @add call hother hlost hphase =>
    have hnone : call.unsent? = none := by simp [Call.unsent?, hother]
    constructor
    · show (requests b.queued ++ unsent (b.calls ++ [call])).Subperm _
      rw [unsent, List.filterMap_append, List.filterMap_cons, hnone, List.filterMap_nil,
        List.append_nil]
      exact .refl _
    · intro i added m hfound harrived
      change (b.calls ++ [call])[i]? = _ at hfound
      rw [List.getElem?_append] at hfound
      split at hfound
      · exact ⟨added, hfound, harrived⟩
      · obtain rfl := List.mem_singleton.mp (List.mem_of_getElem? hfound)
        rw [hlost] at harrived
        cases harrived
  | giveRoom hfound hwaiting =>
    refine change hfound rfl (fun _ harrived => harrived) ?_
    rw [unsent_modify_same hfound]
    · exact .refl _
    · simp [Call.unsent?, Call.isRequest, hwaiting]
  | @send i call hfound hadmitted hrequest deadline =>
    refine change hfound rfl (fun _ harrived => harrived) ?_
    have hkind := h.asks call (List.mem_of_getElem? hfound) hrequest
    have hwaited : call.unsent? = some call.frame := by simp [Call.unsent?, hrequest, hadmitted]
    have hsent : requests (b.queued ++ [call.frame]) = requests b.queued ++ [call.frame] := by
      simp [requests, hkind]
    show (requests (b.queued ++ [call.frame]) ++ _).Subperm _
    rw [hsent, List.append_assoc, List.singleton_append]
    exact ((unsent_modify_perm hfound hwaited (by simp [Call.unsent?])).append_left _).subperm
  | @post i call hfound hadmitted hother =>
    refine change hfound rfl (fun _ harrived => harrived) ?_
    have hkind := h.answers call (List.mem_of_getElem? hfound) hother
      (by simp [Call.isOver, hadmitted])
    have hsame : requests (b.queued ++ [call.frame]) = requests b.queued := by
      simp [requests, hkind]
    show (requests (b.queued ++ [call.frame]) ++ _).Subperm _
    rw [hsame]
    exact ((unsent_modify_sublist hfound (by simp [Call.unsent?])).append_left _).subperm
  | finish hfound hopened hreplied hkept => exact finish hfound rfl
  | abandon hfound hopened hevent => exact finish hfound rfl
  | reply hfound => exact absurd htaken (by simp [take, Books.settle, forget])
  | lose hfound hcause =>
    obtain ⟨call, hplaced, -⟩ := h.waits _ (List.mem_of_find?_eq_some hfound)
    refine change hplaced rfl (fun m harrived => ?_) ?_
    · cases harrived
    · rw [unsent_modify_same hplaced rfl]
      exact .refl _

/-- Replies that were taken stay so. -/
theorem taken_le (hmove : Move e b b') : b.taken <+: b'.taken := by
  cases hmove with
  | reply => exact List.prefix_append ..
  | finish | abandon =>
    unfold Books.finish
    split <;> exact List.prefix_rfl
  | _ => exact List.prefix_rfl

theorem moves (h : b.Coherent) (hms : Moves e b b') (htaken : b'.taken = b.taken) :
    Quiet b b' := by
  have hgrown {c : Books} (hms : Moves e b c) : b.taken <+: c.taken := by
    induction hms with
    | refl => exact List.prefix_rfl
    | tail _ m ih => exact ih.trans (taken_le m)
  -- No reply is among the moves: it would be noted as taken, and nothing that is noted goes again.
  induction hms with
  | refl => exact refl
  | @tail c d hbefore m ih =>
    have hnone : c.taken = b.taken := by
      have hle := (taken_le m).length_le
      rw [htaken] at hle
      exact ((hgrown hbefore).eq_of_length_le hle).symm
    exact (ih hnone).trans (move (h.moves hbefore) m (htaken.trans hnone.symm))

end Quiet

/-! ## Books of a closed connection -/

/-- The connection is closed, and no request waits for a reply any more. -/
structure Closed (b : Books) : Prop where
  disconnected : b.connected = false
  nobody : b.pending = []

theorem Closed.finish (h : b.Closed) (i : Nat) (call : Call) (p : CallPhase) :
    (b.finish i call p).Closed := by
  unfold Books.finish
  split
  · exact ⟨h.disconnected, by simp [forget, enter, h.nobody]⟩
  · exact ⟨h.disconnected, h.nobody⟩

theorem Closed.moves (h : b.Closed) (hms : Moves e b b') : b'.Closed := by
  induction hms with
  | refl => exact h
  | tail _ m ih =>
    cases m with
    | finish => exact ih.finish ..
    | abandon => exact ih.finish ..
    | reply hfound => simp [ih.nobody] at hfound
    | lose hfound hcause => simp [ih.nobody] at hfound
    | disconnect => exact ⟨rfl, ih.nobody⟩
    | _ => exact ⟨ih.disconnected, ih.nobody⟩

end Books

/-! ## The close -/

namespace Connection

theorem pending_lose (c : Connection) (number : UInt64) :
    (c.lose number).pending = c.pending.filter (·.1 ≠ number) := by
  unfold lose
  split
  · next habsent =>
    symm
    rw [List.filter_eq_self]
    intro entry hlisted
    simpa using List.find?_eq_none.mp habsent entry hlisted
  · rfl

/-- After `close` no request waits for a reply. -/
theorem pending_close (c : Connection) : c.close.pending = [] := by
  have hlosses (entries : List (UInt64 × Nat)) (c : Connection) :
      (entries.foldl (fun c entry => c.lose entry.1) c).pending =
        c.pending.filter fun entry => entry.1 ∉ entries.map (·.1) := by
    induction entries generalizing c with
    | nil => simp
    | cons entry entries ih =>
      rw [List.foldl_cons, ih, pending_lose, List.filter_filter]
      apply List.filter_congr
      intro other _
      simp only [List.map_cons, List.mem_cons, not_or, Bool.decide_and, ne_eq]
      exact Bool.and_comm ..
  show (c.pending.foldl _ c).pending = []
  rw [hlosses, List.filter_eq_nil_iff]
  intro entry hlisted
  simpa using ⟨entry.2, hlisted⟩

end Connection

namespace Session

open Books

variable {s : Session} {e : ConnectionEvent}

theorem coherent_run (id : UInt64) (addr : SocketAddr) (capacity : Nat)
    (es : List ConnectionEvent) : ((new id addr capacity).run es).books.Coherent := by
  induction es using List.reverseRecOn with
  | nil => constructor <;> simp [run, books, Connection.books, new, Connection.new]
  | append_singleton es e ih =>
    rw [run_append]
    cases ((new id addr capacity).run es).step_change e with
    | moves hms => exact ih.moves hms
    | request hbefore hafter => exact ((ih.moves hbefore).register _ _).moves hafter

theorem step_close (s : Session) : Books.Moves .close s.books (s.step .close).books ∧
    (s.step .close).books.Closed := by
  constructor
  · cases s.step_change .close with
    | moves hms => exact hms
  · exact ⟨rfl, s.connection.pending_close⟩

/-- On a closed connection there are only moves, since no request is registered. -/
theorem moves_of_closed (hclosed : s.books.Closed) (e : ConnectionEvent) :
    Books.Moves e s.books (s.step e).books := by
  cases e with
  | request m timeout =>
    obtain ⟨frames, hqueue, hms⟩ := Connection.leads_refuse (e := .request m timeout)
      hclosed.disconnected m timeout s.queued s.taken
    rw [books, books, queued_step (e := .request m timeout) hqueue]
    exact hms
  | _ =>
    cases s.step_change _ with
    | moves hms => exact hms

theorem complete_of_closed (hclosed : s.books.Closed) (number : UInt64) (m : Message) :
    (s.connection.complete number m).2 = false := by
  have hnobody : s.connection.pending = [] := hclosed.nobody
  simp [Connection.complete, hnobody]

/-- What a step leaves of a closed connection. -/
theorem step_of_closed (hclosed : s.books.Closed) (h : s.books.Coherent) (e : ConnectionEvent) :
    (s.step e).books.Closed ∧ (s.step e).books.Coherent ∧ Quiet s.books (s.step e).books := by
  have hms := moves_of_closed hclosed e
  have htaken : (s.step e).taken = s.taken := by
    cases e with
    | complete number m => simp [step, complete_of_closed hclosed]
    | _ => rfl
  exact ⟨hclosed.moves hms, h.moves hms, .moves h hms htaken⟩

theorem run_of_closed (hclosed : s.books.Closed) (h : s.books.Coherent)
    (later : List ConnectionEvent) :
    (s.run later).books.Closed ∧ (s.run later).books.Coherent ∧
      Quiet s.books (s.run later).books := by
  induction later generalizing s with
  | nil => exact ⟨hclosed, h, .refl⟩
  | cons e later ih =>
    obtain ⟨hclosed', h', hquiet⟩ := step_of_closed hclosed h e
    obtain ⟨hclosed'', h'', hquiet'⟩ := ih hclosed' h'
    exact ⟨hclosed'', h'', hquiet.trans hquiet'⟩

theorem queued_run (s : Session) (es : List ConnectionEvent) :
    ∃ frames, (s.run es).queued = s.queued ++ frames := by
  induction es generalizing s with
  | nil => exact ⟨[], (List.append_nil _).symm⟩
  | cons e es ih =>
    obtain ⟨frames, hgrown⟩ := ih (s.step e)
    exact ⟨_, hgrown.trans (List.append_assoc s.queued _ frames)⟩

/-- What a connection has come to after it was closed. -/
structure Silenced (s t : Session) : Prop where
  /-- No reply finds a request. -/
  deaf : ∀ number m, (t.connection.complete number m).2 = false
  /-- A call that has returned a reply was there before the close and had been handed it. -/
  silent : ∀ (i : Nat) (call : Call) (m : Message), t.connection.calls[i]? = some call →
    call.result? = some (.replied m) →
    ∃ old, s.connection.calls[i]? = some old ∧ old.reply = .arrived m
  /-- The requests that came into the queue were waiting for room in it, and came once at most. -/
  drained : ∃ frames, t.queued = s.queued ++ frames ∧
    (requests frames).Subperm (unsent s.connection.calls)
  /-- What is asked from then on is refused at once. -/
  refused : ∀ m timeout, t.connection.request m timeout =
    { t.connection with calls := t.connection.calls ++ [⟨⟨0, .request, m⟩, none, .lost,
        .ended (.failed (.network (t.connection.name ++ " is disconnected")))⟩] }

/-- After `close` a connection is silenced, whatever happened on it before and whatever happens
afterwards, with however much room in the queue: every reply is turned away, no call returns a reply
that was not handed over before, requests are refused, and none comes into the queue but those that
were waiting for room at the close. -/
theorem closed_falls_silent (id : UInt64) (addr : SocketAddr) (capacity : Nat)
    (es later : List ConnectionEvent) :
    let s := (new id addr capacity).run es
    Silenced s ((s.step .close).run later) := by
  intro s
  have h := coherent_run id addr capacity es
  obtain ⟨hms, hclosed⟩ := s.step_close
  obtain ⟨hclosed', h', hquiet⟩ := run_of_closed hclosed (h.moves hms) later
  have hwhole := (Quiet.moves h hms rfl).trans hquiet
  refine ⟨complete_of_closed hclosed', ?_, ?_, ?_⟩
  · intro i call m hfound hreplied
    exact hwhole.handed i call m hfound (h'.result call (List.mem_of_getElem? hfound) m hreplied)
  · obtain ⟨frames, hgrown⟩ := s.queued_run (.close :: later)
    refine ⟨frames, hgrown, ?_⟩
    have houtgoing : (requests (s.run (.close :: later)).queued ++ _).Subperm
      (requests s.queued ++ unsent s.connection.calls) := hwhole.outgoing
    rw [hgrown, requests_append, List.append_assoc, List.subperm_append_left] at houtgoing
    exact (List.sublist_append_left ..).subperm.trans houtgoing
  · intro m timeout
    have hdisconnected : ((s.step .close).run later).connection.connected = false :=
      hclosed'.disconnected
    rw [Connection.request, if_neg (by simp [hdisconnected])]

/-- A ping that waits for room at the close is put into the queue once there is room, although its
reply is lost. -/
theorem closed_sends_waiting_ping :
    let s := (new 1 (.v4 [127, 0, 0, 1] 1630) 1).run
      [.request (.ping 1) 1000, .request (.ping 2) 1000, .close]
    let t := s.run [.takeFrame, .poll 1]
    s.connection.connected = false ∧ t.queued = s.queued ++ [⟨2, .request, .ping 2⟩] ∧
      (t.connection.calls[1]?).bind Call.result? = some (.failed .channelClosed) := by
  decide

end Session

end CloudRoster.Net
