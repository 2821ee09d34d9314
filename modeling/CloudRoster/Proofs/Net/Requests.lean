import CloudRoster.Proofs.Net.Pending

/-!
# Replies find their requests

What can happen to a single call in one move is little (`Call.Step`): it stays, it goes on, or it
learns about its reply. A request that is in the queue and has been handed its reply can therefore
only end with it, unless it is abandoned. The guarantees for a session are the fields of `Matched`,
and `replies_find_requests` gives them for every sequence of events.

An event is a step: a call that is polled goes on to the point where it waits again, and nothing
happens in between. How events are mixed is free.
-/

namespace CloudRoster.Net

/-- What a request in the queue ends with: its reply, or the reason why there is none. As long as
the reply may still come, that is the end of its time. -/
def Reply.result : Reply → CallResult
  | .arrived m => .replied m
  | .lost => .failed .channelClosed
  | .awaited => .failed .timeout

/-- No request of a number waits for its reply, and none is taken under the number. -/
def Connection.Forgotten (c : Connection) (number : UInt64) : Prop :=
  (∀ entry ∈ c.pending, entry.1 ≠ number) ∧ ∀ m, (c.complete number m).2 = false

namespace Call

/-- What can become of the call at a place in one move. -/
inductive Step (e : ConnectionEvent) (i : Nat) (call : Call) : Call → Prop
  | stay : Step e i call call
  | enter {p : CallPhase} (hopened : call.isOver = false)
    (hhanded : ∀ m deadline, call.phase = .replying deadline → call.reply = .arrived m →
      p = .ended (.replied m) ∨ e = .abandon i) : Step e i call { call with phase := p }
  | learn {r : Reply} (hawaited : call.reply = .awaited) : Step e i call { call with reply := r }

/-- A call in the queue that was handed a reply, or has ended with it. -/
def IsServed (m : Message) (call : Call) : Prop :=
  call.reply = .arrived m ∧
    ((∃ deadline, call.phase = .replying deadline) ∨ call.phase = .ended (.replied m))

variable {e : ConnectionEvent} {i : Nat} {call call' : Call} {m : Message}

/-- A call that was handed a reply in time keeps it, unless it is abandoned. -/
theorem IsServed.step (h : call.IsServed m) (hstep : call.Step e i call') (hkept : e ≠ .abandon i) :
    call'.IsServed m := by
  cases hstep with
  | stay => exact h
  | enter hopened hhanded =>
    obtain ⟨harrived, ⟨deadline, hreplying⟩ | hended⟩ := h
    · rcases hhanded m deadline hreplying harrived with rfl | habandoned
      · exact ⟨harrived, .inr rfl⟩
      · exact absurd habandoned hkept
    · simp [isOver, hended] at hopened
  | learn hawaited =>
    rw [h.1] at hawaited
    cases hawaited

/-- A call that has ended stays as it ended. -/
theorem Step.ended {r : CallResult} (hstep : call.Step e i call') (h : call.phase = .ended r) :
    call'.phase = .ended r := by
  cases hstep with
  | stay => exact h
  | enter hopened _ => simp [isOver, h] at hopened
  | learn _ => exact h

theorem IsServed.result (h : call.IsServed m) (hpast : call.isOver = true) :
    call.result? = some (.replied m) := by
  obtain ⟨-, ⟨deadline, hreplying⟩ | hended⟩ := h
  · simp [isOver, hreplying] at hpast
  · simp [result?, hended]

end Call

namespace Books

variable {k : Nat} {b b' : Books} {e : ConnectionEvent} {i : Nat} {call : Call}

theorem step_modify {calls : List Call} (hfound : calls[i]? = some call) (j : Nat) {f : Call → Call}
    (hstep : j = i → call.Step e i (f call)) :
    ∃ call', (calls.modify j f)[i]? = some call' ∧ call.Step e i call' := by
  by_cases hhere : j = i
  · subst hhere
    refine ⟨f call, ?_, hstep rfl⟩
    rw [List.getElem?_modify_eq, hfound]
    rfl
  · refine ⟨call, ?_, .stay⟩
    rw [List.getElem?_modify_ne f _ hhere, hfound]

theorem calls_finish (b : Books) (i : Nat) (call : Call) (p : CallPhase) :
    (b.finish i call p).calls = (b.enter i p).calls := by
  unfold finish
  split <;> rfl

/-- What a move does to one call. -/
theorem Move.step (h : b.InOrder k) (hmove : Move e b b') (hfound : b.calls[i]? = some call) :
    ∃ call', b'.calls[i]? = some call' ∧ call.Step e i call' := by
  cases hmove with
  | disconnect => exact ⟨call, hfound, .stay⟩
  | add =>
    refine ⟨call, ?_, .stay⟩
    show (b.calls ++ [_])[i]? = _
    rw [List.getElem?_append_left (List.getElem?_eq_some_iff.mp hfound).1, hfound]
  | giveRoom hplaced hwaiting =>
    apply step_modify hfound
    rintro rfl
    obtain rfl := Option.some.inj (hfound.symm.trans hplaced)
    exact .enter (by simp [Call.isOver, hwaiting]) (by simp [hwaiting])
  | send hplaced hadmitted | post hplaced hadmitted =>
    apply step_modify hfound
    rintro rfl
    obtain rfl := Option.some.inj (hfound.symm.trans hplaced)
    exact .enter (by simp [Call.isOver, hadmitted]) (by simp [hadmitted])
  | finish hplaced hopened hreplied hkept =>
    rw [calls_finish]
    apply step_modify hfound
    rintro rfl
    obtain rfl := Option.some.inj (hfound.symm.trans hplaced)
    refine .enter hopened ?_
    intro m deadline hreplying harrived
    exact .inl (congrArg _ (hkept m deadline hreplying harrived))
  | abandon hplaced hopened hevent =>
    rw [calls_finish]
    apply step_modify hfound
    rintro rfl
    obtain rfl := Option.some.inj (hfound.symm.trans hplaced)
    exact .enter hopened fun _ _ _ _ => .inr hevent
  | reply hlisted | lose hlisted =>
    apply step_modify hfound
    rintro rfl
    obtain ⟨waiting, hplaced, hwaits, -⟩ := h.waiting_of_find hlisted
    obtain rfl := Option.some.inj (hfound.symm.trans hplaced)
    exact .learn (Call.awaits_iff.mp hwaits).2.2

/-- What every step of a call keeps, the moves keep. -/
theorem Moves.keeps {P : Call → Prop} (h : b.InOrder k) (hmoves : Moves e b b')
    (hstep : ∀ call call', call.Step e i call' → P call → P call')
    (hholds : ∃ call, b.calls[i]? = some call ∧ P call) :
    ∃ call, b'.calls[i]? = some call ∧ P call := by
  induction hmoves with
  | refl => exact hholds
  | tail hbefore hmove ih =>
    obtain ⟨call, hfound, hnow⟩ := ih
    obtain ⟨call', hfound', hone⟩ := hmove.step (h.moves hbefore) hfound
    exact ⟨call', hfound', hstep call call' hone hnow⟩

/-- Only a close disconnects. -/
theorem Moves.connected (hmoves : Moves e b b') (hother : e ≠ .close) :
    b'.connected = b.connected := by
  induction hmoves with
  | refl => rfl
  | tail _ hmove ih =>
    rw [← ih]
    cases hmove with
    | disconnect hevent => exact absurd hevent hother
    | finish | abandon =>
      unfold finish
      split <;> rfl
    | _ => rfl

end Books

namespace Session

open Books

variable {id : UInt64} {addr : SocketAddr} {capacity : Nat} {s : Session} {e : ConnectionEvent}
  {i k : Nat} {P : Call → Prop}

theorem connected_run (es : List ConnectionEvent) (hnever : .close ∉ es) :
    (s.run es).connection.connected = s.connection.connected := by
  induction es generalizing s with
  | nil => rfl
  | cons e es ih =>
    rw [List.mem_cons, not_or] at hnever
    have hone : (s.step e).books.connected = s.books.connected := by
      cases s.step_change e with
      | moves hmoves => exact hmoves.connected (Ne.symm hnever.1)
      | request hbefore hafter =>
        exact (hafter.connected (by simp)).trans (hbefore.connected (by simp))
    exact (ih hnever.2).trans hone

/-- What every step of a call keeps, an event keeps. -/
theorem step_keeps (h : s.books.InOrder k) (hfew : e.isRequest = true → k + 1 < UInt64.size)
    (hstep : ∀ call call', call.Step e i call' → P call → P call')
    (hholds : ∃ call, s.connection.calls[i]? = some call ∧ P call) :
    ∃ call, (s.step e).connection.calls[i]? = some call ∧ P call := by
  show ∃ call, (s.step e).books.calls[i]? = some call ∧ P call
  cases s.step_change e with
  | moves hmoves => exact hmoves.keeps h hstep hholds
  | request hbefore hafter =>
    obtain ⟨call, hfound, hnow⟩ := hbefore.keeps h hstep hholds
    refine hafter.keeps ((h.moves hbefore).register (hfew rfl) _ _) hstep ⟨call, ?_, hnow⟩
    show (_ ++ [_])[i]? = _
    rw [List.getElem?_append_left (List.getElem?_eq_some_iff.mp hfound).1, hfound]

/-- What every step of a call keeps, later events keep. -/
theorem run_keeps {es later : List ConnectionEvent}
    (hfew : (es ++ later).countP (·.isRequest) < UInt64.size)
    (hstep : ∀ e ∈ later, ∀ call call', call.Step e i call' → P call → P call')
    (hholds : ∃ call, ((new id addr capacity).run es).connection.calls[i]? = some call ∧ P call) :
    ∃ call, ((new id addr capacity).run (es ++ later)).connection.calls[i]? = some call ∧
      P call := by
  induction later using List.reverseRecOn with
  | nil => simpa using hholds
  | append_singleton later e ih =>
    rw [← List.append_assoc] at hfew ⊢
    rw [List.countP_append, List.countP_singleton] at hfew
    have hbefore := ih (by omega) fun e hlisted => hstep e (List.mem_append_left _ hlisted)
    obtain ⟨k, hle, horder⟩ := run_inOrder id addr capacity (es ++ later) (by omega)
    rw [run_append]
    apply step_keeps horder _ (hstep e (by simp)) hbefore
    intro hrequest
    rw [if_pos hrequest] at hfew
    omega

end Session

namespace Connection

variable {c : Connection} {i : Nat} {call : Call} {m : Message}

theorem getElem?_finish (hfound : c.calls[i]? = some call) (p : CallPhase) :
    (c.finish i call p).calls[i]? = some { call with phase := p } := by
  have hcalls : (c.finish i call p).calls = (c.enter i p).calls := by
    unfold finish
    split <;> rfl
  rw [hcalls]
  show (c.calls.modify i _)[i]? = _
  rw [List.getElem?_modify_eq, hfound]
  rfl

/-- A request in the queue ends when it is polled, unless its reply may still come in time. -/
theorem poll_ends (hfound : c.calls[i]? = some call) {deadline : Nat}
    (hreplying : call.phase = .replying deadline)
    (hends : call.reply ≠ .awaited ∨ deadline ≤ c.clock) :
    (c.poll i).calls[i]? = some { call with phase := .ended call.reply.result } := by
  have hlooks : c.poll i = c.look i call deadline := by simp only [poll, hfound, hreplying]
  have hfinish : c.look i call deadline = c.finish i call (.ended call.reply.result) := by
    unfold look
    cases hreply : call.reply with
    | arrived m | lost => rfl
    | awaited =>
      have hlate : deadline ≤ c.clock := hends.resolve_left fun hnot => hnot hreply
      exact if_pos hlate
  rw [hlooks, hfinish]
  exact getElem?_finish hfound _

/-- A call that was handed a reply ends with it when it is polled next. -/
theorem poll_served (hfound : c.calls[i]? = some call) (hserved : call.IsServed m) :
    ∃ call', (c.poll i).calls[i]? = some call' ∧ call'.phase = .ended (.replied m) := by
  obtain ⟨harrived, ⟨deadline, hreplying⟩ | hended⟩ := hserved
  · have hends := poll_ends hfound hreplying (.inl (by simp [harrived]))
    exact ⟨_, hends, by rw [harrived]; rfl⟩
  · have hsame : c.poll i = c := by simp only [poll, hfound, hended]
    rw [hsame]
    exact ⟨call, hfound, hended⟩

/-- A call that is not in the queue yet ends when it is polled after frames are taken off no
more. -/
theorem poll_refused (hfound : c.calls[i]? = some call)
    (hbefore : call.phase = .waiting ∨ call.phase = .admitted) (hclosed : c.receiving = false) :
    (c.poll i).calls[i]? = some { call with phase := .ended (.failed .channelClosed) } := by
  have hfinish : c.poll i = c.finish i call (.ended (.failed .channelClosed)) := by
    rcases hbefore with hphase | hphase <;> simp [poll, hfound, hphase, hclosed]
  rw [hfinish]
  exact getElem?_finish hfound _

/-- The room that becomes free is given to no call that is over. -/
theorem getElem?_admitNext (hfound : c.calls[i]? = some call) (hover : call.isOver = true) :
    c.admitNext.calls[i]? = some call := by
  unfold admitNext
  split
  · exact hfound
  · next j hfirst =>
    split
    · obtain ⟨hbound, hwaiting, -⟩ := List.findIdx?_eq_some_iff_getElem.mp hfirst
      -- the call that is given the room waits, so it is another one
      have hne : j ≠ i := by
        rintro rfl
        rw [List.getElem?_eq_getElem hbound, Option.some.injEq] at hfound
        rw [hfound] at hwaiting
        simp [Call.isOver, of_decide_eq_true hwaiting] at hover
      show (c.calls.modify j _)[i]? = _
      rw [List.getElem?_modify_ne _ _ hne, hfound]
    · exact hfound

/-- A call is abandoned, unless it has ended before. -/
theorem getElem?_abandon (hfound : c.calls[i]? = some call) :
    (c.abandon i).calls[i]? =
      some (if call.isOver then call else { call with phase := .abandoned }) := by
  unfold abandon
  simp only [hfound]
  split
  · exact hfound
  · exact getElem?_admitNext (getElem?_finish hfound .abandoned) rfl

/-- The request that a reply is handed to. -/
theorem complete_eq {number : UInt64} (hhanded : (c.complete number m).2 = true) :
    ∃ n i, c.pending.find? (·.1 = number) = some (n, i) ∧
      (c.complete number m).1 =
        (c.modify i fun call => { call with reply := .arrived m }).forget number := by
  unfold complete at hhanded ⊢
  cases hfound : c.pending.find? (·.1 = number) with
  | none => simp [hfound] at hhanded
  | some entry => exact ⟨entry.1, entry.2, rfl, rfl⟩

end Connection

namespace Books.InOrder

variable {k : Nat} {b : Books} {call : Call} {m : Message}

/-- A request that ended with a reply was handed that one and no other. -/
theorem replied (h : b.InOrder k) (hlisted : call ∈ b.calls)
    (hresult : call.result? = some (.replied m)) :
    call.isRequest = true ∧ b.taken.filter (·.1 = call.frame.id) = [(call.frame.id, m)] := by
  obtain ⟨i, hfound⟩ := List.mem_iff_getElem?.mp hlisted
  have hown := h.calls i call hfound
  have harrived := hown.result m hresult
  cases hrequest : call.isRequest with
  | false =>
    have hlost := hown.nothing hrequest
    rw [harrived] at hlost
    cases hlost
  | true =>
    refine ⟨rfl, ?_⟩
    rw [hown.replies hrequest, harrived]
    rfl

theorem mem_taken_iff (h : b.InOrder k) {i : Nat} (hfound : b.calls[i]? = some call)
    (hrequest : call.isRequest = true) :
    call.frame.id ∈ b.taken.map (·.1) ↔ ∃ m, call.reply = .arrived m := by
  have hreplies := (h.calls i call hfound).replies hrequest
  have hsome : call.frame.id ∈ b.taken.map (·.1) ↔
      b.taken.filter (·.1 = call.frame.id) ≠ [] := by
    simp [List.filter_eq_nil_iff]
  rw [hsome, hreplies]
  cases call.reply <;> simp [Reply.under]

theorem nodup_taken (h : b.InOrder k) : (b.taken.map (·.1)).Nodup := by
  rw [List.nodup_iff_count_le_one]
  intro n
  by_cases hseen : n ∈ b.taken.map (·.1)
  · obtain ⟨call, hlisted, hnumber⟩ := List.mem_filterMap.mp (h.known n (.inr hseen))
    obtain ⟨i, hfound⟩ := List.mem_iff_getElem?.mp hlisted
    have hrequest : call.isRequest = true ∧ call.frame.id = n := by
      unfold Call.number? at hnumber
      split at hnumber <;> simp_all
    obtain ⟨hrequest, rfl⟩ := hrequest
    have hreplies := (h.calls i call hfound).replies hrequest
    rw [List.count_eq_length_filter, List.filter_map, List.length_map]
    have hsame : ((· == call.frame.id) ∘ fun entry : UInt64 × Message => entry.1) =
        fun entry => decide (entry.1 = call.frame.id) := by
      funext entry
      exact beq_eq_decide ..
    rw [hsame, hreplies]
    cases call.reply <;> simp [Reply.under]
  · rw [List.count_eq_zero_of_not_mem hseen]
    omega

/-- A request that is over has no entry any more. -/
theorem not_pending (h : b.InOrder k) (hlisted : call ∈ b.calls) (hrequest : call.isRequest = true)
    (hpast : call.isOver = true) : ∀ entry ∈ b.pending, entry.1 ≠ call.frame.id := by
  rintro ⟨n, j⟩ hentry rfl
  rw [h.pending, mem_awaiting] at hentry
  obtain ⟨other, hplaced, hwaits, hsame⟩ := hentry
  obtain ⟨i, hfound⟩ := List.mem_iff_getElem?.mp hlisted
  obtain ⟨hasks, hopened, -⟩ := Call.awaits_iff.mp hwaits
  obtain rfl := h.place_unique hplaced hfound hasks hrequest hsame
  obtain rfl := Option.some.inj (hfound.symm.trans hplaced)
  rw [hpast] at hopened
  cases hopened

/-- The entries are counted by the requests in flight that were handed no reply. -/
theorem length_pending (h : b.InOrder k) (hconnected : b.connected = true) :
    b.pending.length = b.calls.countP fun call =>
      call.isRequest && !call.isOver && decide (call.frame.id ∉ b.taken.map (·.1)) := by
  rw [h.pending, length_awaiting]
  apply List.countP_congr
  intro call hlisted
  obtain ⟨i, hfound⟩ := List.mem_iff_getElem?.mp hlisted
  cases hrequest : call.isRequest with
  | false => simp [Call.awaits, hrequest]
  | true =>
    have hkept := (h.calls i call hfound).kept hconnected hrequest
    have htaken := h.mem_taken_iff hfound hrequest
    cases hreply : call.reply with
    | awaited => simp_all [Call.awaits]
    | arrived m => simp_all [Call.awaits]
    | lost => exact absurd hreply hkept

end Books.InOrder

namespace Session

open Books

variable {s : Session} {k : Nat} {number : UInt64} {m : Message}

/-- A reply is taken exactly if the request of its number still waits for it. -/
theorem complete_iff_waits (h : s.books.InOrder k) : (s.connection.complete number m).2 = true ↔
    ∃ call ∈ s.connection.calls, call.isRequest = true ∧ call.frame.id = number ∧
      call.isOver = false ∧ call.reply = .awaited := by
  constructor
  · intro hhanded
    obtain ⟨n, i, hlisted, -⟩ := Connection.complete_eq hhanded
    obtain ⟨call, hfound, hwaits, hsame⟩ := h.waiting_of_find hlisted
    obtain ⟨hrequest, hopened, hawaited⟩ := Call.awaits_iff.mp hwaits
    exact ⟨call, List.mem_of_getElem? hfound, hrequest, hsame, hopened, hawaited⟩
  · rintro ⟨call, hlisted, hrequest, rfl, hopened, hawaited⟩
    obtain ⟨i, hfound⟩ := List.mem_iff_getElem?.mp hlisted
    have hwaits : call.awaits = true := Call.awaits_iff.mpr ⟨hrequest, hopened, hawaited⟩
    have hentry : (call.frame.id, i) ∈ s.connection.pending := by
      show _ ∈ s.books.pending
      rw [h.pending]
      exact mem_awaiting.mpr ⟨call, hfound, hwaits, rfl⟩
    unfold Connection.complete
    cases hsearch : s.connection.pending.find? (·.1 = call.frame.id) with
    | none => exact absurd (List.find?_eq_none.mp hsearch _ hentry) (by simp)
    | some found => rfl

/-- A request that is over, in whatever way, is forgotten. -/
theorem forgotten_of_isOver (h : s.books.InOrder k) {call : Call}
    (hlisted : call ∈ s.connection.calls) (hrequest : call.isRequest = true)
    (hover : call.isOver = true) : s.connection.Forgotten call.frame.id := by
  have hgone := h.not_pending hlisted hrequest hover
  -- a reply that is taken would have found an entry of that number
  refine ⟨hgone, fun m => ?_⟩
  rw [Bool.eq_false_iff]
  intro hhanded
  obtain ⟨n, i, hentry, -⟩ := Connection.complete_eq hhanded
  have hnumber : n = call.frame.id := by simpa using List.find?_some hentry
  exact hgone _ (List.mem_of_find?_eq_some hentry) hnumber

/-- A request that is over with an event is forgotten with that event. -/
theorem forgotten_step (h : s.books.InOrder k) {e : ConnectionEvent} (hother : e.isRequest = false)
    {i : Nat} {call : Call} (hfound : (s.step e).connection.calls[i]? = some call)
    (hrequest : call.isRequest = true) (hover : call.isOver = true) :
    (s.step e).connection.Forgotten call.frame.id := by
  obtain ⟨j, -, hnext⟩ := step_inOrder h e (by simp [hother])
  exact forgotten_of_isOver hnext (List.mem_of_getElem? hfound) hrequest hover

/-- A request that is in the queue by then has its reply when one is handed over. -/
theorem served_of_complete (h : s.books.InOrder k)
    (hhanded : (s.connection.complete number m).2 = true) {i : Nat} {call : Call}
    (hfound : s.connection.calls[i]? = some call) (hrequest : call.isRequest = true)
    (hsame : call.frame.id = number) (hqueued : call.frame ∈ s.queued) :
    ∃ call', (s.step (.complete number m)).connection.calls[i]? = some call' ∧
      call'.IsServed m := by
  obtain ⟨n, j, hlisted, hcompleted⟩ := Connection.complete_eq hhanded
  obtain ⟨other, hplaced, hwaits, rfl⟩ := h.waiting_of_find hlisted
  obtain ⟨hasks, hopened, hawaited⟩ := Call.awaits_iff.mp hwaits
  obtain rfl := h.place_unique hplaced hfound hasks hrequest hsame.symm
  obtain rfl := Option.some.inj (hfound.symm.trans hplaced)
  have hsent : call.frame.id ∈ sent s.queued :=
    List.mem_map.mpr ⟨call.frame, List.mem_filter.mpr
      ⟨hqueued, by simp [(h.calls j call hfound).asks hrequest]⟩, rfl⟩
  have hreplying : ∃ deadline, call.phase = .replying deadline := by
    have hunsent := (h.calls j call hfound).unsent hrequest
    cases hphase : call.phase with
    | waiting => exact absurd hsent (hunsent (.inl hphase))
    | admitted => exact absurd hsent (hunsent (.inr hphase))
    | replying deadline => exact ⟨deadline, rfl⟩
    | ended r => simp [Call.isOver, hphase] at hopened
    | abandoned => simp [Call.isOver, hphase] at hopened
  refine ⟨{ call with reply := .arrived m }, ?_, rfl, .inl hreplying⟩
  show (s.connection.complete call.frame.id m).1.calls[j]? = _
  rw [hcompleted]
  show (s.connection.calls.modify j _)[j]? = _
  rw [List.getElem?_modify_eq, hfound]
  rfl

/-- How requests and replies go together in a session, and later on. -/
structure Matched (s : Session) (later : List ConnectionEvent) : Prop where
  /-- The requests that were ever queued have numbers of their own. -/
  numbers : (sent s.queued).Nodup
  /-- A request ends with a reply only if that is the one reply taken under its number. -/
  replied : ∀ call ∈ s.connection.calls, ∀ m, call.result? = some (.replied m) →
    call.isRequest = true ∧ s.taken.filter (·.1 = call.frame.id) = [(call.frame.id, m)]
  /-- At most one reply is taken under a number. -/
  once : (s.taken.map (·.1)).Nodup
  /-- A reply is taken while the request of its number waits for it, and only then. -/
  waiting : ∀ number m, (s.connection.complete number m).2 = true ↔
    ∃ call ∈ s.connection.calls, call.isRequest = true ∧ call.frame.id = number ∧
      call.isOver = false ∧ call.reply = .awaited
  /-- A request in the queue whose reply is taken, and that is not abandoned, ends with that reply
  if it ends, and it ends once it is polled. -/
  returned : ∀ number m, (s.connection.complete number m).2 = true →
    ∀ i call, s.connection.calls[i]? = some call → call.isRequest = true →
      call.frame.id = number → call.frame ∈ s.queued → .abandon i ∉ later →
      ∃ call', ((s.step (.complete number m)).run later).connection.calls[i]? = some call' ∧
        (call'.isOver = true → call'.result? = some (.replied m)) ∧
        (.poll i ∈ later → call'.result? = some (.replied m))
  /-- A request that is over, in whatever way, is forgotten. -/
  gone : ∀ call ∈ s.connection.calls, call.isRequest = true → call.isOver = true →
    s.connection.Forgotten call.frame.id
  /-- A request in the queue whose reply is there or lost, or whose time is up, ends with that when
  it is polled, and is forgotten. -/
  ended : ∀ i call deadline, s.connection.calls[i]? = some call → call.isRequest = true →
    call.phase = .replying deadline → (call.reply ≠ .awaited ∨ deadline ≤ s.connection.clock) →
    (s.step (.poll i)).connection.calls[i]? =
        some { call with phase := .ended call.reply.result } ∧
      (s.step (.poll i)).connection.Forgotten call.frame.id
  /-- A request that is not in the queue yet when frames are taken off no more fails when it is
  polled, and is forgotten. -/
  refused : ∀ i call, s.connection.calls[i]? = some call → call.isRequest = true →
    (call.phase = .waiting ∨ call.phase = .admitted) → s.connection.receiving = false →
    (s.step (.poll i)).connection.calls[i]? =
        some { call with phase := .ended (.failed .channelClosed) } ∧
      (s.step (.poll i)).connection.Forgotten call.frame.id
  /-- A request that is abandoned is over, however far it was, and is forgotten. -/
  abandoned : ∀ i call, s.connection.calls[i]? = some call → call.isRequest = true →
    (s.step (.abandon i)).connection.calls[i]? =
        some (if call.isOver then call else { call with phase := .abandoned }) ∧
      (s.step (.abandon i)).connection.Forgotten call.frame.id

/-- A call that was handed its reply in time ends with it in whatever comes, as long as it is not
abandoned: it has that end once it was polled. -/
theorem returned_of_served {id : UInt64} {addr : SocketAddr} {capacity i : Nat}
    {es later : List ConnectionEvent} (hfew : (es ++ later).countP (·.isRequest) < UInt64.size)
    (hkept : .abandon i ∉ later)
    (hserved : ∃ call, ((new id addr capacity).run es).connection.calls[i]? = some call ∧
      call.IsServed m) :
    ∃ call, ((new id addr capacity).run (es ++ later)).connection.calls[i]? = some call ∧
      (call.isOver = true → call.result? = some (.replied m)) ∧
      (.poll i ∈ later → call.result? = some (.replied m)) := by
  have hstays {before : List ConnectionEvent} (hlisted : ∀ e ∈ before, e ∈ later) :
      ∀ e ∈ before, ∀ call call' : Call,
        call.Step e i call' → call.IsServed m → call'.IsServed m := by
    intro e hhere call call' hstep hnow
    apply hnow.step hstep
    rintro rfl
    exact hkept (hlisted _ hhere)
  by_cases hpolled : .poll i ∈ later
  · obtain ⟨before, after, rfl⟩ := List.append_of_mem hpolled
    have hsplit : es ++ (before ++ .poll i :: after) = es ++ before ++ [.poll i] ++ after := by simp
    rw [hsplit] at hfew ⊢
    have hfewer : (es ++ before).countP (·.isRequest) < UInt64.size := by
      simp only [List.countP_append] at hfew ⊢
      omega
    obtain ⟨call, hfound, hnow⟩ := run_keeps (i := i) (P := Call.IsServed m) hfewer
      (hstays fun _ h => List.mem_append_left _ h) hserved
    obtain ⟨call', hfound', hended⟩ := Connection.poll_served hfound hnow
    obtain ⟨call'', hfound'', hended''⟩ := run_keeps (i := i)
      (P := fun call => call.phase = .ended (.replied m)) hfew
      (fun _ _ _ _ hstep => hstep.ended) ⟨call', by rw [run_append]; exact hfound', hended⟩
    have hresult : call''.result? = some (.replied m) := by simp [Call.result?, hended'']
    exact ⟨call'', hfound'', fun _ => hresult, fun _ => hresult⟩
  · obtain ⟨call, hfound, hnow⟩ := run_keeps (i := i) hfew (hstays fun _ h => h) hserved
    exact ⟨call, hfound, hnow.result, fun h => absurd h hpolled⟩

/-- However requests, replies, times that are up, calls that are abandoned and `close` follow each
other on a connection, with fewer requests than there are numbers: a request is only ever answered
with the one reply that was taken under its number, a reply that is taken in time is not lost, a
request that ends or is abandoned is forgotten, and as long as the connection is open the table of
waiting requests has one entry for every request in flight that was handed no reply yet. -/
theorem replies_find_requests (id : UInt64) (addr : SocketAddr) (capacity : Nat)
    (es later : List ConnectionEvent) (hfew : (es ++ later).countP (·.isRequest) < UInt64.size) :
    let s := (new id addr capacity).run es
    s.Matched later ∧
      (.close ∉ es → s.connection.pending.length = s.connection.calls.countP fun call =>
        call.isRequest && !call.isOver && decide (call.frame.id ∉ s.taken.map (·.1))) := by
  intro s
  have hfewer : es.countP (·.isRequest) < UInt64.size := by
    rw [List.countP_append] at hfew
    omega
  obtain ⟨k, -, horder⟩ := run_inOrder id addr capacity es hfewer
  constructor
  · refine ⟨horder.once, fun call hlisted m => horder.replied hlisted, horder.nodup_taken,
      fun number m => complete_iff_waits horder, ?_, fun call => forgotten_of_isOver horder,
      fun i call deadline hfound hrequest hreplying hends => ?_,
      fun i call hfound hrequest hbefore hclosed => ?_, fun i call hfound hrequest => ?_⟩
    · intro number m hhanded i call hfound hrequest hsame hqueued hkept
      have hserved := served_of_complete horder hhanded hfound hrequest hsame hqueued
      have hrun : (s.step (.complete number m)).run later =
          (new id addr capacity).run (es ++ [.complete number m] ++ later) := by
        rw [run_append, run_append]
        rfl
      rw [hrun]
      apply returned_of_served _ hkept
      · rw [run_append]
        exact hserved
      · simpa [List.countP_append, ConnectionEvent.isRequest] using hfew
    · have hended := Connection.poll_ends hfound hreplying hends
      have hforgotten := forgotten_step (e := .poll i) horder rfl hended hrequest rfl
      exact ⟨hended, hforgotten⟩
    · have hended := Connection.poll_refused hfound hbefore hclosed
      have hforgotten := forgotten_step (e := .poll i) horder rfl hended hrequest rfl
      exact ⟨hended, hforgotten⟩
    · have habandoned := Connection.getElem?_abandon hfound
      refine ⟨habandoned, ?_⟩
      -- a request that had ended was forgotten before, any other one is forgotten now
      split at habandoned
      · next hover =>
        exact forgotten_step (e := .abandon i) horder rfl habandoned hrequest hover
      · have hforgotten := forgotten_step (e := .abandon i) horder rfl habandoned hrequest rfl
        exact hforgotten
  · intro hnever
    exact horder.length_pending (connected_run es hnever)

/-- A ping is answered by the pong under its number. -/
theorem ping_finds_pong :
    let s := (new 1 (.v4 [127, 0, 0, 1] 1630) 8).run [.request (.ping 7) 1000]
    ∃ call, ((s.step (.complete 1 (.pong 7))).run [.poll 0]).connection.calls[0]? = some call ∧
      call.result? = some (.replied (.pong 7)) := by
  intro s
  obtain ⟨hmatched, -⟩ := replies_find_requests 1 (.v4 [127, 0, 0, 1] 1630) 8
    [.request (.ping 7) 1000] [.poll 0] (by decide)
  obtain ⟨call, hfound, -, hpolled⟩ := hmatched.returned 1 (.pong 7) (by decide) 0 _ rfl rfl rfl
    (by decide) (by decide)
  exact ⟨call, hfound, hpolled (by decide)⟩

end Session

end CloudRoster.Net
