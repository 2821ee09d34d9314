import CloudRoster.Proofs.Net.Session
import Mathlib.Data.List.Nodup

/-!
# Books in order

The requests of a connection have the numbers from one on, and the table of waiting requests is no
more than a view of the calls: it holds exactly the open requests whose reply is neither here nor
lost. Books are in order if so, and if of every call the reply, the frame in the queue and the end
agree. Every move keeps them in order, and a new request does as long as there is a number left.
-/

namespace CloudRoster.Net

/-- A reply that came, under a number. -/
def Reply.under (number : UInt64) : Reply → List (UInt64 × Message)
  | .arrived m => [(number, m)]
  | _ => []

namespace Call

/-- Whether the call is a request that still waits for its reply. -/
def awaits (call : Call) : Bool :=
  call.isRequest && !call.isOver && decide (call.reply = .awaited)

/-- The number of a request. -/
def number? (call : Call) : Option UInt64 := if call.isRequest then some call.frame.id else none

theorem awaits_iff {call : Call} : call.awaits = true ↔
    call.isRequest = true ∧ call.isOver = false ∧ call.reply = .awaited := by
  simp [awaits, and_assoc]

end Call

namespace Books

/-! ## The table as a view of the calls -/

/-- The entry of a call in the table of waiting requests. -/
def slot? (placed : Call × Nat) : Option (UInt64 × Nat) :=
  if placed.1.awaits then some (placed.1.frame.id, placed.2) else none

/-- The entries of the requests that wait for a reply, in the order of the calls. -/
def awaiting (calls : List Call) : List (UInt64 × Nat) := calls.zipIdx.filterMap slot?

section Awaiting

variable {calls : List Call} {f : Call → Call} {i : Nat}

theorem mem_awaiting {n : UInt64} : (n, i) ∈ awaiting calls ↔
    ∃ call, calls[i]? = some call ∧ call.awaits = true ∧ call.frame.id = n := by
  simp only [awaiting, List.mem_filterMap, slot?, Prod.exists]
  constructor
  · rintro ⟨call, j, hplaced, hentry⟩
    split at hentry
    · next hwaits =>
      cases hentry
      exact ⟨call, List.mk_mem_zipIdx_iff_getElem?.mp hplaced, hwaits, rfl⟩
    · cases hentry
  · rintro ⟨call, hfound, hwaits, rfl⟩
    exact ⟨call, i, List.mk_mem_zipIdx_iff_getElem?.mpr hfound, by simp [hwaits]⟩

theorem awaiting_append (calls : List Call) (call : Call) : awaiting (calls ++ [call]) =
    awaiting calls ++ if call.awaits then [(call.frame.id, calls.length)] else [] := by
  unfold awaiting
  rw [List.zipIdx_append, List.filterMap_append]
  congr 1
  cases hwaits : call.awaits with
  | false => simp [slot?, hwaits]
  | true => simp [slot?, hwaits]

theorem found_append {call added : Call} (hfound : (calls ++ [call])[i]? = some added) :
    calls[i]? = some added ∨ added = call := by
  rw [List.getElem?_append] at hfound
  split at hfound
  · exact .inl hfound
  · exact .inr (List.mem_singleton.mp (List.mem_of_getElem? hfound))

theorem length_awaiting (calls : List Call) :
    (awaiting calls).length = calls.countP (·.awaits) := by
  have hisSome (placed : Call × Nat) : (slot? placed).isSome = placed.1.awaits := by
    unfold slot?
    split <;> simp_all
  rw [awaiting, List.length_filterMap_eq_countP]
  conv_rhs => rw [← List.zipIdx_map_fst 0 calls, List.countP_map]
  simp only [hisSome]
  rfl

theorem zipIdx_modify (calls : List Call) (i : Nat) (f : Call → Call) :
    (calls.modify i f).zipIdx =
      calls.zipIdx.map fun placed => (if i = placed.2 then f placed.1 else placed.1, placed.2) := by
  apply List.ext_getElem?
  intro j
  simp only [List.getElem?_zipIdx, List.getElem?_map, List.getElem?_modify, Option.map_map]
  cases calls[j]? with
  | none => rfl
  | some call => simp

/-- A change of a call that concerns neither its number nor its waiting. -/
theorem awaiting_modify_same {call : Call} (hfound : calls[i]? = some call)
    (hwaits : (f call).awaits = call.awaits) (hframe : (f call).frame = call.frame) :
    awaiting (calls.modify i f) = awaiting calls := by
  rw [awaiting, zipIdx_modify, List.filterMap_map]
  apply List.filterMap_congr
  rintro ⟨other, j⟩ hplaced
  simp only [Function.comp]
  split
  · next h =>
    subst h
    obtain rfl := Option.some.inj (hfound.symm.trans (List.mk_mem_zipIdx_iff_getElem?.mp hplaced))
    simp only [slot?, hwaits, hframe]
  · rfl

/-- A call that waits no more. -/
theorem awaiting_modify_end {call : Call} (hfound : calls[i]? = some call)
    (hended : (f call).awaits = false) :
    awaiting (calls.modify i f) = (awaiting calls).filter (·.2 ≠ i) := by
  rw [awaiting, zipIdx_modify, List.filterMap_map, awaiting, List.filter_filterMap]
  apply List.filterMap_congr
  rintro ⟨other, j⟩ hplaced
  simp only [Function.comp]
  split
  · next h =>
    subst h
    obtain rfl := Option.some.inj (hfound.symm.trans (List.mk_mem_zipIdx_iff_getElem?.mp hplaced))
    cases hwaits : call.awaits with
    | false => simp [slot?, hended, hwaits]
    | true => simp [slot?, hended, hwaits, Option.filter]
  · next h =>
    cases hwaits : other.awaits with
    | false => simp [slot?, hwaits]
    | true => simp [slot?, hwaits, Option.filter, Ne.symm h]

end Awaiting

/-! ## Numbers -/

/-- The numbers of the requests, in the order of the calls. -/
def numbers (calls : List Call) : List UInt64 := calls.filterMap Call.number?

/-- The numbers of the requests among frames. -/
def sent (queued : List Frame) : List UInt64 := (queued.filter (·.kind = .request)).map (·.id)

theorem numbers_modify {f : Call → Call} (hsame : ∀ call, (f call).number? = call.number?)
    (calls : List Call) (i : Nat) : numbers (calls.modify i f) = numbers calls := by
  induction calls generalizing i with
  | nil => simp
  | cons call calls ih =>
    cases i with
    | zero => simp [numbers, List.filterMap_cons, hsame]
    | succ i =>
      have hrest := ih i
      unfold numbers at hrest ⊢
      simp only [List.modify_succ_cons, List.filterMap_cons, hrest]

/-- Fewer numbers than there are do not repeat, and the next one is not among them. -/
theorem number_injective {i j : Nat} (hi : i + 1 < UInt64.size) (hj : j < UInt64.size)
    (h : UInt64.ofNat (i + 1) = UInt64.ofNat (j + 1)) : i = j := by
  have hvalues := congrArg UInt64.toNat h
  unfold UInt64.size at hi hj
  rw [UInt64.toNat_ofNat', UInt64.toNat_ofNat', Nat.mod_eq_of_lt hi] at hvalues
  omega

end Books

/-! ## Order -/

/-- What of a call agrees with the flag of the connection, what was queued and what was taken. -/
structure Call.InOrder (connected : Bool) (queued : List Frame) (taken : List (UInt64 × Message))
    (call : Call) : Prop where
  asks : call.isRequest = true → call.frame.kind = .request
  answers : call.isRequest = false → call.isOver = false → call.frame.kind = .response
  /-- Nothing is replied to what is no request. -/
  nothing : call.isRequest = false → call.reply = .lost
  /-- The reply is what was taken under the number. -/
  replies : call.isRequest = true → taken.filter (·.1 = call.frame.id) =
    call.reply.under call.frame.id
  result : ∀ m, call.result? = some (.replied m) → call.reply = .arrived m
  /-- A request that waits for room is not in the queue yet. -/
  unsent : call.isRequest = true → call.phase = .waiting ∨ call.phase = .admitted →
    call.frame.id ∉ Books.sent queued
  kept : connected = true → call.isRequest = true → call.reply ≠ .lost

namespace Books

/-- The books are in order after a number of requests. -/
structure InOrder (k : Nat) (b : Books) : Prop where
  few : k < UInt64.size
  next : b.nextNumber = .ofNat (k + 1)
  numbers : numbers b.calls = (List.range k).map fun j => .ofNat (j + 1)
  pending : b.pending = awaiting b.calls
  calls : ∀ (i : Nat) (call : Call), b.calls[i]? = some call →
    call.InOrder b.connected b.queued b.taken
  /-- Only numbers that were given are queued and taken. -/
  known : ∀ n, n ∈ sent b.queued ∨ n ∈ b.taken.map (·.1) → n ∈ Books.numbers b.calls
  once : (sent b.queued).Nodup

namespace InOrder

variable {k : Nat} {b b' : Books} {e : ConnectionEvent} {i : Nat} {call : Call}

theorem nodup_numbers (h : b.InOrder k) : (Books.numbers b.calls).Nodup := by
  rw [h.numbers]
  apply List.Nodup.map_on _ List.nodup_range
  intro i hi j hj hsame
  have hfew := h.few
  rw [List.mem_range] at hi hj
  exact number_injective (by omega) (by omega) hsame

/-- Requests at two places have two numbers. -/
theorem place_unique (h : b.InOrder k) {i j : Nat} {x y : Call} (hx : b.calls[i]? = some x)
    (hy : b.calls[j]? = some y) (rx : x.isRequest = true) (ry : y.isRequest = true)
    (hsame : x.frame.id = y.frame.id) : i = j := by
  have hapart := List.pairwise_iff_getElem.mp (List.pairwise_filterMap.mp h.nodup_numbers)
  obtain ⟨hi, rfl⟩ := List.getElem?_eq_some_iff.mp hx
  obtain ⟨hj, rfl⟩ := List.getElem?_eq_some_iff.mp hy
  rcases Nat.lt_trichotomy i j with hbefore | rfl | hafter
  · exact absurd hsame
      (hapart i j hi hj hbefore _ (by simp [Call.number?, rx]) _ (by simp [Call.number?, ry]))
  · rfl
  · exact absurd hsame.symm
      (hapart j i hj hi hafter _ (by simp [Call.number?, ry]) _ (by simp [Call.number?, rx]))

theorem next_fresh (h : b.InOrder k) : b.nextNumber ∉ Books.numbers b.calls := by
  rw [h.next, h.numbers, List.mem_map]
  rintro ⟨j, hj, hsame⟩
  rw [List.mem_range] at hj
  have hfew := h.few
  have := number_injective (by omega) hfew hsame
  omega

theorem mem_numbers (hfound : b.calls[i]? = some call) (hrequest : call.isRequest = true) :
    call.frame.id ∈ Books.numbers b.calls :=
  List.mem_filterMap.mpr ⟨call, List.mem_of_getElem? hfound, by simp [Call.number?, hrequest]⟩

/-- A found entry belongs to the request that waits under that number. -/
theorem waiting_of_find (h : b.InOrder k) {n number : UInt64}
    (hfound : b.pending.find? (·.1 = number) = some (n, i)) :
    ∃ call, b.calls[i]? = some call ∧ call.awaits = true ∧ call.frame.id = number := by
  have hlisted := List.mem_of_find?_eq_some hfound
  have hsame : n = number := by simpa using List.find?_some hfound
  rw [h.pending, mem_awaiting, hsame] at hlisted
  exact hlisted

/-- To forget the number of a request is to strike out its place. -/
theorem filter_pending (h : b.InOrder k) (hfound : b.calls[i]? = some call)
    (hrequest : call.isRequest = true) :
    b.pending.filter (·.1 ≠ call.frame.id) = (awaiting b.calls).filter (·.2 ≠ i) := by
  rw [h.pending]
  apply List.filter_congr
  rintro ⟨n, j⟩ hlisted
  obtain ⟨other, hplaced, hwaits, rfl⟩ := mem_awaiting.mp hlisted
  have hiff : other.frame.id = call.frame.id ↔ j = i := by
    constructor
    · exact h.place_unique hplaced hfound (Call.awaits_iff.mp hwaits).1 hrequest
    · rintro rfl
      rw [Option.some.inj (hfound.symm.trans hplaced)]
  simp [hiff]

/-- Books stay in order when one call changes and goes on to agree with them, and the others do. -/
theorem change (h : b.InOrder k) (hfound : b.calls[i]? = some call) {f : Call → Call}
    (hcalls : b'.calls = b.calls.modify i f)
    (hsame : ∀ call, (f call).isRequest = call.isRequest ∧ (f call).frame = call.frame)
    (hnext : b'.nextNumber = b.nextNumber) (hpending : b'.pending = awaiting b'.calls)
    (hchanged : (f call).InOrder b'.connected b'.queued b'.taken)
    (hothers : ∀ other : Call,
      (other.isRequest = true → call.isRequest = true → other.frame.id ≠ call.frame.id) →
      other.InOrder b.connected b.queued b.taken → other.InOrder b'.connected b'.queued b'.taken)
    (hknown : ∀ n, n ∈ sent b'.queued ∨ n ∈ b'.taken.map (·.1) → n ∈ Books.numbers b.calls)
    (honce : (sent b'.queued).Nodup) : b'.InOrder k := by
  have hnumbers : Books.numbers b'.calls = Books.numbers b.calls := by
    rw [hcalls]
    apply numbers_modify
    intro call
    rw [Call.number?, (hsame call).1, (hsame call).2, Call.number?]
  refine ⟨h.few, ?_, ?_, hpending, ?_, ?_, honce⟩
  · rw [hnext, h.next]
  · rw [hnumbers, h.numbers]
  · intro j other hplaced
    rw [hcalls] at hplaced
    by_cases hhere : i = j
    · subst hhere
      rw [List.getElem?_modify_eq, hfound] at hplaced
      cases hplaced
      exact hchanged
    · rw [List.getElem?_modify_ne f _ hhere] at hplaced
      refine hothers other ?_ (h.calls j other hplaced)
      intro ro rc hsameNumber
      exact hhere (h.place_unique hfound hplaced rc ro hsameNumber.symm)
  · rw [hnumbers]
    exact hknown

/-- Books stay in order when nothing but a call changes, and neither its number nor its waiting. -/
theorem enter (h : b.InOrder k) (hfound : b.calls[i]? = some call) {p : CallPhase}
    (hwaits : { call with phase := p }.awaits = call.awaits)
    (hchanged : { call with phase := p }.InOrder b.connected b.queued b.taken) :
    (b.enter i p).InOrder k := by
  refine h.change hfound rfl (fun _ => ⟨rfl, rfl⟩) rfl ?_ hchanged (fun _ _ h => h) h.known h.once
  show b.pending = awaiting (b.calls.modify i _)
  rw [awaiting_modify_same hfound hwaits rfl, h.pending]

theorem finish (h : b.InOrder k) (hfound : b.calls[i]? = some call) {p : CallPhase}
    (hpast : { call with phase := p }.isOver = true)
    (hreplied : ∀ m, p = .ended (.replied m) → call.reply = .arrived m) :
    (b.finish i call p).InOrder k := by
  have hended : { call with phase := p }.awaits = false := by simp [Call.awaits, hpast]
  have hown := h.calls i call hfound
  have hchanged : { call with phase := p }.InOrder b.connected b.queued b.taken := by
    refine ⟨hown.asks, ?_, hown.nothing, hown.replies, ?_, ?_, hown.kept⟩
    · intro _ hopened
      rw [hpast] at hopened
      cases hopened
    · intro m hresult
      apply hreplied
      cases p <;> simp_all [Call.result?]
    · rintro - (hwaiting | hadmitted) <;> simp_all [Call.isOver]
  cases hrequest : call.isRequest with
  | false =>
    rw [Books.finish, hrequest]
    apply h.enter hfound _ hchanged
    rw [hended, Call.awaits, hrequest]
    rfl
  | true =>
    rw [Books.finish, hrequest, if_pos rfl]
    refine h.change hfound rfl (fun _ => ⟨rfl, rfl⟩) rfl ?_ hchanged (fun _ _ h => h) h.known h.once
    show b.pending.filter (·.1 ≠ call.frame.id) = awaiting (b.calls.modify i _)
    rw [h.filter_pending hfound hrequest, awaiting_modify_end hfound hended]

theorem disconnect (h : b.InOrder k) : { b with connected := false }.InOrder k := by
  refine ⟨h.few, h.next, h.numbers, h.pending, ?_, h.known, h.once⟩
  intro i call hfound
  exact { h.calls i call hfound with kept := by simp }

theorem add (h : b.InOrder k) (hother : call.isRequest = false) (hlost : call.reply = .lost)
    (hphase : call.phase = .waiting ∧ call.frame.kind = .response ∨
      ∃ error, call.phase = .ended (.failed error)) : (b.add call).InOrder k := by
  have hnoNumber : Books.numbers (b.calls ++ [call]) = Books.numbers b.calls := by
    simp [Books.numbers, Call.number?, hother]
  have hnoEntry : awaiting (b.calls ++ [call]) = awaiting b.calls := by
    simp [awaiting_append, Call.awaits, hother]
  refine ⟨h.few, h.next, hnoNumber.trans h.numbers, h.pending.trans hnoEntry.symm, ?_, ?_, h.once⟩
  · intro i added hfound
    rcases found_append hfound with hold | rfl
    · exact h.calls i added hold
    · refine ⟨?_, ?_, fun _ => hlost, ?_, ?_, ?_, ?_⟩
      · simp [hother]
      · intro _ hopened
        rcases hphase with ⟨-, hkind⟩ | ⟨error, hended⟩
        · exact hkind
        · simp [Call.isOver, hended] at hopened
      · simp [hother]
      · intro m hresult
        rcases hphase with ⟨hwaiting, -⟩ | ⟨error, hended⟩ <;> simp_all [Call.result?]
      · simp [hother]
      · simp [hother]
  · show ∀ n, _ → n ∈ Books.numbers (b.calls ++ [call])
    rw [hnoNumber]
    exact h.known

/-- A reply to the peer says nothing about the requests in the queue. -/
theorem queue_response (h : b.InOrder k) {f : Frame} (hkind : f.kind = .response) :
    (b.queue f).InOrder k := by
  have hsame : sent (b.queued ++ [f]) = sent b.queued := by simp [sent, hkind]
  refine ⟨h.few, h.next, h.numbers, h.pending, ?_, ?_, ?_⟩
  · intro i call hfound
    refine { h.calls i call hfound with unsent := ?_ }
    show _ → _ → _ ∉ sent (b.queued ++ [f])
    rw [hsame]
    exact (h.calls i call hfound).unsent
  · show ∀ n, n ∈ sent (b.queued ++ [f]) ∨ _ → _
    rw [hsame]
    exact h.known
  · show (sent (b.queued ++ [f])).Nodup
    rw [hsame]
    exact h.once

/-- A request comes into the queue that waits for room no more. -/
theorem queue_request (h : b.InOrder k) (hfound : b.calls[i]? = some call)
    (hrequest : call.isRequest = true) (hleft : call.phase ≠ .waiting ∧ call.phase ≠ .admitted)
    (hfresh : call.frame.id ∉ sent b.queued) : (b.queue call.frame).InOrder k := by
  have hgrown : sent (b.queued ++ [call.frame]) = sent b.queued ++ [call.frame.id] := by
    simp [sent, (h.calls i call hfound).asks hrequest]
  refine ⟨h.few, h.next, h.numbers, h.pending, ?_, ?_, ?_⟩
  · intro j other hplaced
    refine { h.calls j other hplaced with unsent := ?_ }
    intro hasks hphase
    show other.frame.id ∉ sent (b.queued ++ [call.frame])
    rw [hgrown, List.mem_append, List.mem_singleton]
    rintro (hbefore | hsame)
    · exact (h.calls j other hplaced).unsent hasks hphase hbefore
    · have hhere := h.place_unique hplaced hfound hasks hrequest hsame
      subst hhere
      obtain rfl : call = other := Option.some.inj (hfound.symm.trans hplaced)
      exact hphase.elim hleft.1 hleft.2
  · intro n
    show n ∈ sent (b.queued ++ [call.frame]) ∨ _ → _
    rw [hgrown, List.mem_append, List.mem_singleton]
    rintro ((hbefore | rfl) | htaken)
    · exact h.known n (.inl hbefore)
    · exact mem_numbers hfound hrequest
    · exact h.known n (.inr htaken)
  · show (sent (b.queued ++ [call.frame])).Nodup
    rw [hgrown]
    apply List.Nodup.append h.once (List.nodup_singleton _)
    rw [List.disjoint_singleton]
    exact hfresh

theorem giveRoom (h : b.InOrder k) (hfound : b.calls[i]? = some call)
    (hwaiting : call.phase = .waiting) : (b.enter i .admitted).InOrder k := by
  have hown := h.calls i call hfound
  apply h.enter hfound
  · simp [Call.awaits, Call.isRequest, Call.isOver, hwaiting]
  · refine ⟨hown.asks, ?_, hown.nothing, hown.replies, ?_, ?_, hown.kept⟩
    · intro hother _
      exact hown.answers hother (by simp [Call.isOver, hwaiting])
    · intro m hresult
      cases hresult
    · intro hasks _
      exact hown.unsent hasks (.inl hwaiting)

theorem send (h : b.InOrder k) (hfound : b.calls[i]? = some call)
    (hadmitted : call.phase = .admitted) (hrequest : call.isRequest = true) (deadline : Nat) :
    ((b.enter i (.replying deadline)).queue call.frame).InOrder k := by
  have hown := h.calls i call hfound
  have hentered : (b.enter i (.replying deadline)).InOrder k := by
    apply h.enter hfound
    · simp [Call.awaits, Call.isRequest, Call.isOver, hadmitted]
    · refine ⟨hown.asks, ?_, hown.nothing, hown.replies, ?_, ?_, hown.kept⟩
      · intro (hother : call.isRequest = false)
        rw [hrequest] at hother
        cases hother
      · intro m hresult
        cases hresult
      · rintro - (hwaiting | hadmitted) <;> contradiction
  have hplaced : (b.enter i (.replying deadline)).calls[i]? =
      some { call with phase := .replying deadline } := by
    show (b.calls.modify i _)[i]? = _
    rw [List.getElem?_modify_eq, hfound]
    rfl
  apply hentered.queue_request hplaced hrequest
  · simp
  · exact hown.unsent hrequest (.inr hadmitted)

theorem post (h : b.InOrder k) (hfound : b.calls[i]? = some call)
    (hadmitted : call.phase = .admitted) (hother : call.isRequest = false) :
    ((b.enter i (.ended .queued)).queue call.frame).InOrder k := by
  have hkind : call.frame.kind = .response :=
    (h.calls i call hfound).answers hother (by simp [Call.isOver, hadmitted])
  have hfinished := h.finish hfound (p := .ended .queued) rfl (by simp)
  rw [Books.finish, hother] at hfinished
  exact hfinished.queue_response hkind

/-- A waiting request learns what becomes of its reply. -/
theorem settle (h : b.InOrder k) {n number : UInt64}
    (hfound : b.pending.find? (·.1 = number) = some (n, i)) {r : Reply} (hdecided : r ≠ .awaited)
    (hclosed : r = .lost → b.connected = false) :
    { b.settle i number r with taken := b.taken ++ r.under number }.InOrder k := by
  obtain ⟨call, hplaced, hwaits, rfl⟩ := h.waiting_of_find hfound
  obtain ⟨hrequest, hopened, hawaited⟩ := Call.awaits_iff.mp hwaits
  have hown := h.calls i call hplaced
  have hnotOther (hother : call.isRequest = false) : False := by
    rw [hrequest] at hother
    cases hother
  refine h.change hplaced rfl (fun _ => ⟨rfl, rfl⟩) rfl ?_ ?_ ?_ ?_ h.once
  · show b.pending.filter (·.1 ≠ call.frame.id) = awaiting (b.calls.modify i _)
    rw [h.filter_pending hplaced hrequest, awaiting_modify_end hplaced]
    simp [Call.awaits, hdecided]
  · refine ⟨hown.asks, fun hother => (hnotOther hother).elim, fun hother => (hnotOther hother).elim,
      ?_, ?_, hown.unsent, ?_⟩
    · intro _
      show (b.taken ++ r.under call.frame.id).filter (·.1 = call.frame.id) =
        r.under call.frame.id
      rw [List.filter_append, hown.replies hrequest, hawaited]
      cases r <;> simp [Reply.under]
    · intro m hresult
      simp only [Call.result?, Call.isOver] at hresult hopened
      split at hopened <;> simp_all
    · intro hconnected _ hlost
      have := hclosed hlost
      simp_all [Books.settle, forget]
  · intro other hapart hfine
    refine { hfine with replies := ?_ }
    intro hasks
    show (b.taken ++ r.under call.frame.id).filter (·.1 = other.frame.id) = _
    rw [List.filter_append, hfine.replies hasks]
    cases r with
    | arrived m => simp [Reply.under, Ne.symm (hapart hasks hrequest)]
    | awaited => simp [Reply.under]
    | lost => simp [Reply.under]
  · intro n
    show n ∈ sent b.queued ∨ n ∈ (b.taken ++ r.under call.frame.id).map (·.1) → _
    rw [List.map_append, List.mem_append]
    rintro (hbefore | hold | hnew)
    · exact h.known n (.inl hbefore)
    · exact h.known n (.inr hold)
    · have hsame : n = call.frame.id := by
        cases r <;> simp_all [Reply.under]
      subst hsame
      exact mem_numbers hplaced hrequest

theorem reply (h : b.InOrder k) {n number : UInt64} {m : Message}
    (hfound : b.pending.find? (·.1 = number) = some (n, i)) :
    ((b.settle i number (.arrived m)).take number m).InOrder k :=
  h.settle hfound (r := .arrived m) (by simp) (by simp)

/-- `lose` of a number that is given anew finds no request. -/
theorem lose (h : b.InOrder k) {n number : UInt64}
    (hfound : b.pending.find? (·.1 = number) = some (n, i))
    (hcause : b.connected = false ∨ number = b.nextNumber) :
    (b.settle i number .lost).InOrder k := by
  rcases hcause with hclosed | rfl
  · have hsettled := h.settle hfound (r := .lost) (by simp) (fun _ => hclosed)
    simp only [Reply.under, List.append_nil] at hsettled
    exact hsettled
  · obtain ⟨call, hplaced, hwaits, hsame⟩ := h.waiting_of_find hfound
    have hused := mem_numbers hplaced (Call.awaits_iff.mp hwaits).1
    rw [hsame] at hused
    exact absurd hused h.next_fresh

/-- Every move keeps books in order. -/
theorem move (h : b.InOrder k) (m : Move e b b') : b'.InOrder k := by
  cases m with
  | disconnect => exact h.disconnect
  | add hother hlost hphase => exact h.add hother hlost hphase
  | giveRoom hfound hwaiting => exact h.giveRoom hfound hwaiting
  | send hfound hadmitted hrequest deadline => exact h.send hfound hadmitted hrequest deadline
  | post hfound hadmitted hother => exact h.post hfound hadmitted hother
  | finish hfound hopened hreplied hkept =>
    apply h.finish hfound rfl
    intro m hended
    cases hended
    exact hreplied m rfl
  | abandon hfound hopened hevent =>
    apply h.finish hfound rfl
    simp
  | reply hfound => exact h.reply hfound
  | lose hfound hcause => exact h.lose hfound hcause

theorem moves (h : b.InOrder k) (hms : Moves e b b') : b'.InOrder k := by
  induction hms with
  | refl => exact h
  | tail _ m ih => exact ih.move m

/-- A new request keeps books in order as long as there is a number left. -/
theorem register (h : b.InOrder k) (hfew : k + 1 < UInt64.size) (m : Message) (timeout : Nat) :
    (b.register m timeout).InOrder (k + 1) := by
  have hunused {n : UInt64} (hseen : n ∈ sent b.queued ∨ n ∈ b.taken.map (·.1)) :
      n ≠ b.nextNumber := by
    rintro rfl
    exact h.next_fresh (h.known _ hseen)
  have hnumbers (call : Call) (hrequest : call.isRequest = true) :
      Books.numbers (b.calls ++ [call]) = Books.numbers b.calls ++ [call.frame.id] := by
    simp [Books.numbers, Call.number?, hrequest]
  refine ⟨hfew, ?_, ?_, ?_, ?_, ?_, h.once⟩
  · show b.nextNumber + 1 = _
    rw [h.next, UInt64.ofNat_add (k + 1) 1]
    rfl
  · show Books.numbers (b.calls ++ [_]) = _
    rw [hnumbers _ rfl, h.numbers, List.range_succ, List.map_append, h.next]
    rfl
  · show b.pending ++ [_] = awaiting (b.calls ++ [_])
    rw [awaiting_append, h.pending]
    rfl
  · intro i call hfound
    rcases found_append hfound with hold | rfl
    · exact h.calls i call hold
    · refine ⟨fun _ => rfl, by simp [Call.isRequest], by simp [Call.isRequest], ?_, ?_, ?_, by simp⟩
      · intro _
        show b.taken.filter (·.1 = b.nextNumber) = []
        rw [List.filter_eq_nil_iff]
        intro entry htaken
        simpa using hunused (.inr (List.mem_map_of_mem htaken))
      · intro m hresult
        cases hresult
      · intro _ _ hqueued
        exact hunused (.inl hqueued) rfl
  · intro n hseen
    show n ∈ Books.numbers (b.calls ++ [_])
    rw [hnumbers _ rfl, List.mem_append]
    exact .inl (h.known n hseen)

end InOrder

end Books

/-! ## Runs -/

namespace Session

open Books

variable (id : UInt64) (addr : SocketAddr) (capacity : Nat)

theorem new_inOrder : (new id addr capacity).books.InOrder 0 := by
  refine ⟨by decide, rfl, rfl, rfl, ?_, ?_, List.nodup_nil⟩
  · intro i call hfound
    simp [books, new, Connection.books, Connection.new] at hfound
  · intro n hseen
    simp [books, new, Connection.books, Connection.new, sent] at hseen

/-- After a step, one more number is given if the event is a request. -/
theorem step_inOrder {s : Session} {k : Nat} (h : s.books.InOrder k) (e : ConnectionEvent)
    (hfew : e.isRequest = true → k + 1 < UInt64.size) :
    ∃ j, j ≤ k + (if e.isRequest then 1 else 0) ∧ (s.step e).books.InOrder j := by
  cases s.step_change e with
  | moves hms => exact ⟨k, Nat.le_add_right .., h.moves hms⟩
  | request hbefore hafter =>
    exact ⟨k + 1, Nat.le_refl _, ((h.moves hbefore).register (hfew rfl) _ _).moves hafter⟩

/-- The books are in order at every time, as long as there were fewer requests than numbers. -/
theorem run_inOrder (es : List ConnectionEvent) (hfew : es.countP (·.isRequest) < UInt64.size) :
    ∃ k ≤ es.countP (·.isRequest), ((new id addr capacity).run es).books.InOrder k := by
  induction es using List.reverseRecOn with
  | nil => exact ⟨0, Nat.le_refl _, new_inOrder id addr capacity⟩
  | append_singleton es e ih =>
    rw [List.countP_append, List.countP_singleton] at hfew ⊢
    obtain ⟨k, hle, hbefore⟩ := ih (by omega)
    obtain ⟨j, hle', hafter⟩ := step_inOrder hbefore e (by
      intro hrequest
      rw [if_pos hrequest] at hfew
      omega)
    refine ⟨j, by omega, ?_⟩
    rw [run_append]
    exact hafter

end Session

end CloudRoster.Net
