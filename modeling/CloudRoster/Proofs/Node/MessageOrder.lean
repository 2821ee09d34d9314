import CloudRoster.Proofs.Node.Ledger
import Mathlib.Data.List.Nodup

/-!
# The order of messages

What a node hands out about one subject is, message by message, what the operations that committed
there handed out, one operation after another in the order of their commits. What an operation hands
out is a beginning of what its change has for the peers: its value, and the removal after it if it
removes the value. Changes that came from a peer, and visits, hand out nothing.
-/

namespace CloudRoster

open Cache (Call)

/-! ## What messages are about -/

/-- What a message is about, as its payload says. -/
def Message.subject? : Message → Option ((k : Kind) × k.Key)
  | .cacheUpdate u =>
    match ValueTypes.all.decode u.valueType u.jsonData with
    | .ok ⟨k, v⟩ => some ⟨k, k.key v⟩
    | .error _ => none
  | _ => none

theorem subject?_about (k : Kind) (v : k.Val) (action : Action) :
    (Message.cacheUpdate (.about k v action)).subject? = some ⟨k, k.key v⟩ := by
  simp only [Message.subject?, CacheUpdate.about, ValueTypes.decode_encode]

/-- All messages of a change are about its value. -/
theorem subject?_of_messages {c : Change} {spreads : Bool} {entry : Option c.kind.Val}
    {u : CacheUpdate} (hu : u ∈ c.call.messages spreads entry) :
    (Message.cacheUpdate u).subject? = some c.subject := by
  unfold Call.messages at hu
  split at hu
  · cases hu
  · obtain ⟨action, -, rfl⟩ := List.mem_map.1 hu
    exact subject?_about c.kind c.value action

namespace Journal

/-- The messages on a node about a subject are those that were noted at its site. -/
theorem filter_handedOn {journal : Journal} (i : Nat) (subject : (k : Kind) × k.Key)
    (h : ∀ s id u, Note.handed s id u ∈ journal →
      (Message.cacheUpdate u).subject? = some s.2) :
    ((handedOn i journal).map fun p => Message.cacheUpdate p.2).filter
        (fun m => m.subject? = some subject) =
      (handedAt (i, subject) journal).map .cacheUpdate := by
  induction journal with
  | nil => rfl
  | cons x journal ih =>
    have ih := ih fun s id u hu => h s id u (List.mem_cons_of_mem x hu)
    cases x with
    | asked s who => exact ih
    | committed s who c => exact ih
    | handed s id u =>
      obtain ⟨j, subject'⟩ := s
      have hsubject := h (j, subject') id u List.mem_cons_self
      by_cases hj : j = i
      · subst hj
        have hon : handedOn j (.handed (j, subject') id u :: journal) =
            (subject', u) :: handedOn j journal := by simp [handedOn]
        by_cases hs : subject' = subject
        · subst hs
          have hat : handedAt (j, subject') (.handed (j, subject') id u :: journal) =
              u :: handedAt (j, subject') journal := by simp [handedAt]
          rw [hon, hat, List.map_cons, List.filter_cons_of_pos (by simpa using hsubject), ih,
            List.map_cons]
        · have hat : handedAt (j, subject) (.handed (j, subject') id u :: journal) =
              handedAt (j, subject) journal := by simp [handedAt, hs]
          rw [hon, hat, List.map_cons, List.filter_cons_of_neg (by simpa [hsubject] using hs), ih]
      · have hon : handedOn i (.handed (j, subject') id u :: journal) = handedOn i journal := by
          simp [handedOn, hj]
        have hat : handedAt (i, subject) (.handed (j, subject') id u :: journal) =
            handedAt (i, subject) journal := by simp [handedAt, hj]
        rw [hon, hat, ih]

theorem mem_handedAt {journal : Journal} {s : Site} {id : Nat} {u : CacheUpdate}
    (h : Note.handed s id u ∈ journal) : u ∈ handedAt s journal :=
  List.mem_filterMap.2 ⟨_, h, if_pos rfl⟩

/-- A claimant stands among the committers at a site at most as often as it has commits. -/
theorem count_committers_le (s : Site) (who : Claimant) (journal : Journal) :
    (committers s journal).count who ≤ (commits who journal).length := by
  induction journal with
  | nil => exact Nat.le_refl 0
  | cons x journal ih =>
    cases x with
    | asked s' i => exact ih
    | handed s' id u => exact ih
    | committed s' i c =>
      simp only [committers, commits, List.filterMap_cons] at ih ⊢
      by_cases hs : s' = s <;> by_cases hi : i = who <;> simp [hs, hi] <;> omega

end Journal

/-! ## What operations have handed out -/

/-- What an operation that committed a change has handed out: a beginning of what the change had for
the peers at its commit, and all of it if the operation ended well. -/
def Operation.HandsOut (outcome : Nat → Except SyncError Report) (n : Node) (o : Operation)
    (c : Change) (before : Journal) (sent : List CacheUpdate) : Prop :=
  let due := c.call.messages (n.spreads c.kind)
    (((n.list c.kind).run outcome (before.calls o.node c.kind)).get? (c.kind.key c.value))
  sent <+: due ∧ (o.phase = .ended (o.task.outcome (.ok ())) → sent = due)

variable {outcome : Nat → Except SyncError Report} {w : World} {x : Scene} {id : Nat}
  {o : Operation} {s : Site} {c : Change}

/-- Where an operation stands that has committed a change. -/
theorem standing_of_commit (hledger : Ledger outcome w x)
    (hcommit : (s, c) ∈ Journal.commits ⟨id, false⟩ x.traffic.journal) :
    ∃ i later, s = (i, c.subject) ∧ (x.standing ⟨id, false⟩ = .works i c later ∨
      x.standing ⟨id, false⟩ = .done i c later) := by
  have hrecorded := hledger.recorded ⟨id, false⟩ rfl
  cases hst : x.standing ⟨id, false⟩ with
  | works i c' later | done i c' later =>
    rw [hst] at hrecorded
    rw [hrecorded.2.1] at hcommit
    cases List.mem_singleton.1 hcommit
    exact ⟨i, later, rfl, by simp⟩
  | _ =>
    rw [hst] at hrecorded
    rw [hrecorded.2.1] at hcommit
    cases hcommit

/-- What an operation has handed out begins what was due at its commit. -/
theorem exists_due (hledger : Ledger outcome w x) {i : Nat} {later : List CacheUpdate}
    (hst : x.standing ⟨id, false⟩ = .works i c later ∨ x.standing ⟨id, false⟩ = .done i c later) :
    ∃ before after, x.traffic.journal = before ++ .committed (i, c.subject) ⟨id, false⟩ c :: after ∧
      Journal.sentBy ⟨id, false⟩ x.traffic.journal ++ later = due outcome w before i c := by
  have hrecorded := hledger.recorded ⟨id, false⟩ rfl
  rcases hst with hst | hst
  · rw [hst] at hrecorded
    exact hrecorded.2.2
  · rw [hst] at hrecorded
    exact hrecorded.2.2

/-- Every message that was handed out is about the subject of its site. -/
theorem subject?_of_handed (hledger : Ledger outcome w x) {u : CacheUpdate}
    (h : Note.handed s id u ∈ x.traffic.journal) :
    (Message.cacheUpdate u).subject? = some s.2 := by
  have hat := Journal.mem_handedAt h
  rw [hledger.delivered.handedAt s] at hat
  obtain ⟨who, hwho, hu⟩ := List.mem_flatMap.1 hat
  obtain ⟨c, hc⟩ := Journal.mem_committers.1 hwho
  -- visits hand nothing out, so it was an operation, and the message is one of those due to it
  obtain ⟨j, visiting⟩ := who
  cases visiting with
  | true =>
    rw [Journal.sentBy_visiting rfl] at hu
    cases hu
  | false =>
    obtain ⟨i, later, rfl, hst⟩ := standing_of_commit hledger hc
    obtain ⟨before, after, -, hdue⟩ := exists_due hledger hst
    have hmem : u ∈ due outcome w before i c := hdue ▸ List.mem_append_left later hu
    unfold due at hmem
    split at hmem
    · cases hmem
    · exact subject?_of_messages hmem

/-- An operation commits at most once. -/
theorem length_commits_le_one (hledger : Ledger outcome w x) (id : Nat) :
    (Journal.commits ⟨id, false⟩ x.traffic.journal).length ≤ 1 := by
  have hrecorded := hledger.recorded ⟨id, false⟩ rfl
  cases hst : x.standing ⟨id, false⟩ <;> rw [hst] at hrecorded <;>
    · have hcommits := hrecorded.2.1
      rw [hcommits]
      simp

/-- What is noted of an operation that has committed. -/
theorem handsOut_of_ledger (hsound : Sound x) (hledger : Ledger outcome w x) {i : Nat} {n : Node}
    (hn : w[i]? = some n) {subject : (k : Kind) × k.Key}
    (hcommit : ((i, subject), c) ∈ Journal.commits ⟨id, false⟩ x.traffic.journal) :
    ∃ (o : Operation) (before after : Journal), x.traffic.operations[id]? = some o ∧ o.node = i ∧
      c.subject = subject ∧ o.task.Wants c ∧
      x.traffic.journal = before ++ .committed (i, subject) ⟨id, false⟩ c :: after ∧
      o.HandsOut outcome n c before (Journal.sentBy ⟨id, false⟩ x.traffic.journal) := by
  obtain ⟨o, hop, hown, hwants⟩ := hledger.owned id _ c hcommit
  obtain ⟨j, later, hsite, hst⟩ := standing_of_commit hledger hcommit
  cases hown
  cases hsite
  obtain ⟨before, after, hjournal, hdue⟩ := exists_due hledger hst
  have hdue' : due outcome w before o.node c = c.call.messages (n.spreads c.kind)
      (((n.list c.kind).run outcome (before.calls o.node c.kind)).get? (c.kind.key c.value)) := by
    unfold due
    rw [hn]
  rw [hdue'] at hdue
  refine ⟨o, before, after, hop, rfl, rfl, hwants, hjournal, ⟨later, hdue⟩, fun hended => ?_⟩
  -- an operation that ended well has nothing left to hand out
  have hallows := hsound.allows id o hop
  rw [hended] at hallows
  obtain ⟨-, ⟨hhome, -⟩ | ⟨c', later', hhome, hnothing⟩⟩ := hallows
  · rcases hst with hst | hst <;> cases hst.symm.trans hhome
  · rcases hst with hst | hst <;> cases hst.symm.trans hhome
    rw [hnothing rfl, List.append_nil] at hdue
    exact hdue

/-! ## Messages in the order of commits -/

/-- Whatever happens at the same time, the messages that a node hands out about a subject are those
of the operations that committed there, one operation after another in the order of their commits.
No operation comes twice. Each hands out its own messages from the first one on, and all of them if
it ends well; one that was asked for by a peer hands out none. -/
theorem handed_in_commit_order (outcome : Nat → Except SyncError Report) (w : World)
    (steps : List Step) {i : Nat} {n : Node} (hn : w[i]? = some n) (subject : (k : Kind) × k.Key) :
    let t := (Traffic.new w).run steps
    let committers := Journal.committers (i, subject) t.journal
    ∃ (n' : Node) (sent : List Message), t.world[i]? = some n' ∧ n'.handed = n.handed ++ sent ∧
      sent.filter (fun m => m.subject? = some subject) =
        (committers.flatMap fun who => Journal.sentBy who t.journal).map .cacheUpdate ∧
      (committers.filter fun who => !who.visiting).Nodup ∧
      (∀ who ∈ committers, who.visiting = true → Journal.sentBy who t.journal = []) ∧
      ∀ id, ⟨id, false⟩ ∈ committers → ∃ (o : Operation) (c : Change) (before after : Journal),
        t.operations[id]? = some o ∧ o.node = i ∧ c.subject = subject ∧ o.task.Wants c ∧
        t.journal = before ++ .committed (i, subject) ⟨id, false⟩ c :: after ∧
        o.HandsOut outcome n c before (Journal.sentBy ⟨id, false⟩ t.journal) ∧
        (c.fromPacket = true → Journal.sentBy ⟨id, false⟩ t.journal = []) := by
  intro t committers
  obtain ⟨standing, hsound, hledger⟩ := exists_ledger outcome w steps
  obtain ⟨n', hn', hcontinues⟩ := hledger.serial.node i n hn
  refine ⟨n', _, hn', hcontinues.handed, ?_, ?_, ?_, ?_⟩
  · refine (Journal.filter_handedOn i subject fun s id u hu => ?_).trans ?_
    · exact subject?_of_handed hledger hu
    · exact congrArg (List.map Message.cacheUpdate) (hledger.delivered.handedAt (i, subject))
  · refine List.nodup_iff_count_le_one.2 fun who => ?_
    obtain ⟨id, visiting⟩ := who
    cases visiting with
    | true =>
      have habsent : (⟨id, true⟩ : Claimant) ∉ committers.filter fun who => !who.visiting := by simp
      rw [List.count_eq_zero.2 habsent]
      exact Nat.zero_le 1
    | false =>
      calc (committers.filter fun who => !who.visiting).count ⟨id, false⟩
          ≤ committers.count ⟨id, false⟩ := List.filter_sublist.count_le _
        _ ≤ (Journal.commits ⟨id, false⟩ t.journal).length :=
            Journal.count_committers_le (i, subject) ⟨id, false⟩ t.journal
        _ ≤ 1 := length_commits_le_one hledger id
  · intro who _ hvisiting
    exact Journal.sentBy_visiting hvisiting _
  · intro id hid
    obtain ⟨c, hc⟩ := Journal.mem_committers.1 hid
    obtain ⟨o, before, after, hop, hnode, hsubject, hwants, hjournal, hsent⟩ :=
      handsOut_of_ledger hsound hledger hn hc
    refine ⟨o, c, before, after, hop, hnode, hsubject, hwants, hjournal, hsent, fun hpacket => ?_⟩
    have hnothing : ∀ entry, c.call.messages (n.spreads c.kind) entry = [] := fun entry =>
      if_pos (by simp [Change.call, hpacket])
    have hprefix := hsent.1
    rw [hnothing] at hprefix
    exact List.prefix_nil.1 hprefix

/-! ### Three operations on one template

An update whose round runs out of time, a removal that waits behind it, and an update that came from
a peer and waits behind both. -/

namespace Contest

/-- A node whose peer is outside the world. -/
def node : Node := .new .standard (.external 1 fun _ => ⟨0, .ok .empty⟩) none none

def arena : Template := .new "Arena"

def subject : (k : Kind) × k.Key := ⟨.template, arena.key⟩

def steps : List Step :=
  [.start 0 (.change ⟨.template, arena, .update, false, false⟩),
    .start 0 (.change ⟨.template, arena, .delete, false, false⟩),
    .start 0 (.change ⟨.template, arena, .update, true, false⟩),
    .poll 0, .poll 1, .poll 2, .tick 5000, .expire 0, .poll 1, .answer 1 (.ok .empty),
    .answer 1 (.ok .empty), .poll 2]

/-- The peer is told of the update, then of the final state of the template and of its removal, and
not of the last update. -/
theorem handed_in_commit_order_contested :
    [node][0]? = some node ∧ ∃ (n' : Node) (sent : List Message),
      ((Traffic.new [node]).run steps).world[0]? = some n' ∧ n'.handed = node.handed ++ sent ∧
      sent.filter (fun m => m.subject? = some subject) =
        [.cacheUpdate (.about .template arena .update),
          .cacheUpdate (.about .template arena .update),
          .cacheUpdate (.about .template arena .delete)] := by
  refine ⟨rfl, ?_⟩
  obtain ⟨n', sent, hn', hsent, hfilter, -⟩ :=
    handed_in_commit_order (fun _ => .ok .empty) [node] steps (i := 0) (n := node) rfl subject
  refine ⟨n', sent, hn', hsent, hfilter.trans ?_⟩
  rfl

end Contest

end CloudRoster
