import CloudRoster.Proofs.Node.ClaimOrder
import CloudRoster.Proofs.Node.Histories
import Mathlib.Data.List.Basic

/-!
# The ledger of a run

What the journal says of the nodes and of each operation. Every list of a node is as the committed
calls leave it, one after another, and a node has handed out the messages noted on it and no others
(`Serial`). An operation asks for its site at most once and commits at most once, namely what its
task asks for; what it has handed out, followed by what it has still to hand out, is what its call
has for the peers (`Recorded`). The messages at a site are those of its committers, in the order of
the commits and never mixed, because an operation that may hand out a message is the last committer
there (`Delivered`).
-/

namespace CloudRoster

open Cache (Call)
open Function (update update_self update_of_ne)

variable {outcome : Nat → Except SyncError Report} {w : World} {who : Claimant} {o : Operation}
  {x y : Scene}

/-! ## Nodes and the journal -/

/-- A node is as the journal leaves the one that was there in the beginning. -/
structure Node.Continues (outcome : Nat → Except SyncError Report) (n n' : Node) (i : Nat)
    (journal : Journal) : Prop where
  config : n'.config = n.config
  registry : n'.registry = n.registry
  broadcaster : n'.broadcaster = n.broadcaster
  follows : Node.Follows outcome n n' fun k => journal.calls i k
  handed : n'.handed = n.handed ++ (journal.handedOn i).map fun p => .cacheUpdate p.2

/-- All nodes are as the journal leaves those that were there in the beginning. -/
structure Serial (outcome : Nat → Except SyncError Report) (w w' : World) (journal : Journal) :
    Prop where
  length : w'.length = w.length
  node : ∀ i (n : Node), w[i]? = some n →
    ∃ n', w'[i]? = some n' ∧ n.Continues outcome n' i journal

namespace Serial

variable {w' : World} {journal : Journal}

theorem refl (w : World) : Serial outcome w w [] where
  length := rfl
  node _ n hn := ⟨n, hn, rfl, rfl, rfl, Node.follows_refl n, (List.append_nil _).symm⟩

/-- The node from the beginning that became a node. -/
theorem origin (h : Serial outcome w w' journal) {i : Nat} {n' : Node} (hn' : w'[i]? = some n') :
    ∃ n, w[i]? = some n ∧ n.Continues outcome n' i journal := by
  have hi : i < w.length := h.length ▸ (List.getElem?_eq_some_iff.1 hn').1
  obtain ⟨n'', hn'', hcontinues⟩ := h.node i w[i] (List.getElem?_eq_getElem hi)
  rw [hn'] at hn''
  cases hn''
  exact ⟨w[i], List.getElem?_eq_getElem hi, hcontinues⟩

/-- A note that is none of a commit or a message says nothing of the nodes. -/
theorem note (h : Serial outcome w w' journal) {x : Note}
    (hcalls : ∀ i k, Journal.calls i k [x] = []) (hhanded : ∀ i, Journal.handedOn i [x] = []) :
    Serial outcome w w' (journal ++ [x]) := by
  refine ⟨h.length, fun i n hn => ?_⟩
  obtain ⟨n', hn', hconfig, hregistry, hbroadcaster, hfollows, hsent⟩ := h.node i n hn
  refine ⟨n', hn', hconfig, hregistry, hbroadcaster, hfollows.congr rfl rfl fun k => ?_, ?_⟩
  · rw [Journal.calls_append, hcalls, List.append_nil]
  · rw [Journal.handedOn_append, hhanded, List.append_nil]
    exact hsent

/-- One node changes, as the notes say that go with it. -/
theorem set (h : Serial outcome w w' journal) {i : Nat} {m m' : Node} (hm : w'[i]? = some m)
    {notes : Journal}
    (hself : ∀ n : Node, n.Continues outcome m i journal →
      n.Continues outcome m' i (journal ++ notes))
    (hcalls : ∀ j ≠ i, ∀ k, notes.calls j k = []) (hhanded : ∀ j ≠ i, notes.handedOn j = []) :
    Serial outcome w (w'.update i m') (journal ++ notes) := by
  refine ⟨List.length_set.trans h.length, fun j n hn => ?_⟩
  by_cases hj : j = i
  · subst hj
    obtain ⟨n', hn', hcontinues⟩ := h.node j n hn
    rw [hm] at hn'
    cases hn'
    exact ⟨m', World.getElem?_update_self hm m', hself n hcontinues⟩
  · obtain ⟨n', hn', hconfig, hregistry, hbroadcaster, hfollows, hsent⟩ := h.node j n hn
    refine ⟨n', (World.getElem?_update_of_ne w' hj m').trans hn', hconfig, hregistry, hbroadcaster,
      hfollows.congr rfl rfl fun k => ?_, ?_⟩
    · rw [Journal.calls_append, hcalls j hj, List.append_nil]
    · rw [Journal.handedOn_append, hhanded j hj, List.append_nil]
      exact hsent

end Serial

namespace Node.Continues

variable {n m m' : Node} {i : Nat} {journal : Journal}

theorem commit (h : n.Continues outcome m i journal) {c : Change} {outbox : List CacheUpdate}
    (hcommit : m.commit c = .ok (m', outbox)) (who : Claimant) :
    n.Continues outcome m' i (journal ++ [.committed (i, c.subject) who c]) := by
  have hfollows := h.follows.commit h.config hcommit
  obtain ⟨-, commit, -, rfl, -⟩ := Node.commit_cases hcommit
  refine ⟨h.config, h.registry, h.broadcaster, hfollows.congr rfl rfl fun k => ?_, ?_⟩
  · have hcalls : Journal.calls i k [.committed (i, c.subject) who c] = (c.callOn k).toList := by
      cases hc : c.callOn k <;> simp [Journal.calls, hc]
    rw [Journal.calls_append, hcalls]
  · have hhanded : Journal.handedOn i [.committed (i, c.subject) who c] = [] := rfl
    rw [Journal.handedOn_append, hhanded, List.append_nil]
    exact h.handed

theorem hand (h : n.Continues outcome m i journal) (subject : (k : Kind) × k.Key) (id : Nat)
    (u : CacheUpdate) :
    n.Continues outcome (m.hand (.cacheUpdate u)) i (journal ++ [.handed (i, subject) id u]) := by
  refine ⟨h.config, h.registry, h.broadcaster, h.follows.congr rfl rfl fun k => ?_, ?_⟩
  · have hcalls : Journal.calls i k [.handed (i, subject) id u] = [] := rfl
    rw [Journal.calls_append, hcalls, List.append_nil]
  · have hhanded : Journal.handedOn i [.handed (i, subject) id u] = [(subject, u)] := by
      simp [Journal.handedOn]
    rw [Journal.handedOn_append, hhanded, List.map_append, ← List.append_assoc, ← h.handed]
    rfl

theorem persist (h : n.Continues outcome m i journal) (c : Change)
    (result : Except SyncError Unit) :
    n.Continues outcome (m.persist c result).1 i journal := by
  obtain ⟨groups, templates, heq⟩ := m.persist_eq c result
  rw [heq]
  exact ⟨h.config, h.registry, h.broadcaster, h.follows.congr rfl rfl fun _ => rfl, h.handed⟩

end Node.Continues

/-- Every move, with the notes of it, keeps `Serial`. -/
theorem Serial.of_move (h : Serial outcome w x.traffic.world x.traffic.journal)
    (hmove : Move who o x y) : Serial outcome w y.traffic.world y.traffic.journal := by
  cases hmove with
  | take | queue => exact h.note (fun _ _ => rfl) fun _ => rfl
  | commit _ hnode hcommit =>
    refine h.set hnode (fun n hn => hn.commit hcommit who) (fun j hj k => ?_) fun _ _ => rfl
    simp [Journal.calls, Ne.symm hj]
  | hand _ _ hnode =>
    refine h.set hnode (fun n hn => hn.hand _ _ _) (fun _ _ _ => rfl) fun j hj => ?_
    simp [Journal.handedOn, Ne.symm hj]
  | store c result hnode =>
    rw [← List.append_nil (Traffic.journal _)]
    refine h.set hnode (fun n hn => ?_) (fun _ _ _ => rfl) fun _ _ => rfl
    rw [List.append_nil]
    exact hn.persist c result
  | _ => exact h

/-! ## What an operation has for the peers -/

/-- The messages that a change has for the peers when it is committed on a node after the
journal. -/
def due (outcome : Nat → Except SyncError Report) (w : World) (before : Journal) (i : Nat)
    (c : Change) : List CacheUpdate :=
  match w[i]? with
  | none => []
  | some n => c.call.messages (n.spreads c.kind)
      (((n.list c.kind).run outcome (before.calls i c.kind)).get? (c.kind.key c.value))

theorem Serial.outbox_eq_due {w' : World} {journal : Journal} (h : Serial outcome w w' journal)
    {i : Nat} {m m' : Node} (hm : w'[i]? = some m) {c : Change} {outbox : List CacheUpdate}
    (hcommit : m.commit c = .ok (m', outbox)) : outbox = due outcome w journal i c := by
  obtain ⟨n, hn, hcontinues⟩ := h.origin hm
  have hspreads : m.spreads c.kind = n.spreads c.kind := by
    unfold Node.spreads
    rw [hcontinues.config]
  have hcached : m.cached c.kind c.value =
      ((n.list c.kind).run outcome (journal.calls i c.kind)).get? (c.kind.key c.value) := by
    unfold Node.cached
    rw [(hcontinues.follows c.kind).1]
    rfl
  rw [Node.outbox_of_commit hcommit, hspreads, hcached]
  unfold due
  rw [hn]

/-- What the journal says of an operation by where it stands. -/
def Recorded (outcome : Nat → Except SyncError Report) (w : World) (journal : Journal)
    (who : Claimant) : Standing → Prop
  | .away => journal.asks who = [] ∧ journal.commits who = [] ∧ journal.sentBy who = []
  | .asks s | .got s =>
    journal.asks who = [s] ∧ journal.commits who = [] ∧ journal.sentBy who = []
  | .out =>
    (journal.asks who).length ≤ 1 ∧ journal.commits who = [] ∧ journal.sentBy who = []
  | .works i c later | .done i c later =>
    journal.asks who = [(i, c.subject)] ∧ journal.commits who = [((i, c.subject), c)] ∧
      ∃ before after, journal = before ++ .committed (i, c.subject) who c :: after ∧
        journal.sentBy who ++ later = due outcome w before i c

namespace Recorded

variable {journal : Journal} {st : Standing}

/-- Notes of other claimants keep `Recorded`. -/
theorem append (h : Recorded outcome w journal who st) {notes : Journal}
    (hasks : notes.asks who = []) (hcommits : notes.commits who = [])
    (hsent : notes.sentBy who = []) : Recorded outcome w (journal ++ notes) who st := by
  cases st <;> simp only [Recorded, Journal.asks_append, Journal.commits_append,
    Journal.sentBy_append, hasks, hcommits, hsent, List.append_nil] at h ⊢
  case works i c later | done i c later =>
    obtain ⟨hasks, hcommits, before, after, hjournal, hdue⟩ := h
    refine ⟨hasks, hcommits, before, after ++ notes, ?_, hdue⟩
    rw [hjournal]
    exact List.append_assoc ..
  all_goals exact h

theorem ask (h : Recorded outcome w journal who .away) (s : Site) :
    Recorded outcome w (journal ++ [.asked s who]) who (.asks s) := by
  obtain ⟨hasks, hcommits, hsent⟩ := h
  refine ⟨?_, ?_, ?_⟩
  · rw [Journal.asks_append, hasks]
    exact Journal.asks_asked s who
  · rw [Journal.commits_append, hcommits]
    rfl
  · rw [Journal.sentBy_append, hsent]
    rfl

theorem goAway {s : Site} (h : Recorded outcome w journal who (.asks s)) :
    Recorded outcome w journal who .out := by
  obtain ⟨hasks, hcommits, hsent⟩ := h
  refine ⟨?_, hcommits, hsent⟩
  rw [hasks]
  exact Nat.le_refl 1

theorem skip (h : Recorded outcome w journal who .away) :
    Recorded outcome w journal who .out := by
  obtain ⟨hasks, hcommits, hsent⟩ := h
  refine ⟨?_, hcommits, hsent⟩
  rw [hasks]
  exact Nat.zero_le 1

/-- With a commit an operation has all its messages still to hand out. -/
theorem commit {i : Nat} {c : Change}
    (h : Recorded outcome w journal who (.got (i, c.subject))) :
    Recorded outcome w (journal ++ [.committed (i, c.subject) who c]) who
      (.works i c (due outcome w journal i c)) := by
  obtain ⟨hasks, hcommits, hsent⟩ := h
  refine ⟨?_, ?_, journal, [], rfl, ?_⟩
  · rw [Journal.asks_append, hasks]
    rfl
  · rw [Journal.commits_append, hcommits]
    exact Journal.commits_committed _ who c
  · rw [Journal.sentBy_append, hsent]
    rfl

/-- The message that `hand` hands out is the first of those that were still to be handed out. -/
theorem hand (hhome : who.visiting = false) {i : Nat} {c : Change} {u : CacheUpdate}
    {later : List CacheUpdate} (h : Recorded outcome w journal who (.works i c (u :: later))) :
    Recorded outcome w (journal ++ [.handed (i, c.subject) who.operation u]) who
      (.works i c later) := by
  obtain ⟨hasks, hcommits, before, after, hjournal, hdue⟩ := h
  refine ⟨?_, ?_, before, after ++ [.handed (i, c.subject) who.operation u], ?_, ?_⟩
  · rw [Journal.asks_append, hasks]
    rfl
  · rw [Journal.commits_append, hcommits]
    rfl
  · rw [hjournal]
    exact List.append_assoc ..
  · rw [Journal.sentBy_append, Journal.sentBy_handed hhome, List.append_assoc]
    exact hdue

end Recorded

/-- A move of one claimant is no note of another one. -/
theorem Move.exists_notes (h : Move who o x y) : ∃ notes : Journal,
    y.traffic.journal = x.traffic.journal ++ notes ∧ ∀ i ≠ who,
      notes.asks i = [] ∧ notes.commits i = [] ∧ notes.sentBy i = [] := by
  cases h with
  | take | queue => exact ⟨_, rfl, fun i hi => ⟨Journal.asks_asked_of_ne hi _, rfl, rfl⟩⟩
  | commit => exact ⟨_, rfl, fun i hi => ⟨rfl, Journal.commits_committed_of_ne hi _ _, rfl⟩⟩
  | hand hhome =>
    exact ⟨_, rfl, fun i hi => ⟨rfl, rfl, Journal.sentBy_handed_of_ne hhome hi _ _⟩⟩
  | _ => exact ⟨[], (List.append_nil _).symm, fun _ _ => ⟨rfl, rfl, rfl⟩⟩

/-- Moves only add notes, and none of the commits of other operations. -/
theorem Moves.exists_notes {id : Nat} {o : Operation} {x y : Scene} (h : Moves id o x y) :
    ∃ notes : Journal, y.traffic.journal = x.traffic.journal ++ notes ∧
      ∀ who : Claimant, who.operation ≠ id → notes.commits who = [] := by
  induction h with
  | refl => exact ⟨[], (List.append_nil _).symm, fun _ _ => rfl⟩
  | tail _ hmove ih =>
    obtain ⟨visiting, hmove⟩ := hmove
    obtain ⟨notes, hjournal, hcommits⟩ := ih
    obtain ⟨later, hlater, hothers⟩ := hmove.exists_notes
    refine ⟨notes ++ later, by rw [hlater, hjournal, List.append_assoc], fun who hwho => ?_⟩
    have hne : who ≠ ⟨_, visiting⟩ := fun heq => hwho (congrArg Claimant.operation heq)
    rw [Journal.commits_append, hcommits who hwho, (hothers who hne).2.1, List.append_nil]

/-- Every move of its home claimant, with the notes of it, keeps `Recorded`. -/
theorem Recorded.of_move
    (h : ∀ i : Claimant, i.visiting = false → Recorded outcome w x.traffic.journal i (x.standing i))
    (hserial : Serial outcome w x.traffic.world x.traffic.journal) (hmove : Move who o x y)
    (i : Claimant) (hi : i.visiting = false) :
    Recorded outcome w y.traffic.journal i (y.standing i) := by
  by_cases hwho : i ≠ who
  · -- another one has moved
    obtain ⟨notes, hjournal, hothers⟩ := hmove.exists_notes
    obtain ⟨hasks, hcommits, hsent⟩ := hothers i hwho
    rw [hjournal, hmove.frame.2.2.2 i hwho]
    exact (h i hi).append hasks hcommits hsent
  obtain rfl : i = who := not_not.1 hwho
  have hrecorded := h i hi
  have hrest : ∀ st, i.rest st = st := fun st => by simp [Claimant.rest, hi]
  cases hmove with
  | take haway | queue haway =>
    rw [haway] at hrecorded
    rw [Scene.standing_next_self]
    exact hrecorded.ask _
  | pickUp hasks =>
    rw [hasks] at hrecorded
    rw [Scene.standing_next_self]
    exact hrecorded
  | leave hasks =>
    rw [hasks] at hrecorded
    rw [Scene.standing_next_self, hrest]
    exact hrecorded.goAway
  | @refuse s hgot =>
    rw [hgot] at hrecorded
    rw [Scene.standing_next_self, hrest]
    exact Recorded.goAway (s := s) hrecorded
  | commit hgot hnode hcommit =>
    rw [hgot] at hrecorded
    rw [Scene.standing_next_self, if_neg (by simp [hi]), hserial.outbox_eq_due hnode hcommit]
    exact hrecorded.commit
  | hand hhome hworks =>
    rw [hworks] at hrecorded
    rw [Scene.standing_next_self]
    exact hrecorded.hand hhome
  | release hworks =>
    rw [hworks] at hrecorded
    rw [Scene.standing_next_self, hrest]
    exact hrecorded
  | skip _ haway =>
    rw [haway] at hrecorded
    rw [Scene.standing_next_self]
    exact hrecorded.skip
  | store => exact hrecorded

/-! ## Messages about a site -/

/-- The messages about a site are those of the operations that committed there, in the order of the
commits. -/
structure Delivered (journal : Journal) (standing : Claimant → Standing) : Prop where
  handedAt : ∀ s, journal.handedAt s = (journal.committers s).flatMap fun i => journal.sentBy i
  /-- An operation that may hand out messages is the last committer at its site. -/
  last : ∀ who : Claimant, who.visiting = false → ∀ i c later, standing who = .works i c later →
    ∃ before, journal.committers (i, c.subject) = before ++ [who] ∧ who ∉ before

namespace Delivered

variable {journal : Journal} {standing : Claimant → Standing} {next : Standing}

theorem empty : Delivered [] fun _ => .away := ⟨fun _ => rfl, fun _ _ _ _ _ => nofun⟩

/-- A note that is neither a commit nor a message keeps `Delivered`. -/
theorem note (h : Delivered journal standing) {notes : Journal}
    (hcommitters : ∀ s, notes.committers s = []) (hhanded : ∀ s, notes.handedAt s = [])
    (hsent : ∀ i, notes.sentBy i = []) (hnext : ∀ i c later, next ≠ .works i c later) :
    Delivered (journal ++ notes) (update standing who next) := by
  refine ⟨fun s => ?_, fun j hj i c later hworks => ?_⟩
  · simp only [Journal.handedAt_append, Journal.committers_append, Journal.sentBy_append, hhanded,
      hcommitters, hsent, List.append_nil]
    exact h.handedAt s
  · rw [Journal.committers_append, hcommitters, List.append_nil]
    by_cases hwho : j = who
    · subst hwho
      rw [update_self] at hworks
      exact absurd hworks (hnext i c later)
    · rw [update_of_ne hwho] at hworks
      exact h.last j hj i c later hworks

/-- An operation that commits becomes the last committer at its site. It has not handed out anything
yet, so the messages at the site stay in order. -/
theorem commit {locks : Cache.LockTable Site Claimant} (h : Delivered journal standing)
    (hlocked : Locked locks standing) {i : Nat} {c : Change}
    (hgot : standing who = .got (i, c.subject)) {later : List CacheUpdate}
    (hcommits : who.visiting = false → journal.commits who = [])
    (hsent : journal.sentBy who = []) :
    Delivered (journal ++ [.committed (i, c.subject) who c])
      (update standing who (.works i c later)) := by
  have hquiet : ∀ j, Journal.sentBy j [.committed (i, c.subject) who c] = [] := fun _ => rfl
  have hhanded : ∀ s, Journal.handedAt s [.committed (i, c.subject) who c] = [] := fun _ => rfl
  refine ⟨fun s => ?_, fun j hj i' c' later' hworks => ?_⟩
  · simp only [Journal.handedAt_append, Journal.committers_append, Journal.sentBy_append, hquiet,
      hhanded, List.append_nil, List.flatMap_append]
    by_cases hs : (i, c.subject) = s
    · subst hs
      rw [Journal.committers_committed, List.flatMap_singleton, hsent, List.append_nil]
      exact h.handedAt _
    · rw [Journal.committers_committed_of_ne hs, List.flatMap_nil, List.append_nil]
      exact h.handedAt s
  · by_cases hwho : j = who
    · subst hwho
      rw [update_self] at hworks
      cases hworks
      refine ⟨journal.committers (i, c.subject), ?_, fun hmem => ?_⟩
      · rw [Journal.committers_append, Journal.committers_committed]
      · obtain ⟨c', hc'⟩ := Journal.mem_committers.1 hmem
        rw [hcommits hj] at hc'
        cases hc'
    · rw [update_of_ne hwho] at hworks
      -- a claimant that works at another site is no rival
      have hs : (i, c.subject) ≠ (i', c'.subject) := by
        intro heq
        exact hwho (hlocked.unique (s := (i', c'.subject)) (by rw [hworks]; rfl)
          (by rw [hgot, ← heq]; rfl))
      rw [Journal.committers_append, Journal.committers_committed_of_ne hs, List.append_nil]
      exact h.last j hj i' c' later' hworks

/-- An operation that hands out a message does so behind all messages about its site. -/
theorem hand (h : Delivered journal standing) (hhome : who.visiting = false) {i : Nat} {c : Change}
    {u : CacheUpdate} {later : List CacheUpdate} (hworks : standing who = .works i c (u :: later))
    (hcommits : journal.commits who = [((i, c.subject), c)]) :
    Delivered (journal ++ [.handed (i, c.subject) who.operation u])
      (update standing who (.works i c later)) := by
  have hcommitters : ∀ s, Journal.committers s [.handed (i, c.subject) who.operation u] = [] :=
    fun _ => rfl
  -- operations other than this one have handed out what they had
  have hrest : ∀ js : List Claimant, who ∉ js →
      js.flatMap (fun j => Journal.sentBy j (journal ++ [.handed (i, c.subject) who.operation u])) =
        js.flatMap fun j => journal.sentBy j := by
    intro js hjs
    refine List.flatMap_congr fun j hj => ?_
    have hne : j ≠ who := fun heq => hjs (heq ▸ hj)
    rw [Journal.sentBy_append, Journal.sentBy_handed_of_ne hhome hne, List.append_nil]
  refine ⟨fun s => ?_, fun j hj i' c' later' hworks' => ?_⟩
  · rw [Journal.handedAt_append, Journal.committers_append, hcommitters, List.append_nil,
      h.handedAt s]
    by_cases hs : (i, c.subject) = s
    · subst hs
      obtain ⟨before, hlast, hbefore⟩ := h.last who hhome i c _ hworks
      rw [hlast, List.flatMap_append, List.flatMap_append, hrest before hbefore,
        List.flatMap_singleton, List.flatMap_singleton, Journal.sentBy_append,
        Journal.sentBy_handed hhome, Journal.handedAt_handed, List.append_assoc]
    · rw [Journal.handedAt_handed_of_ne hs, List.append_nil, hrest]
      intro hmem
      obtain ⟨c', hc'⟩ := Journal.mem_committers.1 hmem
      rw [hcommits] at hc'
      exact hs (congrArg Prod.fst (List.mem_singleton.1 hc')).symm
  · rw [Journal.committers_append, hcommitters, List.append_nil]
    by_cases hj' : j = who
    · subst hj'
      rw [update_self] at hworks'
      cases hworks'
      exact h.last j hj i c _ hworks
    · rw [update_of_ne hj'] at hworks'
      exact h.last j hj i' c' later' hworks'

end Delivered

/-- A visit has no messages. -/
theorem Journal.sentBy_visiting {who : Claimant} (h : who.visiting = true) (journal : Journal) :
    journal.sentBy who = [] := by
  refine List.filterMap_eq_nil_iff.2 fun x _ => ?_
  cases x with
  | handed s id u =>
    refine if_neg fun heq => ?_
    rw [← heq] at h
    cases h
  | _ => rfl

/-- Every move keeps `Delivered`. -/
theorem Delivered.of_move (h : Delivered x.traffic.journal x.standing)
    (hlocked : Locked x.traffic.locks x.standing)
    (hrecorded : ∀ i : Claimant, i.visiting = false →
      Recorded outcome w x.traffic.journal i (x.standing i))
    (hmove : Move who o x y) : Delivered y.traffic.journal y.standing := by
  have hsilent : ∀ {next : Standing}, (∀ i c later, next ≠ .works i c later) →
      Delivered x.traffic.journal (update x.standing who next) := by
    intro next hnext
    rw [← List.append_nil (Traffic.journal _)]
    exact h.note (fun _ => rfl) (fun _ => rfl) (fun _ => rfl) hnext
  have hrest : ∀ {st : Standing}, (∀ i c later, st ≠ .works i c later) →
      ∀ i c later, who.rest st ≠ .works i c later := by
    intro st hst i c later
    unfold Claimant.rest
    split
    · exact nofun
    · exact hst i c later
  cases hmove with
  | take | queue =>
    exact h.note (fun _ => rfl) (fun _ => rfl) (fun _ => rfl) fun _ _ _ => nofun
  | pickUp | skip => exact hsilent fun _ _ _ => nofun
  | leave | refuse | release => exact hsilent (hrest fun _ _ _ => nofun)
  | commit hgot =>
    have hnothing : who.visiting = false → Journal.commits who x.traffic.journal = [] ∧
        Journal.sentBy who x.traffic.journal = [] := by
      intro hhome
      have hwho := hrecorded who hhome
      rw [hgot] at hwho
      exact hwho.2
    refine h.commit hlocked hgot (fun hhome => (hnothing hhome).1) ?_
    cases hvisiting : who.visiting with
    | false => exact (hnothing hvisiting).2
    | true => exact Journal.sentBy_visiting hvisiting _
  | hand hhome hworks =>
    have hwho := hrecorded who hhome
    rw [hworks] at hwho
    exact h.hand hhome hworks hwho.2.1
  | store => exact h

/-! ## The whole ledger -/

/-- Operations commit what their tasks ask for, on their nodes. -/
def Owned (operations : List Operation) (journal : Journal) : Prop :=
  ∀ (id : Nat) (s : Site) (c : Change), (s, c) ∈ journal.commits ⟨id, false⟩ →
    ∃ o, operations[id]? = some o ∧ s = (o.node, c.subject) ∧ o.task.Wants c

theorem Owned.of_move (h : Owned x.traffic.operations x.traffic.journal)
    (hop : x.traffic.operations[who.operation]? = some o) (hmove : Move who o x y) :
    Owned y.traffic.operations y.traffic.journal := by
  intro id s c hcommit
  rw [hmove.frame.1]
  have hsame : ∀ {x' : Note}, Journal.commits ⟨id, false⟩ [x'] = [] →
      (s, c) ∈ Journal.commits ⟨id, false⟩ (x.traffic.journal ++ [x']) →
      ∃ o, x.traffic.operations[id]? = some o ∧ s = (o.node, c.subject) ∧ o.task.Wants c := by
    intro x' hx' hmem
    rw [Journal.commits_append, hx', List.append_nil] at hmem
    exact h id s c hmem
  cases hmove with
  | take | queue | hand => exact hsame rfl hcommit
  | @commit i c' n n' outbox hgot hnode hcommit' hown =>
    by_cases hwho : who = ⟨id, false⟩
    · subst hwho
      have hmem : (s, c) ∈ Journal.commits ⟨id, false⟩
          (x.traffic.journal ++ [.committed (i, c'.subject) ⟨id, false⟩ c']) := hcommit
      rw [Journal.commits_append, Journal.commits_committed, List.mem_append] at hmem
      rcases hmem with hmem | hmem
      · exact h id s c hmem
      · cases List.mem_singleton.1 hmem
        obtain ⟨rfl, hwants⟩ := hown rfl
        exact ⟨o, hop, rfl, hwants⟩
    · exact hsame (Journal.commits_committed_of_ne (Ne.symm hwho) _ _) hcommit
  | _ => exact h id s c hcommit

/-- The ledger of a scene that began with a world. -/
structure Ledger (outcome : Nat → Except SyncError Report) (w : World) (x : Scene) : Prop where
  serial : Serial outcome w x.traffic.world x.traffic.journal
  locked : Locked x.traffic.locks x.standing
  fair : Fair x.traffic.locks x.traffic.journal x.standing
  recorded : ∀ who : Claimant, who.visiting = false →
    Recorded outcome w x.traffic.journal who (x.standing who)
  delivered : Delivered x.traffic.journal x.standing
  owned : Owned x.traffic.operations x.traffic.journal

theorem ledger_new (w : World) : Ledger outcome w ⟨.new w, fun _ => .away⟩ where
  serial := .refl w
  locked := .empty
  fair := .empty
  recorded _ _ := ⟨rfl, rfl, rfl⟩
  delivered := .empty
  owned _ _ _ h := nomatch h

/-- Every move keeps the ledger. -/
theorem kept_ledger (w : World) : Kept (Ledger outcome w) where
  move hop hmove h := {
    serial := h.serial.of_move hmove
    locked := h.locked.of_move hmove
    fair := h.fair.of_move h.locked hmove
    recorded := Recorded.of_move h.recorded h.serial hmove
    delivered := h.delivered.of_move h.locked h.recorded hmove
    owned := h.owned.of_move hop hmove }
  same {x y} hsame h := by
    obtain ⟨hworld, hlocks, hjournal, hstanding, htasks⟩ := hsame
    refine ⟨?_, ?_, ?_, ?_, ?_, ?_⟩
    · rw [hworld, hjournal]
      exact h.serial
    · rw [hlocks, hstanding]
      exact h.locked
    · rw [hlocks, hjournal, hstanding]
      exact h.fair
    · rw [hjournal, hstanding]
      exact h.recorded
    · rw [hjournal, hstanding]
      exact h.delivered
    · intro id s c hcommit
      rw [hjournal] at hcommit
      obtain ⟨o, hop, hs, hwants⟩ := h.owned id s c hcommit
      obtain ⟨o', hop', hnode, htask⟩ := htasks id o hop
      exact ⟨o', hop', hnode ▸ hs, htask ▸ hwants⟩

/-- There is a ledger of every run. -/
theorem exists_ledger (outcome : Nat → Except SyncError Report) (w : World) (steps : List Step) :
    ∃ standing, Sound ⟨(Traffic.new w).run steps, standing⟩ ∧
      Ledger outcome w ⟨(Traffic.new w).run steps, standing⟩ := by
  obtain ⟨⟨t, standing⟩, hsound, hledger, htraffic⟩ :=
    (sound_new w).run (kept_ledger w) (ledger_new w) steps
  have htraffic : t = (Traffic.new w).run steps := htraffic
  subst htraffic
  exact ⟨standing, hsound, hledger⟩

end CloudRoster
