import CloudRoster.Node.Traffic
import CloudRoster.Proofs.Cache.Sequential
import CloudRoster.Proofs.Node.Changes

/-!
# The journal of operations at the same time

The journal holds what happened in one sequence. It is read in several ways: the claimants that
asked for a site (`Journal.askers`) and those that committed there (`committers`), what one claimant
did (`asks`, `commits`, `sentBy`), the messages handed out at a site or on a node (`handedAt`,
`handedOn`), and the calls committed on a list (`calls`). Each of these is a `filterMap`, so the
reading of a longer journal is longer at its end.

A list of a node is also seen as a `CacheList`, with the envelopes of its name (`Node.list`). A
commit on a node is one call on one of these lists.
-/

namespace CloudRoster

open Cache (Call CacheList Commit Entries Envelope Rules)

/-! ## Calls -/

namespace Change

/-- The change as a call on the list of its kind. -/
def call (c : Change) : Call c.kind.Val := ⟨c.value, c.action, c.fromPacket⟩

/-- The change as a call on the list of a kind, if it is of that kind. -/
def callOn (c : Change) (k : Kind) : Option (Call k.Val) :=
  if h : c.kind = k then some (h ▸ c.call) else none

theorem callOn_self (c : Change) : c.callOn c.kind = some c.call := dif_pos rfl

theorem callOn_of_ne (c : Change) {k : Kind} (h : c.kind ≠ k) : c.callOn k = none := dif_neg h

end Change

/-! ## Readings -/

/-- What happened, oldest first. -/
abbrev Journal := List Note

namespace Journal

/-- The claimants that asked for a site, in the order of asking. -/
def askers (s : Site) (j : Journal) : List Claimant :=
  j.filterMap fun
    | .asked site who => if site = s then some who else none
    | _ => none

/-- The claimants that committed a change of a site, in the order of the commits. -/
def committers (s : Site) (j : Journal) : List Claimant :=
  j.filterMap fun
    | .committed site who _ => if site = s then some who else none
    | _ => none

/-- The sites that a claimant asked for. -/
def asks (who : Claimant) (j : Journal) : List Site :=
  j.filterMap fun
    | .asked site i => if i = who then some site else none
    | _ => none

/-- The changes that a claimant committed, with their sites. -/
def commits (who : Claimant) (j : Journal) : List (Site × Change) :=
  j.filterMap fun
    | .committed site i c => if i = who then some (site, c) else none
    | _ => none

/-- The messages that a claimant handed out; a visit has none. -/
def sentBy (who : Claimant) (j : Journal) : List CacheUpdate :=
  j.filterMap fun
    | .handed _ id u => if ⟨id, false⟩ = who then some u else none
    | _ => none

/-- The messages handed out about a site. -/
def handedAt (s : Site) (j : Journal) : List CacheUpdate :=
  j.filterMap fun
    | .handed site _ u => if site = s then some u else none
    | _ => none

/-- The messages handed out on a node, with what they are about. -/
def handedOn (i : Nat) (j : Journal) : List (((k : Kind) × k.Key) × CacheUpdate) :=
  j.filterMap fun
    | .handed site _ u => if site.1 = i then some (site.2, u) else none
    | _ => none

/-- The calls committed on a list of a node, in the order of the commits. -/
def calls (i : Nat) (k : Kind) (j : Journal) : List (Call k.Val) :=
  j.filterMap fun
    | .committed site _ c => if site.1 = i then c.callOn k else none
    | _ => none

variable {s : Site} {who : Claimant} {i : Nat} {k : Kind} {j : Journal}

/-! ### The reading of a longer journal -/

@[simp]
theorem askers_append (j' : Journal) : askers s (j ++ j') = askers s j ++ askers s j' :=
  List.filterMap_append

@[simp]
theorem committers_append (j' : Journal) :
    committers s (j ++ j') = committers s j ++ committers s j' := List.filterMap_append

@[simp]
theorem asks_append (j' : Journal) : asks who (j ++ j') = asks who j ++ asks who j' :=
  List.filterMap_append

@[simp]
theorem commits_append (j' : Journal) : commits who (j ++ j') = commits who j ++ commits who j' :=
  List.filterMap_append

@[simp]
theorem sentBy_append (j' : Journal) : sentBy who (j ++ j') = sentBy who j ++ sentBy who j' :=
  List.filterMap_append

@[simp]
theorem handedAt_append (j' : Journal) : handedAt s (j ++ j') = handedAt s j ++ handedAt s j' :=
  List.filterMap_append

@[simp]
theorem handedOn_append (j' : Journal) : handedOn i (j ++ j') = handedOn i j ++ handedOn i j' :=
  List.filterMap_append

@[simp]
theorem calls_append (j' : Journal) : calls i k (j ++ j') = calls i k j ++ calls i k j' :=
  List.filterMap_append

/-! ### The reading of one note -/

theorem askers_asked (s : Site) (who : Claimant) : askers s [.asked s who] = [who] := by
  simp [askers]

theorem asks_asked (s : Site) (who : Claimant) : asks who [.asked s who] = [s] := by simp [asks]

theorem asks_asked_of_ne {i : Claimant} (h : i ≠ who) (s : Site) : asks i [.asked s who] = [] := by
  simp [asks, Ne.symm h]

theorem committers_committed (s : Site) (who : Claimant) (c : Change) :
    committers s [.committed s who c] = [who] := by
  simp [committers]

theorem committers_committed_of_ne {site : Site} (h : s ≠ site) (who : Claimant) (c : Change) :
    committers site [.committed s who c] = [] := by
  simp [committers, h]

theorem commits_committed (s : Site) (who : Claimant) (c : Change) :
    commits who [.committed s who c] = [(s, c)] := by
  simp [commits]

theorem commits_committed_of_ne {i : Claimant} (h : i ≠ who) (s : Site) (c : Change) :
    commits i [.committed s who c] = [] := by
  simp [commits, Ne.symm h]

theorem handedAt_handed (s : Site) (id : Nat) (u : CacheUpdate) :
    handedAt s [.handed s id u] = [u] := by
  simp [handedAt]

theorem handedAt_handed_of_ne {site : Site} (h : s ≠ site) (id : Nat) (u : CacheUpdate) :
    handedAt site [.handed s id u] = [] := by
  simp [handedAt, h]

/-- Messages are handed out by operations on their own nodes. -/
theorem sentBy_handed (h : who.visiting = false) (s : Site) (u : CacheUpdate) :
    sentBy who [.handed s who.operation u] = [u] := by
  have hwho : (⟨who.operation, false⟩ : Claimant) = who := by rw [← h]
  simp [sentBy, hwho]

theorem sentBy_handed_of_ne (h : who.visiting = false) {i : Claimant} (hi : i ≠ who) (s : Site)
    (u : CacheUpdate) : sentBy i [.handed s who.operation u] = [] := by
  have hwho : (⟨who.operation, false⟩ : Claimant) = who := by rw [← h]
  simp [sentBy, hwho, Ne.symm hi]

/-! ### Committing -/

/-- The committers at a site are the claimants with a commit there. -/
theorem mem_committers : who ∈ committers s j ↔ ∃ c, (s, c) ∈ commits who j := by
  unfold committers commits
  simp only [List.mem_filterMap]
  constructor
  · rintro ⟨x, hx, hwho⟩
    cases x with
    | committed site i c =>
      by_cases hs : site = s
      · subst hs
        simp only [if_true, Option.some.injEq] at hwho
        exact ⟨c, _, hx, if_pos hwho⟩
      · simp only [if_neg hs] at hwho
        cases hwho
    | _ => cases hwho
  · rintro ⟨c, x, hx, hwho⟩
    cases x with
    | committed site i c' =>
      by_cases hi : i = who
      · subst hi
        simp only [if_true, Option.some.injEq, Prod.mk.injEq] at hwho
        exact ⟨_, hx, by simp [hwho.1]⟩
      · simp only [if_neg hi] at hwho
        cases hwho
    | _ => cases hwho

end Journal

/-! ## A list by itself -/

namespace Cache.CacheList

variable {K V : Type} {outcome : Nat → Except SyncError Report}

/-- `handOut` changes the messages handed out and nothing else. -/
theorem handOut_eq (l : CacheList K V) (outbox : List CacheUpdate) :
    ∃ handed, (handOut outcome l outbox).1 = { l with handed := handed } := by
  induction outbox generalizing l with
  | nil => exact ⟨_, rfl⟩
  | cons u outbox ih =>
    simp only [handOut]
    split
    · obtain ⟨handed, h⟩ := ih { l with handed := l.handed ++ [u] }
      exact ⟨handed, h⟩
    · exact ⟨_, rfl⟩

variable [DecidableEq K] (outcome)

/-- An action that is committed leaves the entries of the commit and publishes its events, however
its rounds end. -/
theorem perform_of_commit {l : CacheList K V} {v : V} {action : Action} {fromPacket : Bool}
    {c : Commit K V} (h : l.rules.commit l.spreads fromPacket l.entries v action = .ok c) :
    ∃ handed, (l.perform outcome v action fromPacket).1 =
      { l with entries := c.entries, log := l.log ++ c.events, handed := handed } := by
  unfold perform
  rw [h]
  exact handOut_eq _ _

/-- Operations leave the rules of a list, and whether it spreads, as they are. -/
theorem run_fixed (l : CacheList K V) (calls : List (Call V)) :
    (l.run outcome calls).rules = l.rules ∧ (l.run outcome calls).spreads = l.spreads := by
  induction calls generalizing l with
  | nil => exact ⟨rfl, rfl⟩
  | cons c calls ih =>
    have hstep : (l.perform outcome c.value c.action c.fromPacket).1.rules = l.rules ∧
        (l.perform outcome c.value c.action c.fromPacket).1.spreads = l.spreads := by
      cases hcommit : l.rules.commit l.spreads c.fromPacket l.entries c.value c.action with
      | error e =>
        unfold perform
        rw [hcommit]
        exact ⟨rfl, rfl⟩
      | ok commit =>
        obtain ⟨handed, heq⟩ := perform_of_commit outcome hcommit
        rw [heq]
        exact ⟨rfl, rfl⟩
    obtain ⟨hrules, hspreads⟩ := ih (l.perform outcome c.value c.action c.fromPacket).1
    exact ⟨hrules.trans hstep.1, hspreads.trans hstep.2⟩

theorem run_append (l : CacheList K V) (calls : List (Call V)) (c : Call V) :
    l.run outcome (calls ++ [c]) =
      ((l.run outcome calls).perform outcome c.value c.action c.fromPacket).1 := by
  unfold run
  rw [List.foldl_append]
  rfl

end Cache.CacheList

/-- The names of the lists tell the kinds apart. -/
theorem Kind.listName_injective : Function.Injective Kind.listName := by
  intro j k h
  cases j <;> cases k <;> first | rfl | exact absurd h (by decide)

namespace Node

/-- The envelopes of a list among those that a node has published. -/
def envelopes (n : Node) (k : Kind) : List Envelope := n.bus.log.filter (·.listName = k.listName)

/-- A list of a node, by itself: its entries, its envelopes, and no messages handed out yet. -/
def list (n : Node) (k : Kind) : CacheList k.Key k.Val :=
  ⟨.ofKind k, n.spreads k, n.lists.get k, n.envelopes k, []⟩

/-! ## One commit -/

/-- All events of a commit are of the list of its kind. -/
theorem listName_of_commit {k : Kind} {spreads fromPacket : Bool} {es : Entries k.Key k.Val}
    {v : k.Val} {action : Action} {c : Commit k.Key k.Val}
    (h : (Rules.ofKind k).commit spreads fromPacket es v action = .ok c) :
    ∀ e ∈ c.events, e.listName = k.listName := by
  have henvelopes : ∀ events, ∀ e ∈ (Rules.ofKind k).envelopes fromPacket events,
      e.listName = k.listName := by
    intro events e he
    obtain ⟨event, -, rfl⟩ := List.mem_map.1 he
    rfl
  cases action with
  | update =>
    have h : (Rules.ofKind k).update spreads fromPacket es v = .ok c := h
    unfold Rules.update at h
    rw [Rules.outbox_ofKind] at h
    cases h
    exact henvelopes _
  | delete =>
    have h : (Rules.ofKind k).delete spreads fromPacket es v = .ok c := h
    unfold Rules.delete at h
    cases hfind : es.find? ((Rules.ofKind k).identify v) with
    | none =>
      simp only [hfind] at h
      cases h
      exact fun e he => absurd he List.not_mem_nil
    | some cached =>
      simp only [hfind, Rules.outbox_ofKind] at h
      cases h
      exact henvelopes _

theorem filter_events_of_commit {k : Kind} {spreads fromPacket : Bool} {es : Entries k.Key k.Val}
    {v : k.Val} {action : Action} {c : Commit k.Key k.Val}
    (h : (Rules.ofKind k).commit spreads fromPacket es v action = .ok c) :
    c.events.filter (·.listName = k.listName) = c.events :=
  List.filter_eq_self.2 fun e he => decide_eq_true (listName_of_commit h e he)

/-- A commit has no events of another list. -/
theorem filter_events_of_commit_of_ne {j k : Kind} {spreads fromPacket : Bool}
    {es : Entries k.Key k.Val} {v : k.Val} {action : Action} {c : Commit k.Key k.Val}
    (h : (Rules.ofKind k).commit spreads fromPacket es v action = .ok c) (hj : k ≠ j) :
    c.events.filter (·.listName = j.listName) = [] := by
  refine List.filter_eq_nil_iff.2 fun e he => ?_
  rw [listName_of_commit h e he, decide_eq_true_eq]
  exact fun heq => hj (Kind.listName_injective heq)

/-- The messages of a commit are those of the call on the list. -/
theorem outbox_of_commit {n n' : Node} {c : Change} {outbox : List CacheUpdate}
    (h : n.commit c = .ok (n', outbox)) :
    outbox = c.call.messages (n.spreads c.kind) (n.cached c.kind c.value) := by
  obtain ⟨hguard, -⟩ := commit_cases h
  obtain ⟨bus, heq⟩ := commit_of_guard hguard
  rw [heq] at h
  cases h
  unfold Node.outbox Call.messages Call.told Change.call
  cases c.fromPacket <;> cases n.spreads c.kind <;> cases c.action <;>
    cases n.cached c.kind c.value <;> rfl

/-- The lists of a node are as calls on the lists of an earlier one leave them. -/
def Follows (outcome : Nat → Except SyncError Report) (n n' : Node)
    (calls : (k : Kind) → List (Call k.Val)) : Prop :=
  ∀ k, n'.lists.get k = ((n.list k).run outcome (calls k)).entries ∧
    n'.envelopes k = ((n.list k).run outcome (calls k)).log

variable {outcome : Nat → Except SyncError Report}

theorem follows_refl (n : Node) : Follows outcome n n fun _ => [] := fun _ => ⟨rfl, rfl⟩

/-- One more commit is one more call on the list of its kind, and none on the others. -/
theorem Follows.commit {n₀ n n' : Node} {calls : (k : Kind) → List (Call k.Val)}
    (h : Follows outcome n₀ n calls) (hconfig : n.config = n₀.config) {c : Change}
    {outbox : List CacheUpdate} (hcommit : n.commit c = .ok (n', outbox)) :
    Follows outcome n₀ n' fun k => calls k ++ (c.callOn k).toList := by
  obtain ⟨-, commit, hlist, rfl, -⟩ := commit_cases hcommit
  intro k
  show _ = ((n₀.list k).run outcome (calls k ++ (c.callOn k).toList)).entries ∧
    _ = ((n₀.list k).run outcome (calls k ++ (c.callOn k).toList)).log
  have hlog : envelopes { n with
      lists := n.lists.set c.kind commit.entries, bus := n.bus.publishAll commit.events } k =
      n.envelopes k ++ commit.events.filter (·.listName = k.listName) := List.filter_append ..
  by_cases hk : c.kind = k
  · subst hk
    obtain ⟨hentries, hlog₀⟩ := h c.kind
    obtain ⟨hrules, hspreads⟩ := CacheList.run_fixed outcome (n₀.list c.kind) (calls c.kind)
    have hsame : n₀.spreads c.kind = n.spreads c.kind := by
      unfold spreads
      rw [hconfig]
    have hlist' : ((n₀.list c.kind).run outcome (calls c.kind)).rules.commit
        ((n₀.list c.kind).run outcome (calls c.kind)).spreads c.fromPacket
        ((n₀.list c.kind).run outcome (calls c.kind)).entries c.value c.action = .ok commit := by
      rw [hrules, hspreads, ← hentries]
      show (Rules.ofKind c.kind).commit (n₀.spreads c.kind) _ _ _ _ = _
      rw [hsame]
      exact hlist
    obtain ⟨handed, hperform⟩ := CacheList.perform_of_commit outcome hlist'
    have hrun : (n₀.list c.kind).run outcome (calls c.kind ++ [c.call]) = _ :=
      (CacheList.run_append _ _ _ _).trans hperform
    rw [c.callOn_self, Option.toList_some, hrun, hlog, filter_events_of_commit hlist, hlog₀]
    exact ⟨Lists.get_set_self .., rfl⟩
  · rw [c.callOn_of_ne hk, Option.toList_none, List.append_nil, hlog,
      filter_events_of_commit_of_ne hlist hk, List.append_nil]
    exact ⟨(Lists.get_set_of_ne _ (Ne.symm hk) _).trans (h k).1, (h k).2⟩

/-- `Follows` depends on the lists, the bus and the calls only. -/
theorem Follows.congr {n₀ n n' : Node} {calls calls' : (k : Kind) → List (Call k.Val)}
    (h : Follows outcome n₀ n calls) (hlists : n'.lists = n.lists) (hbus : n'.bus = n.bus)
    (hcalls : ∀ k, calls' k = calls k) : Follows outcome n₀ n' calls' := by
  intro k
  unfold envelopes
  rw [hlists, hbus, hcalls]
  exact h k

end Node

end CloudRoster
