import CloudRoster.Proofs.Cache.Entries
import CloudRoster.Proofs.Cloud.Messages

/-!
# What a change does to a node

A change that is let through touches one list and the bus, and has messages for the peers; one that
is held back touches nothing. What a peer makes of the message about a value is such a change too.
Changes keep the lists of a node tidy.
-/

namespace CloudRoster

open Cache (Commit Entries Rules)
open Storage (Store)

namespace Change

/-- The entries after a change. -/
def applyTo (c : Change) (es : Entries c.kind.Key c.kind.Val) : Entries c.kind.Key c.kind.Val :=
  match c.action with
  | .update => (Rules.ofKind c.kind).place es c.value
  | .delete => es.erase (c.kind.key c.value)

/-- The value that stands under the key of a change after it. -/
def left (c : Change) : Option c.kind.Val :=
  match c.action with
  | .update => some c.value
  | .delete => none

/-- The change that the message about a value asks for. -/
abbrev asked (k : Kind) (v : k.Val) (action : Action) : Change := ⟨k, v, action, true, true⟩

variable {c : Change} {es : Entries c.kind.Key c.kind.Val}

theorem tidy_applyTo (h : es.Tidy c.kind.key) : (c.applyTo es).Tidy c.kind.key := by
  obtain ⟨k, v, action, fromPacket, managed⟩ := c
  cases action with
  | update =>
    show (if (es.find? (k.key v)).isSome then es.replace (k.key v) v
      else es.push (k.key v) v).Tidy k.key
    by_cases hfind : (es.find? (k.key v)).isSome
    · rw [if_pos hfind]
      exact h.replace v
    · rw [if_neg hfind]
      exact h.push (by simpa using hfind)
  | delete => exact h.erase (k.key v)

/-- Under the key of a change stands what the change leaves there. -/
theorem find?_applyTo_self (h : es.Tidy c.kind.key) :
    (c.applyTo es).find? (c.kind.key c.value) = c.left := by
  obtain ⟨k, v, action, fromPacket, managed⟩ := c
  cases action with
  | update =>
    show Entries.find? (if (es.find? (k.key v)).isSome then es.replace (k.key v) v
      else es.push (k.key v) v) (k.key v) = some v
    by_cases hfind : (es.find? (k.key v)).isSome
    · rw [if_pos hfind]
      exact Entries.find?_replace_self hfind v
    · rw [if_neg hfind, Entries.find?_push, if_pos rfl]
      rw [Option.not_isSome_iff_eq_none.1 hfind]
      rfl
  | delete => exact Entries.find?_erase_self h.nodup (k.key v)

/-- Under other keys nothing changes. -/
theorem find?_applyTo_of_ne (es : Entries c.kind.Key c.kind.Val) {key : c.kind.Key}
    (h : key ≠ c.kind.key c.value) : (c.applyTo es).find? key = es.find? key := by
  obtain ⟨k, v, action, fromPacket, managed⟩ := c
  cases action with
  | update =>
    show Entries.find? (if (es.find? (k.key v)).isSome then es.replace (k.key v) v
      else es.push (k.key v) v) key = _
    by_cases hfind : (es.find? (k.key v)).isSome
    · rw [if_pos hfind]
      exact Entries.find?_replace_of_ne es h v
    · rw [if_neg hfind, Entries.find?_push, if_neg (fun e => h e.symm)]
      simp
  | delete => exact Entries.find?_erase_of_ne es h

end Change

namespace Node

/-! ## The change itself -/

/-- What a change has for the peers. -/
def outbox (n : Node) (c : Change) : List CacheUpdate :=
  if n.spreads c.kind && !c.fromPacket then
    match c.action, n.cached c.kind c.value with
    | .update, _ => [.about c.kind c.value .update]
    | .delete, some _ => [.about c.kind c.value .update, .about c.kind c.value .delete]
    | .delete, none => []
  else []

/-- The commit of a change that is let through. -/
theorem commit_of_guard {n : Node} {c : Change} (h : n.guard c = .ok ()) :
    ∃ bus, n.commit c = .ok ({ n with
      lists := n.lists.set c.kind (c.applyTo (n.lists.get c.kind)), bus := bus }, n.outbox c) := by
  obtain ⟨k, v, action, fromPacket, managed⟩ := c
  unfold commit
  rw [h]
  cases action with
  | update =>
    show ∃ bus, (do
      let commit ← (Rules.ofKind k).update (n.spreads k) fromPacket (n.lists.get k) v
      return ({ n with
        lists := n.lists.set k commit.entries
        bus := n.bus.publishAll commit.events }, commit.outbox)) = _
    unfold Rules.update
    rw [Rules.outbox_ofKind]
    exact ⟨_, rfl⟩
  | delete =>
    show ∃ bus, (do
      let commit ← (Rules.ofKind k).delete (n.spreads k) fromPacket (n.lists.get k) v
      return ({ n with
        lists := n.lists.set k commit.entries
        bus := n.bus.publishAll commit.events }, commit.outbox)) = _
    cases hcached : (n.lists.get k).find? (k.key v) with
    | none =>
      -- there is nothing to remove, and nothing to tell
      have hsame : (n.lists.get k).erase (k.key v) = n.lists.get k :=
        Entries.erase_of_find?_eq_none hcached
      have hfind : (n.lists.get k).find? ((Rules.ofKind k).identify v) = none := hcached
      refine ⟨n.bus.publishAll [], ?_⟩
      unfold Rules.delete
      simp only [hfind]
      unfold outbox cached Change.applyTo
      simp only [hcached, hsame, ite_self]
      rfl
    | some old =>
      -- the final state takes the place of the value and is taken away with it
      have herase : ((n.lists.get k).replace (k.key v) v).erase (k.key v) =
          (n.lists.get k).erase (k.key v) := Entries.erase_replace _ _ _
      have hfind : (n.lists.get k).find? ((Rules.ofKind k).identify v) = some old := hcached
      unfold Rules.delete
      simp only [hfind, Rules.outbox_ofKind]
      unfold outbox cached Change.applyTo
      simp only [hcached, ← herase]
      exact ⟨_, rfl⟩

/-- The commit of a change that is held back. -/
theorem commit_of_guard_error {n : Node} {c : Change} {e : SyncError} (h : n.guard c = .error e) :
    n.commit c = .error e := by
  unfold commit
  rw [h]
  rfl

/-- Only the removal of a group is held back, and only for the services that it has. -/
theorem guard_error {n : Node} {c : Change} {e : SyncError} (h : n.guard c = .error e) :
    ∃ name services, e = .groupInUse name services := by
  unfold guard at h
  split at h
  · split at h
    · cases h
    · cases h
      exact ⟨_, _, rfl⟩
  · cases h

/-- A commit only fails where the change is held back. -/
theorem commit_error {n : Node} {c : Change} {e : SyncError} (h : n.commit c = .error e) :
    ∃ name services, e = .groupInUse name services := by
  cases hguard : n.guard c with
  | error e' =>
    rw [commit_of_guard_error hguard] at h
    cases h
    exact guard_error hguard
  | ok u =>
    obtain ⟨bus, hcommit⟩ := commit_of_guard hguard
    rw [hcommit] at h
    cases h

/-- What a commit on a node is: the change is let through, one list commits it, and the events are
published. -/
theorem commit_cases {n n' : Node} {c : Change} {outbox : List CacheUpdate}
    (h : n.commit c = .ok (n', outbox)) :
    n.guard c = .ok () ∧ ∃ commit : Commit c.kind.Key c.kind.Val,
      (Rules.ofKind c.kind).commit (n.spreads c.kind) c.fromPacket (n.lists.get c.kind) c.value
        c.action = .ok commit ∧
      n' = { n with
        lists := n.lists.set c.kind commit.entries, bus := n.bus.publishAll commit.events } ∧
      outbox = commit.outbox := by
  unfold commit at h
  cases hguard : n.guard c with
  | error e =>
    rw [hguard] at h
    cases h
  | ok u =>
    rw [hguard] at h
    cases hcommit : (Rules.ofKind c.kind).commit (n.spreads c.kind) c.fromPacket
        (n.lists.get c.kind) c.value c.action with
    | error e =>
      simp only [hcommit] at h
      cases h
    | ok commit =>
      simp only [hcommit] at h
      cases h
      exact ⟨rfl, commit, rfl, rfl, rfl⟩

/-! ## Messages about values -/

/-- Telling the store touches nothing but the stores. -/
theorem persist_eq (n : Node) (c : Change) (result : Except SyncError Unit) :
    ∃ groups templates, (n.persist c result).1 =
      { n with groupStore := groups, templateStore := templates } := by
  unfold persist
  cases hstore : n.storeFor? c result with
  | none => exact ⟨_, _, rfl⟩
  | some s =>
    simp only [setStore]
    split <;> exact ⟨_, _, rfl⟩

/-- A node without stores has none to be told. -/
theorem storeFor?_of_no_stores {n : Node} (hgroups : n.groupStore = none)
    (htemplates : n.templateStore = none) (c : Change) (result : Except SyncError Unit) :
    n.storeFor? c result = none := by
  unfold storeFor? store?
  rw [hgroups, htemplates]
  split
  · split <;> rfl
  · rfl

theorem persist_of_no_stores {n : Node} (hgroups : n.groupStore = none)
    (htemplates : n.templateStore = none) (c : Change) (result : Except SyncError Unit) :
    n.persist c result = (n, result) := by
  unfold persist
  rw [storeFor?_of_no_stores hgroups htemplates]

/-- The messages about a value, for a node that holds the list of its kind. -/
theorem receive_about {n : Node} {k : Kind} (hlist : n.registry.find? k.listName = some k)
    (v : k.Val) (action : Action) :
    n.receive (.cacheUpdate (.about k v action)) =
      ((n.carryOut (.asked k v action)).1, replyTo (n.carryOut (.asked k v action)).2) := by
  unfold receive
  rw [arrival_about hlist]

/-- What becomes of a node that carries out a change for a peer: nothing if the change is held
back, and otherwise only its list, its bus and its stores are touched. -/
theorem carryOut_eq (n : Node) (c : Change) :
    (∃ e, n.guard c = .error e ∧ n.carryOut c = (n, .error e)) ∨
    (n.guard c = .ok () ∧ ∃ bus groups templates, (n.carryOut c).1 = { n with
      lists := n.lists.set c.kind (c.applyTo (n.lists.get c.kind))
      bus := bus
      groupStore := groups
      templateStore := templates }) := by
  unfold carryOut
  cases hguard : n.guard c with
  | error e =>
    rw [commit_of_guard_error hguard]
    exact .inl ⟨e, rfl, rfl⟩
  | ok u =>
    obtain ⟨bus, hcommit⟩ := commit_of_guard hguard
    rw [hcommit]
    obtain ⟨groups, templates, hpersist⟩ := persist_eq { n with
      lists := n.lists.set c.kind (c.applyTo (n.lists.get c.kind)), bus := bus } c (.ok ())
    exact .inr ⟨rfl, bus, groups, templates, hpersist⟩

/-- Whatever message comes, it touches nothing but the lists, the bus and the stores. -/
theorem receive_eq (n : Node) (m : Message) :
    ∃ lists bus groups templates, (n.receive m).1 = { n with
      lists := lists, bus := bus, groupStore := groups, templateStore := templates } := by
  unfold receive
  cases harrival : n.arrival m with
  | reply r => exact ⟨_, _, _, _, rfl⟩
  | change c =>
    rcases carryOut_eq n c with ⟨e, -, heq⟩ | ⟨-, bus, groups, templates, heq⟩
    · simp only [heq]
      exact ⟨_, _, _, _, rfl⟩
    · simp only [heq]
      exact ⟨_, _, _, _, rfl⟩

/-! ## Tidy nodes -/

/-- All lists are tidy. -/
def Tidy (n : Node) : Prop := ∀ k, (n.lists.get k).Tidy k.key

theorem lists_get_of_empty {n : Node} (h : n.lists = .empty) (k : Kind) : n.lists.get k = [] := by
  rw [h]
  cases k <;> rfl

theorem tidy_of_empty {n : Node} (h : n.lists = .empty) : n.Tidy := by
  intro k
  rw [lists_get_of_empty h]
  exact Entries.tidy_nil

theorem values_of_empty {n : Node} (h : n.lists = .empty) (k : Kind) : n.values k = [] := by
  unfold values
  rw [lists_get_of_empty h]
  rfl

theorem tidy_new (config : SyncConfig) (b : Broadcaster) (groups templates : Option Store) :
    (new config b groups templates).Tidy := tidy_of_empty rfl

theorem Tidy.applyTo {n n' : Node} (h : n.Tidy) (c : Change)
    (hlists : n'.lists = n.lists.set c.kind (c.applyTo (n.lists.get c.kind))) : n'.Tidy := by
  intro k
  rw [hlists]
  by_cases hk : k = c.kind
  · subst hk
    rw [Lists.get_set_self]
    exact Change.tidy_applyTo (h c.kind)
  · rw [Lists.get_set_of_ne _ hk]
    exact h k

/-- After a change there is under its key what it leaves there. -/
theorem Tidy.cached_applyTo {n n' : Node} (h : n.Tidy) (c : Change)
    (hlists : n'.lists = n.lists.set c.kind (c.applyTo (n.lists.get c.kind))) :
    n'.cached c.kind c.value = c.left := by
  unfold cached
  rw [hlists, Lists.get_set_self]
  exact Change.find?_applyTo_self (h c.kind)

theorem Tidy.commit {n n' : Node} {c : Change} {outbox : List CacheUpdate} (h : n.Tidy)
    (hcommit : n.commit c = .ok (n', outbox)) : n'.Tidy := by
  cases hguard : n.guard c with
  | error e =>
    rw [commit_of_guard_error hguard] at hcommit
    cases hcommit
  | ok u =>
    obtain ⟨bus, heq⟩ := commit_of_guard hguard
    rw [heq] at hcommit
    cases hcommit
    exact h.applyTo c rfl

theorem Tidy.receive {n : Node} (h : n.Tidy) (m : Message) : (n.receive m).1.Tidy := by
  unfold Node.receive
  cases harrival : n.arrival m with
  | reply r => exact h
  | change c =>
    rcases carryOut_eq n c with ⟨e, -, heq⟩ | ⟨-, bus, groups, templates, heq⟩
    · simp only [heq]
      exact h
    · simp only [heq]
      exact h.applyTo c rfl

end Node

end CloudRoster
