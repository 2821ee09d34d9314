import CloudRoster.Cache.CacheList
import CloudRoster.Proofs.Node.Rounds

/-!
# Removals and the peers

The peers learn of a local removal in two rounds: one for the final state of the value, and one for
the removal itself. The second round takes place only if the first one delivered completely. If it
did not, no retry repairs it, since the value is no longer there to be removed; then the peers that
took the final state go on holding it.
-/

namespace CloudRoster

open Cache (CacheList Entries Rules)

/-! ## A list by itself -/

namespace Cache.CacheList

variable {K V : Type}

/-- The message of a list that tells of a text. -/
def told (l : CacheList K V) (json : String) (action : Action) : CacheUpdate :=
  ⟨l.rules.listName, l.rules.typeName, json, action⟩

/-- A local removal takes the value out of the list, and hands out the removal exactly if the round
for the final state was a success. -/
theorem perform_delete [DecidableEq K] (outcome : Nat → Except SyncError Report)
    {l : CacheList K V} (hspreads : l.spreads = true) {v : V} {json : String}
    (hjson : l.rules.encode v = .ok json) (hcached : (l.cached v).isSome = true) :
    let l' := (l.perform outcome v .delete false).1
    l'.entries = l.entries.erase (l.rules.identify v) ∧
      l'.handed = l.handed ++ match (outcome l.handed.length).bind Report.result with
        | .ok () => [l.told json .update, l.told json .delete]
        | .error _ => [l.told json .update] := by
  have hmessage : ∀ a, l.rules.message v a = .ok (l.told json a) := by
    intro a
    unfold Rules.message
    rw [hjson]
    rfl
  obtain ⟨old, hold⟩ := Option.isSome_iff_exists.1 hcached
  have hfind : l.entries.find? (l.rules.identify v) = some old := hold
  -- both messages are made before anything changes, so the commit cannot fail halfway
  have hcommit : l.rules.commit l.spreads false l.entries v .delete = .ok {
      entries := l.entries.erase (l.rules.identify v)
      events := l.rules.envelopes false (l.rules.updateEvents v (some old) ++
        l.rules.removalEvents v)
      outbox := [l.told json .update, l.told json .delete] } := by
    show l.rules.delete l.spreads false l.entries v = _
    unfold Rules.delete Rules.outbox
    simp only [hfind, hspreads, List.mapM_cons, List.mapM_nil, hmessage, Entries.erase_replace]
    rfl
  intro l'
  have hl' : l' = (l.perform outcome v .delete false).1 := rfl
  unfold perform at hl'
  rw [hcommit] at hl'
  simp only [handOut] at hl'
  cases hround : (outcome l.handed.length).bind Report.result with
  | error e =>
    rw [hround] at hl'
    rw [hl']
    exact ⟨rfl, rfl⟩
  | ok u =>
    rw [hround] at hl'
    simp only at hl'
    rw [hl']
    -- whatever becomes of the second round, its message has been handed out
    split <;> exact ⟨rfl, by simp⟩

end Cache.CacheList

/-! ## Over the loopback -/

namespace World

variable {w : World} {i : Nat} {n : Node} {peers : List (String × Nat)} {k : Kind} {v : k.Val}

/-- The exchange in which the peers learn of the final state of a value. -/
def firstRound (w : World) (peers : List (String × Nat)) (k : Kind) (v : k.Val) :
    World × List (Nat × Message) := w.exchange (.cacheUpdate (.about k v .update)) peers

/-- The exchange after it, in which they learn of the removal. -/
def secondRound (w : World) (peers : List (String × Nat)) (k : Kind) (v : k.Val) :
    World × List (Nat × Message) :=
  (w.firstRound peers k v).1.exchange (.cacheUpdate (.about k v .delete)) peers

/-- What becomes of the nodes in a local removal: the second round takes place exactly if all
replies of the first one tell of success. -/
theorem perform_delete (managed : Bool) (hnode : w[i]? = some n)
    (hpeers : n.broadcaster = .loopback peers) (hother : ∀ p ∈ peers, p.2 ≠ i)
    (hspreads : n.spreads k = true) (hcached : (n.cached k v).isSome = true)
    (hguard : n.guard ⟨k, v, .delete, false, managed⟩ = .ok ()) :
    let all := AllSucceed (w.firstRound peers k v).2
    ∃ n', n'.lists = n.lists.set k ((n.lists.get k).erase (k.key v)) ∧
      n'.handed = n.handed ++ (if all
        then [.cacheUpdate (.about k v .update), .cacheUpdate (.about k v .delete)]
        else [.cacheUpdate (.about k v .update)]) ∧
      (w.perform i ⟨k, v, .delete, false, managed⟩).1 =
        ((if all then w.secondRound peers k v else w.firstRound peers k v).1).update i n' := by
  intro all
  obtain ⟨old, hold⟩ := Option.isSome_iff_exists.1 hcached
  have houtbox : n.outbox ⟨k, v, .delete, false, managed⟩ =
      [.about k v .update, .about k v .delete] := by
    unfold Node.outbox
    simp only [hspreads, hold]
    rfl
  obtain ⟨bus, hcommit⟩ := Node.commit_of_guard hguard
  rw [houtbox] at hcommit
  let c : Change := ⟨k, v, .delete, false, managed⟩
  let removed : Node := { n with lists := n.lists.set k (c.applyTo (n.lists.get k)), bus := bus }
  -- the rounds, each seen from the node with the notes of the messages before it
  let x := removed.hand (.cacheUpdate (.about k v .update))
  let y := x.hand (.cacheUpdate (.about k v .delete))
  have hfirst := spread_cons (n := removed) hnode hpeers hother c (.about k v .update)
    [.about k v .delete]
  have hkept : (w.firstRound peers k v).1[i]? = some n :=
    (getElem?_exchange_of_ne _ hother w).trans hnode
  have hsecond := spread_cons (n := x) hkept hpeers hother c (.about k v .delete) []
  have hkept' : (w.secondRound peers k v).1[i]? = some n :=
    (getElem?_exchange_of_ne _ hother _).trans hkept
  let rounds := spread i c (w.update i removed) [.about k v .update, .about k v .delete]
  obtain ⟨last, hlists, hhanded, hrounds⟩ : ∃ last : Node, last.lists = removed.lists ∧
      last.handed = n.handed ++ (if all
        then [.cacheUpdate (.about k v .update), .cacheUpdate (.about k v .delete)]
        else [.cacheUpdate (.about k v .update)]) ∧
      rounds.1 =
        ((if all then w.secondRound peers k v else w.firstRound peers k v).1).update i last := by
    by_cases hall : all
    · rw [if_pos hall, if_pos hall]
      refine ⟨y, rfl, by simp [y, x, removed, Node.hand], ?_⟩
      have htold : rounds = _ := hfirst.1 hall
      rw [htold]
      by_cases hdelivered : AllSucceed (w.secondRound peers k v).2
      · exact congrArg Prod.fst (hsecond.1 hdelivered)
      · exact hsecond.2 hdelivered
    · rw [if_neg hall, if_neg hall]
      exact ⟨x, rfl, rfl, hfirst.2 hall⟩
  have hlast : rounds.1[i]? = some last := by
    rw [hrounds]
    refine getElem?_update_self (n := n) ?_ last
    split
    · exact hkept'
    · exact hkept
  obtain ⟨groups, templates, hpersist⟩ := last.persist_eq c rounds.2
  refine ⟨(last.persist c rounds.2).1, ?_, ?_, ?_⟩
  · rw [hpersist]
    exact hlists
  · rw [hpersist]
    exact hhanded
  · rw [perform_of_commit hnode hcommit hlast]
    show rounds.1.update i _ = _
    rw [hrounds, update_update]

/-- A node whose list of a kind is open and tidy. -/
structure Ready (k : Kind) (n : Node) : Prop where
  tidy : n.Tidy
  isOpen : n.registry.find? k.listName = some k

theorem Ready.receive {x : Node} (h : Ready k x) (m : Message) : Ready k (x.receive m).1 := by
  refine ⟨h.tidy.receive m, ?_⟩
  obtain ⟨lists, bus, groups, templates, heq⟩ := x.receive_eq m
  rw [heq]
  exact h.isOpen

/-- The message about a value leaves at a peer what the change leaves, or is answered with an error
and leaves everything as it is. -/
theorem Ready.cached_receive {x : Node} (h : Ready k x) (v : k.Val) (action : Action) :
    (x.receive (.cacheUpdate (.about k v action))).1.cached k v = (Change.asked k v action).left ∨
      ∃ e, x.guard (.asked k v action) = .error e ∧
        x.receive (.cacheUpdate (.about k v action)) = (x, Node.replyTo (.error e)) := by
  rw [Node.receive_about h.isOpen]
  rcases x.carryOut_eq (.asked k v action) with ⟨e, hguard, heq⟩ | ⟨-, bus, groups, templates, heq⟩
  · right
    exact ⟨e, hguard, by rw [heq]⟩
  · left
    rw [heq]
    exact h.tidy.cached_applyTo (.asked k v action) rfl

/-- After the first round every peer whose list is open holds the final state. -/
theorem cached_firstRound {x : Node} {j : Nat} (hready : Ready k x) (hx : w[j]? = some x)
    (hpeer : ∃ p ∈ peers, p.2 = j) :
    ∃ x', (w.firstRound peers k v).1[j]? = some x' ∧ x'.cached k v = some v ∧ Ready k x' := by
  obtain ⟨reply, hreply⟩ := exists_reply (.cacheUpdate (.about k v .update)) hpeer w
  have hmake : ∀ x, Ready k x →
      (x.receive (.cacheUpdate (.about k v .update))).1.cached k v = some v ∧
        Ready k (x.receive (.cacheUpdate (.about k v .update))).1 := by
    intro x hx
    refine ⟨?_, hx.receive _⟩
    rcases hx.cached_receive v .update with hleft | ⟨e, hguard, -⟩
    · exact hleft
    · -- only removals are held back
      cases k <;> cases hguard
  exact exchange_replied (I := Ready k) (fun x hx => hx.receive _) (fun x hx _ => hmake x hx)
    (fun x hx _ => hmake x hx) hready hx hreply

/-- After the second round every peer that acknowledged the removal no longer holds the value. -/
theorem cached_secondRound {x : Node} {j : Nat} (hready : Ready k x)
    (hx : (w.firstRound peers k v).1[j]? = some x)
    (hack : (j, .ack) ∈ (w.secondRound peers k v).2) :
    ∃ x', (w.secondRound peers k v).1[j]? = some x' ∧ x'.cached k v = none := by
  refine exchange_replied (I := Ready k) (fun x hx => hx.receive _) ?_ ?_ hready hx hack
  · intro x hx hreply
    rcases hx.cached_receive v .delete with hleft | ⟨e, -, heq⟩
    · exact hleft
    · rw [heq] at hreply
      cases hreply
  · intro x hx hnone
    rcases hx.cached_receive v .delete with hleft | ⟨e, -, heq⟩
    · exact hleft
    · rw [heq]
      exact hnone

/-- The nodes that hold the value after a local removal over the loopback. -/
theorem cached_perform_delete (managed : Bool) (htidy : w.Tidy) (hnode : w[i]? = some n)
    (hpeers : n.broadcaster = .loopback peers) (hother : ∀ p ∈ peers, p.2 ≠ i)
    (hspreads : n.spreads k = true) (hcached : (n.cached k v).isSome = true)
    (hguard : n.guard ⟨k, v, .delete, false, managed⟩ = .ok ()) :
    let all := AllSucceed (w.firstRound peers k v).2
    let w' := (w.perform i ⟨k, v, .delete, false, managed⟩).1
    (∃ n', w'[i]? = some n' ∧ n'.cached k v = none ∧ n'.handed = n.handed ++ (if all
      then [.cacheUpdate (.about k v .update), .cacheUpdate (.about k v .delete)]
      else [.cacheUpdate (.about k v .update)])) ∧
    ∀ j x, w[j]? = some x → (∃ p ∈ peers, p.2 = j) → x.registry.find? k.listName = some k →
      ∃ x', w'[j]? = some x' ∧
        (all → (j, .ack) ∈ (w.secondRound peers k v).2 → x'.cached k v = none) ∧
        (¬ all → x'.cached k v = some v) := by
  intro all w'
  obtain ⟨n', hlists, hhanded, hw'⟩ :=
    perform_delete managed hnode hpeers hother hspreads hcached hguard
  have hw' : w' = _ := hw'
  rw [hw']
  refine ⟨⟨n', ?_, ?_, hhanded⟩, ?_⟩
  · refine getElem?_update_self (n := n) ?_ n'
    have hkept : (w.firstRound peers k v).1[i]? = some n :=
      (getElem?_exchange_of_ne _ hother w).trans hnode
    split
    · exact (getElem?_exchange_of_ne _ hother _).trans hkept
    · exact hkept
  · unfold Node.cached
    rw [hlists, Lists.get_set_self]
    exact Entries.find?_erase_self (htidy.get hnode k).nodup (k.key v)
  · rintro j x hx ⟨p, hp, rfl⟩ hopen
    obtain ⟨y, hy, hfinal, hready⟩ :=
      cached_firstRound (v := v) ⟨htidy.get hx, hopen⟩ hx ⟨p, hp, rfl⟩
    rw [getElem?_update_of_ne _ (hother p hp)]
    by_cases hall : all
    · rw [if_pos hall]
      obtain ⟨z, hz, hkeeps⟩ := exchange_keeps (P := Ready k)
        (m := .cacheUpdate (.about k v .delete)) (fun x hx => hx.receive _) hready peers hy
      refine ⟨z, hz, fun _ hack => ?_, fun hnot => absurd hall hnot⟩
      obtain ⟨z', hz', hnone⟩ := cached_secondRound hready hy hack
      have hsame : z = z' := Option.some.inj (hz.symm.trans hz')
      rw [hsame]
      exact hnone
    · rw [if_neg hall]
      exact ⟨y, hy, fun h => absurd h hall, fun _ => hfinal⟩

end World

/-! ## Peers that learn of a removal -/

namespace Lobby

/-- A group that every node holds. -/
def group : Group := .new "Lobby" .lobby

/-- A node that holds the group. -/
def holder (b : Broadcaster) (store : Option Storage.Store) : Node :=
  { Node.new .standard b store none with
    lists := { Lists.empty with groups := [(group.key, group)] } }

/-- The peers of the first node. -/
def peers : List (String × Nat) := [("a", 1), ("b", 2)]

/-- A node with two peers, the first of which may have a store. -/
def world (store : Option Storage.Store) : World :=
  [holder (.loopback peers) none, holder .none store, holder .none none]

theorem tidy_holder (b : Broadcaster) (store : Option Storage.Store) : (holder b store).Tidy := by
  intro k
  cases k with
  | group => exact Entries.tidy_singleton group
  | _ => exact Entries.tidy_nil

theorem tidy_world (store : Option Storage.Store) : (world store).Tidy := by
  intro n hn
  simp only [world, List.mem_cons, List.not_mem_nil, or_false] at hn
  rcases hn with rfl | rfl | rfl <;> exact tidy_holder _ _

/-- A store whose directory is gone. -/
def lostStore : Storage.Store := .onDirectory ⟨"groups", false, []⟩

theorem receive_holder :
    (holder .none none).receive (.cacheUpdate (.about .group group .update)) =
      (((holder .none none).carryOut (.asked .group group .update)).1, .ack) := by
  rw [Node.receive_about rfl]
  rfl

theorem receive_holder_twice :
    (((holder .none none).carryOut (.asked .group group .update)).1.receive
      (.cacheUpdate (.about .group group .delete))).2 = .ack := by
  rw [Node.receive_about rfl]
  rfl

theorem receive_holder_lostStore :
    ((holder .none (some lostStore)).receive (.cacheUpdate (.about .group group .update))).2 =
      .error (.ofError (.persistence
        "groups/lobby.json: No such file or directory (os error 2)")) := by
  rw [Node.receive_about rfl]
  rfl

theorem firstRound_world (store : Option Storage.Store) :
    ((world store).firstRound peers .group group).2 =
      [(1, ((holder .none store).receive (.cacheUpdate (.about .group group .update))).2),
        (2, .ack)] := by
  have hreply : ((world store).firstRound peers .group group).2 =
      [(1, ((holder .none store).receive (.cacheUpdate (.about .group group .update))).2),
        (2, ((holder .none none).receive (.cacheUpdate (.about .group group .update))).2)] := rfl
  rw [hreply, receive_holder]

theorem secondRound_world :
    (2, .ack) ∈ ((world none).secondRound peers .group group).2 := by
  have hreplies : ((world none).secondRound peers .group group).2 =
      [(1, (((holder .none none).receive (.cacheUpdate (.about .group group .update))).1.receive
          (.cacheUpdate (.about .group group .delete))).2),
        (2, (((holder .none none).receive (.cacheUpdate (.about .group group .update))).1.receive
          (.cacheUpdate (.about .group group .delete))).2)] := rfl
  rw [hreplies, receive_holder, receive_holder_twice]
  simp

/-- A peer whose store is lost answers the final state of the group with an error. Then the other
peer, which acknowledged it, is never told of the removal and goes on holding the group. -/
theorem removal_withheld_from_healthy_peer :
    let w := world (some lostStore)
    let w' := (w.perform 0 ⟨.group, group, .delete, false, true⟩).1
    (2, .ack) ∈ (w.firstRound peers .group group).2 ∧
      (∃ n', w'[0]? = some n' ∧ n'.cached .group group = none ∧
        n'.handed = [.cacheUpdate (.about .group group .update)]) ∧
      ∃ x', w'[2]? = some x' ∧ x'.cached .group group = some group := by
  intro w w'
  have hfirst := firstRound_world (some lostStore)
  rw [receive_holder_lostStore] at hfirst
  have hfail : ¬ World.AllSucceed (w.firstRound peers .group group).2 := by
    rw [hfirst]
    exact fun h => absurd (h _ List.mem_cons_self) (by decide)
  obtain ⟨⟨n', hn', hnone, hhanded⟩, hothers⟩ := World.cached_perform_delete (w := w) (i := 0)
    (k := .group) (v := group) true (tidy_world _) rfl rfl (by decide) rfl rfl rfl
  rw [if_neg hfail] at hhanded
  obtain ⟨x', hx', -, hholds⟩ := hothers 2 _ rfl ⟨("b", 2), by decide, rfl⟩ rfl
  refine ⟨?_, ⟨n', hn', hnone, hhanded⟩, x', hx', hholds hfail⟩
  rw [hfirst]
  simp

end Lobby

/-- A local removal of a value that is there hands out its final state, and then the removal exactly
if the round for the final state was a success. Over the loopback that is so if every peer replied
to the final state with success: then each peer that acknowledges the removal no longer holds the
value. If a single peer did not, every peer goes on holding the final state. -/
theorem removal_told_iff_delivered (outcome : Nat → Except SyncError Report) {w : World}
    (htidy : w.Tidy) :
    (∀ {K V : Type} [DecidableEq K] (l : CacheList K V) (v : V) (json : String),
        l.spreads = true → l.rules.encode v = .ok json → (l.cached v).isSome = true →
      let l' := (l.perform outcome v .delete false).1
      l'.entries = l.entries.erase (l.rules.identify v) ∧
        l'.handed = l.handed ++ match (outcome l.handed.length).bind Report.result with
          | .ok () => [l.told json .update, l.told json .delete]
          | .error _ => [l.told json .update]) ∧
    ∀ (i : Nat) (n : Node) (peers : List (String × Nat)) (k : Kind) (v : k.Val) (managed : Bool),
        w[i]? = some n → n.broadcaster = .loopback peers → (∀ p ∈ peers, p.2 ≠ i) →
        n.spreads k = true → (n.cached k v).isSome = true →
        n.guard ⟨k, v, .delete, false, managed⟩ = .ok () →
      let all := World.AllSucceed (w.firstRound peers k v).2
      let w' := (w.perform i ⟨k, v, .delete, false, managed⟩).1
      (∃ n', w'[i]? = some n' ∧ n'.cached k v = none ∧ n'.handed = n.handed ++ (if all
        then [.cacheUpdate (.about k v .update), .cacheUpdate (.about k v .delete)]
        else [.cacheUpdate (.about k v .update)])) ∧
      ∀ j x, w[j]? = some x → (∃ p ∈ peers, p.2 = j) → x.registry.find? k.listName = some k →
        ∃ x', w'[j]? = some x' ∧
          (all → (j, .ack) ∈ (w.secondRound peers k v).2 → x'.cached k v = none) ∧
          (¬ all → x'.cached k v = some v) := by
  refine ⟨?_, ?_⟩
  · intro K V _ l v json hspreads hjson hcached
    exact l.perform_delete outcome hspreads hjson hcached
  · intro i n peers k v managed hnode hpeers hother hspreads hcached hguard
    exact World.cached_perform_delete managed htidy hnode hpeers hother hspreads hcached hguard

/-- Two peers without stores: both are told of the removal of a group, and the second one does not
hold it any more. -/
theorem removal_told_to_healthy_peers :
    let w := Lobby.world none
    let w' := (w.perform 0 ⟨.group, Lobby.group, .delete, false, true⟩).1
    World.AllSucceed (w.firstRound Lobby.peers .group Lobby.group).2 ∧
      (2, .ack) ∈ (w.secondRound Lobby.peers .group Lobby.group).2 ∧
      ∃ x', w'[2]? = some x' ∧ x'.cached .group Lobby.group = none := by
  intro w w'
  have hall : World.AllSucceed (w.firstRound Lobby.peers .group Lobby.group).2 := by
    rw [Lobby.firstRound_world none, Lobby.receive_holder]
    decide
  have hdelivered := removal_told_iff_delivered (fun _ => .ok .empty) (Lobby.tidy_world none)
  obtain ⟨-, hothers⟩ := hdelivered.2 0 _ Lobby.peers .group Lobby.group true rfl rfl (by decide)
    rfl rfl rfl
  obtain ⟨x', hx', hgone, -⟩ := hothers 2 _ rfl ⟨("b", 2), by decide, rfl⟩ rfl
  exact ⟨hall, Lobby.secondRound_world, x', hx', hgone hall Lobby.secondRound_world⟩

end CloudRoster
