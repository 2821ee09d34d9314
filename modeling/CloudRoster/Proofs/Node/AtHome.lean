import CloudRoster.Proofs.Node.Rounds

/-!
# A change at its own node

While the messages of a change go round, its node is busy with the value, and a visit of that very
value there would wait. So whatever the broadcaster is and whatever it answers, the rounds leave the
node as the commit left it, but for the notes of the messages handed out.
-/

namespace CloudRoster

/-- What a change has for the peers are messages about its value. -/
theorem Node.outbox_eq_map_of_commit {n n' : Node} {c : Change} {outbox : List CacheUpdate}
    (h : n.commit c = .ok (n', outbox)) :
    ∃ actions : List Action, outbox = actions.map (.about c.kind c.value) := by
  have houtbox : outbox = n.outbox c := by
    obtain ⟨bus, hcommit⟩ := commit_of_guard (commit_cases h).1
    rw [hcommit] at h
    cases h
    rfl
  rw [houtbox]
  unfold Node.outbox
  split
  · split
    · exact ⟨[.update], rfl⟩
    · exact ⟨[.update, .delete], rfl⟩
    · exact ⟨[], rfl⟩
  · exact ⟨[], rfl⟩

/-- The message about a value asks for a change of that value, or for none. -/
theorem Node.arrival_about_cases (n : Node) (k : Kind) (v : k.Val) (action : Action) :
    (∃ r, n.arrival (.cacheUpdate (.about k v action)) = .reply r) ∨
      n.arrival (.cacheUpdate (.about k v action)) = .change (.asked k v action) := by
  have hlist : (CacheUpdate.about k v action).listName = k.listName := rfl
  cases hfind : n.registry.find? k.listName with
  | none =>
    left
    refine ⟨.ack, ?_⟩
    have hasked : n.requestedChange (.about k v action) = .ok none := by
      unfold requestedChange
      rw [hlist, hfind]
    unfold arrival
    simp only [hasked]
  | some list =>
    by_cases hkind : k = list
    · subst hkind
      exact .inr (arrival_about hfind v action)
    · left
      have hasked : n.requestedChange (.about k v action) =
          .error (.typeMismatch k.listName list.typeName k.typeName) := by
        unfold requestedChange
        simp only [CacheUpdate.about, hfind, ValueTypes.decode_encode]
        simp [bind, Except.bind, hkind]
        rfl
      unfold arrival
      simp only [hasked]
      exact ⟨_, rfl⟩

namespace World

/-- A visit of the value that a node is busy with does not touch that node. -/
theorem visit_busy {w w' : World} {i j : Nat} {n : Node} {k : Kind} {v : k.Val} {action : Action}
    {name : String} {r r' : Report} (hnode : w[i]? = some n)
    (hvisit : w.visit (some (i, ⟨k, k.key v⟩)) (.cacheUpdate (.about k v action)) name j r =
      some (w', r')) : w'[i]? = some n := by
  unfold visit at hvisit
  cases hj : w[j]? with
  | none =>
    rw [hj] at hvisit
    cases hvisit
    exact hnode
  | some x =>
    simp only [hj] at hvisit
    obtain ⟨hwaits, heq⟩ := Option.ite_none_left_eq_some.1 hvisit
    cases heq
    by_cases hij : j = i
    · -- the node itself: it is asked for nothing, or it would wait
      subst hij
      cases hnode.symm.trans hj
      rcases n.arrival_about_cases k v action with ⟨reply, harrival⟩ | harrival
      · have hsame : (n.receive (.cacheUpdate (.about k v action))).1 = n := by
          unfold Node.receive
          rw [harrival]
        rw [hsame]
        exact getElem?_update_self hnode n
      · rw [harrival] at hwaits
        exact absurd (decide_eq_true rfl) hwaits
    · rw [getElem?_update_of_ne _ (Ne.symm hij)]
      exact hnode

theorem visitAll_busy {w : World} {i : Nat} {n : Node} {k : Kind} {v : k.Val} (action : Action)
    (hnode : w[i]? = some n) (peers : List (String × Nat)) (r : Report) :
    (visitAll (some (i, ⟨k, k.key v⟩)) (.cacheUpdate (.about k v action)) w peers r).1[i]? =
      some n := by
  induction peers generalizing w r with
  | nil => exact hnode
  | cons p peers ih =>
    obtain ⟨name, j⟩ := p
    unfold visitAll
    cases hvisit : w.visit (some (i, ⟨k, k.key v⟩)) (.cacheUpdate (.about k v action)) name j r with
    | none => exact hnode
    | some visited => exact ih (visit_busy hnode hvisit) visited.2

/-- A round of a node that is busy with the value of the message: it takes note of the message. -/
theorem broadcast_busy {w : World} {i : Nat} {n : Node} {k : Kind} {v : k.Val} (action : Action)
    (hnode : w[i]? = some n) (timeout : Option Nat) :
    (w.broadcast i (some ⟨k, k.key v⟩) timeout (.cacheUpdate (.about k v action))).1[i]? =
      some (n.hand (.cacheUpdate (.about k v action))) := by
  have hhanded := getElem?_update_self hnode (n.hand (.cacheUpdate (.about k v action)))
  unfold broadcast
  simp only [hnode]
  split
  · exact hhanded
  · exact hhanded
  · split <;> exact hhanded
  · rename_i peers _
    have hvisits := visitAll_busy (v := v) action hhanded peers ⟨peers.length, 0, []⟩
    simp only [Option.map_some]
    split <;> exact hvisits

/-- Handing out the messages of a change: its node takes note of the first of them, up to the round
that fails. -/
theorem spread_at_home {w : World} {i : Nat} {n : Node} (c : Change) (hnode : w[i]? = some n)
    (actions : List Action) :
    ∃ told, told <+: actions ∧ (actions ≠ [] → told ≠ []) ∧
      (spread i c w (actions.map (.about c.kind c.value))).1[i]? = some { n with
        handed := n.handed ++ told.map fun a => .cacheUpdate (.about c.kind c.value a) } := by
  induction actions generalizing w n with
  | nil => exact ⟨[], List.prefix_refl _, fun h => absurd rfl h, by simpa [spread] using hnode⟩
  | cons a actions ih =>
    have hround := broadcast_busy (v := c.value) a hnode
      ((w[i]?).map (·.config.broadcastTimeoutMs.toNat))
    rw [List.map_cons, spread]
    simp only
    split
    · obtain ⟨told, hprefix, -, hspread⟩ := ih hround
      refine ⟨a :: told, (List.prefix_cons_inj a).2 hprefix, fun _ => List.cons_ne_nil _ _, ?_⟩
      refine hspread.trans ?_
      simp [Node.hand]
    · exact ⟨[a], (List.prefix_cons_inj a).2 (List.nil_prefix), fun _ => List.cons_ne_nil _ _,
        hround⟩

/-- A change that is let through ends at its node with the store, which is told of the result of the
rounds; at least one message has been handed out if there was any. -/
theorem perform_at_home {w : World} {i : Nat} {n committed : Node} {c : Change}
    {outbox : List CacheUpdate} (hnode : w[i]? = some n)
    (hcommit : n.commit c = .ok (committed, outbox)) :
    ∃ (told : List CacheUpdate) (result : Except SyncError Unit),
      let done := { committed with handed := committed.handed ++ told.map Message.cacheUpdate }
      told <+: outbox ∧ (outbox ≠ [] → told ≠ []) ∧ (outbox = [] → result = .ok ()) ∧
        (w.perform i c).1[i]? = some (done.persist c result).1 ∧
        (w.perform i c).2 = (done.persist c result).2 := by
  obtain ⟨actions, rfl⟩ := Node.outbox_eq_map_of_commit hcommit
  obtain ⟨told, hprefix, htold, hspread⟩ :=
    spread_at_home c (getElem?_update_self hnode committed) actions
  refine ⟨told.map (.about c.kind c.value),
    (spread i c (w.update i committed) (actions.map (.about c.kind c.value))).2,
    hprefix.map _, ?_, ?_, ?_, ?_⟩
  · intro hsome
    simpa using htold (by simpa using hsome)
  · intro hnone
    rw [hnone]
    rfl
  · rw [perform_of_commit hnode hcommit hspread, List.map_map]
    exact getElem?_update_self hspread _
  · rw [perform_of_commit hnode hcommit hspread, List.map_map]
    rfl

/-- A change that is held back changes nothing. -/
theorem perform_of_guard_error {w : World} {i : Nat} {n : Node} {c : Change} {e : SyncError}
    (hnode : w[i]? = some n) (hguard : n.guard c = .error e) : w.perform i c = (w, .error e) := by
  unfold perform
  simp only [hnode, Node.commit_of_guard_error hguard]

end World

end CloudRoster
