import CloudRoster.Proofs.Node.Convergence

/-!
# Two nodes agree in the end

Whatever two connected nodes are asked to change, and however the steps of their operations come
about, they hold the same values again once all operations are over, unless a round that ran out of
time stranded its change.
-/

namespace CloudRoster

namespace Traffic

/-! ## Runs -/

/-- Nothing has been started, and the nodes agree. -/
theorem converging_new {w : World} (hpair : w.Pair)
    (hsame : ∀ s : (k : Kind) × k.Key, s.1.Unguarded → Agree w s) : (Traffic.new w).Converging := by
  refine ⟨hpair, ?_, ?_, ?_, ?_⟩
  · intro id o ho
    cases ho
  · exact Cache.LockTable.tracks_empty
  · intro id o c r ho
    cases ho
  · intro s hs
    exact .inl (hsame s hs)

/-- Another operation is started; it has neither asked for anything nor anything to tell yet. -/
theorem Converging.start {t : Traffic} (h : t.Converging) {node : Nat} {task : Task}
    (hnode : node < 2) (htask : task.Local) : (t.step (.start node task)).Converging := by
  have hold : ∀ (id : Nat) (o : Operation), t.operations[id]? = some o →
      (t.operations ++ [⟨node, task, .fresh⟩])[id]? = some o := by
    intro id o ho
    obtain ⟨hlt, -⟩ := List.getElem?_eq_some_iff.1 ho
    rw [List.getElem?_append_left hlt, ho]
  -- the new operation is fresh, so it is no round and carries nothing
  have hget : ∀ (id : Nat) (o : Operation),
      (t.operations ++ [⟨node, task, .fresh⟩])[id]? = some o →
      t.operations[id]? = some o ∨ o = ⟨node, task, .fresh⟩ := by
    intro id o ho
    rcases Nat.lt_or_ge id t.operations.length with hlt | hge
    · rw [List.getElem?_append_left hlt] at ho
      exact .inl ho
    · rw [List.getElem?_append_right hge] at ho
      exact .inr (List.mem_singleton.1 (List.mem_of_getElem? ho))
  refine ⟨h.pair, ?_, ?_, ?_, ?_⟩
  · intro id o ho
    rcases hget id o ho with ho | rfl
    · exact h.sound id o ho
    · exact ⟨hnode, htask⟩
  · show t.locks.Tracks (siteOf _ (t.operations ++ [_])) (siteOf _ (t.operations ++ [_]))
    rw [siteOf_append _ _ (Operation.holds?_fresh rfl),
      siteOf_append _ _ (Operation.asks?_fresh rfl)]
    exact h.tracks
  · intro id o c r ho hphase
    rcases hget id o ho with ho | rfl
    · exact h.own id o c r ho hphase
    · cases hphase
  · intro s hs
    rcases h.agreed s hs with hagree | ⟨id, o, ho, hcarries⟩
    · exact .inl hagree
    · exact .inr ⟨id, o, hold id o ho, hcarries⟩

end Traffic

/-- A step of operations that change values on one of two nodes and are not abandoned. -/
def Step.Local : Step → Prop
  | .start node task => node < 2 ∧ task.Local
  | .abandon _ => False
  | _ => True

namespace Traffic

/-- Every step goes towards agreement, unless a round runs out of time and strands its change. -/
theorem Converging.step {t : Traffic} (h : t.Converging) {x : Step} (hlocal : x.Local)
    (hstrands : ∀ id, x = .expire id → ¬ t.Strands id) : (t.step x).Converging := by
  cases x with
  | start node task => exact h.start hlocal.1 hlocal.2
  | tick ms => exact ⟨h.pair, h.sound, h.tracks, h.own, h.agreed⟩
  | abandon id => exact hlocal.elim
  | poll id =>
    show ((t.operations[id]?).elim t (t.poll id)).Converging
    cases hop : t.operations[id]? with
    | none => exact h
    | some o => exact h.poll hop
  | expire id =>
    show ((t.operations[id]?).elim t (t.expire id)).Converging
    cases hop : t.operations[id]? with
    | none => exact h
    | some o => exact h.expire hop (hstrands id rfl)
  | answer id outcome =>
    show ((t.operations[id]?).elim t (t.answer id · outcome)).Converging
    cases hop : t.operations[id]? with
    | none => exact h
    | some o => exact h.answer hop outcome
  | persist id =>
    show ((t.operations[id]?).elim t (t.persist id)).Converging
    cases hop : t.operations[id]? with
    | none => exact h
    | some o => exact h.persist hop

/-- A run during which no round strands its change goes towards agreement all the time. -/
theorem Converging.run {t : Traffic} (h : t.Converging) (steps : List Step)
    (hlocal : ∀ x ∈ steps, x.Local)
    (hstrands : ∀ i id : Nat, steps[i]? = some (.expire id) → ¬ (t.run (steps.take i)).Strands id) :
    (t.run steps).Converging := by
  induction steps generalizing t with
  | nil => exact h
  | cons x later ih =>
    have hstep := h.step (hlocal x List.mem_cons_self) fun id hx => hstrands 0 id (congrArg some hx)
    exact ih hstep (fun y hy => hlocal y (List.mem_cons_of_mem x hy)) fun i id hi =>
      hstrands (i + 1) id hi

/-! ## Two nodes at odds

Both nodes hold a template; one is asked to remove it while the other one is asked to replace it. -/

namespace Duel

/-- A template that both nodes hold. -/
def base : Template := .new "Base"

/-- The same template, which inherits from another one now. -/
def derived : Template := { base with inheritedTemplateNames := ["Root"] }

def subject : (k : Kind) × k.Key := ⟨.template, base.key⟩

/-- A node that holds the template and has a single peer. -/
def holder (peer : Nat) : Node :=
  { Node.new .standard (.loopback [("peer", peer)]) none none with
    lists := { Lists.empty with templates := [(base.key, base)] } }

def world : World := [holder 1, holder 0]

theorem isOpen (peer : Nat) (k : Kind) : (holder peer).registry.find? k.listName = some k :=
  Node.find?_registry_new .standard (.loopback [("peer", peer)]) none none k

theorem tidy_holder (peer : Nat) : (holder peer).Tidy := by
  intro k
  cases k with
  | template => exact Cache.Entries.tidy_singleton base
  | _ => exact Cache.Entries.tidy_nil

theorem pair : world.Pair := by
  refine ⟨rfl, ?_, ?_, ?_⟩
  · intro n hn
    simp only [world, List.mem_cons, List.not_mem_nil, or_false] at hn
    rcases hn with rfl | rfl <;> exact tidy_holder _
  · intro n hn
    simp only [world, List.mem_cons, List.not_mem_nil, or_false] at hn
    rcases hn with rfl | rfl <;> exact ⟨isOpen _, rfl, rfl⟩
  · intro i n hnode
    match i, hnode with
    | 0, hnode | 1, hnode =>
      cases hnode
      exact ⟨"peer", rfl⟩

theorem agree (s : (k : Kind) × k.Key) : Agree world s := rfl

def removal : Change := ⟨.template, base, .delete, false, true⟩

def replacement : Change := ⟨.template, derived, .update, false, true⟩

/-- Each node changes the template at home, and its visit sets out for the other node. -/
def opening : List Step :=
  [.start 0 (.change removal), .start 1 (.change replacement), .poll 0, .poll 1]

/-- What the opening leads to. -/
def begun : Traffic where
  world := [
    ((holder 1).carryOut removal).1.hand (.cacheUpdate (.about .template base .update)),
    ((holder 0).carryOut replacement).1.hand (.cacheUpdate (.about .template derived .update))]
  clock := 0
  operations := [
    ⟨0, .change removal, .round removal
      (.telling 0 removal .update [.about .template base .delete] "peer" 5000 .coming)⟩,
    ⟨1, .change replacement, .round replacement
      (.telling 1 replacement .update [] "peer" 5000 .coming)⟩]
  locks := ⟨[((0, subject), ⟨some (.held ⟨0, false⟩), []⟩),
    ((1, subject), ⟨some (.held ⟨1, false⟩), []⟩)]⟩
  journal := [
    .asked (0, subject) ⟨0, false⟩, .committed (0, subject) ⟨0, false⟩ removal,
    .handed (0, subject) 0 (.about .template base .update),
    .asked (1, subject) ⟨1, false⟩, .committed (1, subject) ⟨1, false⟩ replacement,
    .handed (1, subject) 1 (.about .template derived .update)]

theorem run_opening : (new world).run opening = begun := by
  let started : Traffic :=
    (new world).run [.start 0 (.change removal), .start 1 (.change replacement)]
  have hremoved : started.step (.poll 0) =
      sendAll 0 ⟨0, .change removal, .fresh⟩ removal { started with
        world := [((holder 1).carryOut removal).1, holder 0]
        locks := ⟨[((0, subject), ⟨some (.held ⟨0, false⟩), []⟩)]⟩
        journal := [.asked (0, subject) ⟨0, false⟩, .committed (0, subject) ⟨0, false⟩ removal] }
        [.about .template base .update, .about .template base .delete] := rfl
  have hleft := hremoved.trans (sendAll_about (by decide) rfl rfl rfl (isOpen 0 .template) 0 .update
    [.about .template base .delete])
  have hreplaced : (new world).run opening =
      sendAll 1 ⟨1, .change replacement, .fresh⟩ replacement { begun with
        world := begun.world.set 1 ((holder 0).carryOut replacement).1
        operations := begun.operations.set 1 ⟨1, .change replacement, .fresh⟩
        journal := begun.journal.take 5 }
        [.about .template derived .update] := by
    show (started.step (.poll 0)).step (.poll 1) = _
    rw [hleft]
    rfl
  exact hreplaced.trans
    (sendAll_about (by decide) rfl rfl rfl (isOpen 1 .template) 1 .update [])

/-- Each visit waits for the other node, until the time of the first one is up; the second one then
goes on. -/
def meeting : List Step := [.poll 0, .poll 1, .tick 5000, .expire 0, .poll 1]

/-- A second removal waits behind the first one. When the times of both visits are up before it goes
on, it finds nothing to remove. -/
def parting : List Step :=
  [.start 0 (.change removal), .poll 2, .poll 0, .poll 1, .tick 5000, .expire 0, .expire 1, .poll 2]

theorem local_removal : removal.Local := ⟨rfl, .inl rfl⟩

theorem local_replacement : replacement.Local := ⟨rfl, .inl rfl⟩

end Duel

/-- Two nodes that held the same values hold the same values again once all operations are over,
however many they were and however their steps came about, as long as no round that ran out of time
stranded its change. A round that does so leaves the nodes apart, and no operation that would bring
them together. -/
theorem agree_unless_stranded {w : World} (hpair : w.Pair)
    (hsame : ∀ s : (k : Kind) × k.Key, s.1.Unguarded → Agree w s) (steps : List Step)
    (hlocal : ∀ x ∈ steps, x.Local)
    (hstrands : ∀ i id : Nat, steps[i]? = some (.expire id) →
      ¬ ((Traffic.new w).run (steps.take i)).Strands id) :
    let t := (Traffic.new w).run steps
    (t.isQuiet = true → ∀ s : (k : Kind) × k.Key, s.1.Unguarded → Agree t.world s) ∧
      ∀ id, t.Strands id → ∃ s : (k : Kind) × k.Key, s.1.Unguarded ∧
        ¬ Agree (t.step (.expire id)).world s ∧
        ∀ (i : Nat) (o : Operation), (t.step (.expire id)).operations[i]? = some o →
          ¬ o.Carries (t.step (.expire id)).world s := by
  intro t
  have h : t.Converging := (converging_new hpair hsame).run steps hlocal hstrands
  refine ⟨?_, fun id => h.expire_of_strands⟩
  intro hquiet s hs
  rcases h.agreed s hs with hagree | ⟨id, o, ho, hcarries⟩
  · exact hagree
  · -- an operation that is over has nothing to tell
    have hover := List.all_eq_true.1 hquiet o (List.mem_of_getElem? ho)
    unfold Operation.Carries at hcarries
    split at hcarries
    · rename_i hphase
      rw [hphase] at hover
      cases hover
    · rename_i hphase
      rw [hphase] at hover
      cases hover
    · exact hcarries.elim

namespace Duel

/-- After the meeting both nodes hold what the second one put there. -/
theorem agree_after_meeting :
    ((new world).run (opening ++ meeting)).isQuiet = true ∧
      ((new world).run (opening ++ meeting)).world.valueAt (0, subject) = some derived ∧
      Agree ((new world).run (opening ++ meeting)).world subject := by
  have hrun : ∀ later, (new world).run (opening ++ later) = begun.run later := by
    intro later
    rw [run_append, run_opening]
  have hlocal : ∀ x ∈ opening ++ meeting, x.Local := by
    intro x hx
    simp only [opening, meeting, List.cons_append, List.nil_append, List.mem_cons,
      List.not_mem_nil, or_false] at hx
    rcases hx with rfl | rfl | rfl | rfl | rfl | rfl | rfl | rfl | rfl
    · exact ⟨by decide, local_removal⟩
    · exact ⟨by decide, local_replacement⟩
    all_goals exact trivial
  have hstrands : ∀ i id : Nat, (opening ++ meeting)[i]? = some (.expire id) →
      ¬ ((new world).run ((opening ++ meeting).take i)).Strands id := by
    intro i id hi
    match i, hi with
    | 7, hi =>
      rw [show (opening ++ meeting).take 7 = opening ++ meeting.take 3 from rfl, hrun]
      -- neither operation waits at home
      rintro ⟨o, c, r, j, o', c', -, -, -, hj, hphase, -⟩
      match j, hj with
      | 0, hj | 1, hj =>
        cases hj
        cases hphase
    | 8, hi => cases hi
    | n + 9, hi => cases hi
  have hquiet : ((new world).run (opening ++ meeting)).isQuiet = true := by
    rw [hrun]
    rfl
  have hvalue : ((new world).run (opening ++ meeting)).world.valueAt (0, subject) =
      some derived := by
    rw [hrun]
    rfl
  obtain ⟨hagree, -⟩ := agree_unless_stranded pair (fun s _ => agree s) _ hlocal hstrands
  exact ⟨hquiet, hvalue, hagree hquiet subject (.inl rfl)⟩

/-- After the parting one node holds nothing, and the other one what it put there itself. -/
theorem apart_after_parting :
    world.Pair ∧ (∀ s, Agree world s) ∧ (∀ x ∈ opening ++ parting, x.Local) ∧
      ((new world).run (opening ++ parting)).isQuiet = true ∧
      ((new world).run (opening ++ parting)).world.valueAt (0, subject) = none ∧
      ((new world).run (opening ++ parting)).world.valueAt (1, subject) = some derived := by
  have hlocal : ∀ x ∈ opening ++ parting, x.Local := by
    intro x hx
    simp only [opening, parting, List.cons_append, List.nil_append, List.mem_cons,
      List.not_mem_nil, or_false] at hx
    rcases hx with rfl | rfl | rfl | rfl | rfl | rfl | rfl | rfl | rfl | rfl | rfl | rfl
    · exact ⟨by decide, local_removal⟩
    · exact ⟨by decide, local_replacement⟩
    · exact trivial
    · exact trivial
    · exact ⟨by decide, local_removal⟩
    all_goals exact trivial
  rw [run_append, run_opening]
  refine ⟨pair, agree, hlocal, ?_, ?_, ?_⟩
  · rfl
  · rfl
  · rfl

end Duel

end Traffic

end CloudRoster
