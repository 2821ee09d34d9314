import CloudRoster.Proofs.Node.Claims
import CloudRoster.Proofs.Node.Rounds
import CloudRoster.Proofs.Node.StepMoves

/-!
# What holds at every time

In a sound scene every operation is in a phase that fits where its claimants stand. A step of a
sound scene is a row of moves, after which operations are in other phases and the scene is sound
again. So what holds of a scene with nothing started, is kept by every move and does not depend on
phases holds at every time of every run (`Sound.run`).
-/

namespace CloudRoster

open Relation (ReflTransGen)

/-- The phases of all operations fit where the claimants stand. -/
structure Sound (x : Scene) : Prop where
  allows : ∀ (id : Nat) (o : Operation), x.traffic.operations[id]? = some o → x.Allows id o o.phase
  /-- Claimants of operations that do not exist stand at `away`. -/
  unknown : ∀ who : Claimant, x.traffic.operations.length ≤ who.operation → x.standing who = .away

/-- Moves of any operations. -/
def Evolves : Scene → Scene → Prop :=
  ReflTransGen fun x y => ∃ (who : Claimant) (o : Operation),
    x.traffic.operations[who.operation]? = some o ∧ Move who o x y

/-- The scenes only differ in the phases of operations, in the time, and in operations that are
new. -/
structure Resembles (x y : Scene) : Prop where
  world : y.traffic.world = x.traffic.world
  locks : y.traffic.locks = x.traffic.locks
  journal : y.traffic.journal = x.traffic.journal
  standing : y.standing = x.standing
  tasks : ∀ (id : Nat) (o : Operation), x.traffic.operations[id]? = some o →
    ∃ o', y.traffic.operations[id]? = some o' ∧ o'.node = o.node ∧ o'.task = o.task

variable {id : Nat} {o : Operation} {x y : Scene}

theorem Resembles.refl (x : Scene) : Resembles x x :=
  ⟨rfl, rfl, rfl, rfl, fun _ o ho => ⟨o, ho, rfl, rfl⟩⟩

/-- An operation that enters another phase keeps its task. -/
theorem resembles_enter (x : Scene) (id : Nat) (p : Phase) :
    Resembles x ⟨x.traffic.enter id p, x.standing⟩ := by
  refine ⟨rfl, rfl, rfl, rfl, fun j o ho => ?_⟩
  by_cases hj : j = id
  · subst hj
    exact ⟨{ o with phase := p }, Traffic.getElem?_enter_self rfl ho p, rfl, rfl⟩
  · refine ⟨o, ?_, rfl, rfl⟩
    exact (List.getElem?_modify_ne _ _ (Ne.symm hj)).trans ho

theorem Moves.evolves (hop : x.traffic.operations[id]? = some o) (h : Moves id o x y) :
    Evolves x y := by
  induction h with
  | refl => exact .refl
  | tail hmoves hmove ih =>
    obtain ⟨visiting, hmove⟩ := hmove
    have hops := Moves.frame hmoves
    exact .tail ih ⟨⟨id, visiting⟩, o, by rw [hops.1]; exact hop, hmove⟩

/-! ## One step -/

/-- An operation that leads on, or queues for a site, moves to where its claimants stand in the
phase that it enters. -/
theorem exists_moves {t : Traffic} (h : Leads id o x t ∨ Queues id o x t) :
    ∃ (y : Scene) (p : Phase), Moves id o x y ∧ y.Allows id o p ∧ t = y.traffic.enter id p := by
  rcases h with ⟨y, p, hmoves, hallows, -, -, rfl⟩ | ⟨visiting, s, p, haway, hask, hallows, -, rfl⟩
  · exact ⟨y, p, hmoves, hallows, rfl⟩
  · exact ⟨_, p, Move.moves (.queue haway hask), hallows, rfl⟩

/-- Where one operation has moved and entered the phase that fits, the scene is sound. -/
theorem Sound.enter (h : Sound x) (hop : x.traffic.operations[id]? = some o)
    (hmoves : Moves id o x y) {p : Phase} (hallows : y.Allows id o p) :
    Sound ⟨y.traffic.enter id p, y.standing⟩ := by
  obtain ⟨hops, -, hlength, hothers⟩ := hmoves.frame
  refine ⟨fun j o' ho' => ?_, fun who hwho => ?_⟩
  · have hget : (x.traffic.operations.modify id fun o => { o with phase := p })[j]? = some o' :=
      hops ▸ ho'
    rcases Traffic.of_getElem?_modify hop hget with ⟨rfl, rfl⟩ | ⟨hj, ho'⟩
    · exact hallows
    · -- another operation stands where it stood
      show o'.StandsIn y.traffic.world.length _ _ _
      rw [hlength, hothers ⟨j, false⟩ hj, hothers ⟨j, true⟩ hj]
      exact h.allows j o' ho'
  · have hlength' : (y.traffic.enter id p).operations.length = x.traffic.operations.length :=
      (List.length_modify ..).trans (congrArg List.length hops)
    have hwho' : x.traffic.operations.length ≤ who.operation := hlength' ▸ hwho
    have hid : id < x.traffic.operations.length := (List.getElem?_eq_some_iff.1 hop).1
    rw [hothers who (by omega)]
    exact h.unknown who hwho'

/-- A new operation has not asked for anything. -/
theorem Sound.start (h : Sound x) (node : Nat) (task : Task) :
    Sound ⟨x.traffic.step (.start node task), x.standing⟩ ∧
      Resembles x ⟨x.traffic.step (.start node task), x.standing⟩ := by
  refine ⟨⟨fun id o ho => ?_, fun who hwho => ?_⟩, rfl, rfl, rfl, rfl, fun id o ho => ?_⟩
  · rcases Nat.lt_or_ge id x.traffic.operations.length with hlt | hge
    · exact h.allows id o ((List.getElem?_append_left hlt).symm.trans ho)
    · have hnew :
          [(⟨node, task, .fresh⟩ : Operation)][id - x.traffic.operations.length]? = some o :=
        (List.getElem?_append_right hge).symm.trans ho
      rw [List.mem_singleton.1 (List.mem_of_getElem? hnew)]
      exact ⟨h.unknown ⟨id, false⟩ hge, h.unknown ⟨id, true⟩ hge⟩
  · refine h.unknown who (Nat.le_trans ?_ hwho)
    show _ ≤ (x.traffic.operations ++ [_]).length
    rw [List.length_append]
    exact Nat.le_add_right ..
  · have hlt := (List.getElem?_eq_some_iff.1 ho).1
    exact ⟨o, (List.getElem?_append_left hlt).trans ho, rfl, rfl⟩

/-- A step is a row of moves, after which the scene is sound again. -/
theorem Sound.step (h : Sound x) (step : Step) :
    ∃ y z, Evolves x y ∧ Resembles y z ∧ Sound z ∧ z.traffic = x.traffic.step step := by
  rcases step_cases step h.allows with
    ⟨node, task, rfl⟩ | ⟨ms, rfl⟩ | ⟨id, -, heq | ⟨o, hop, -, hgoes⟩⟩
  · obtain ⟨hsound, hsame⟩ := h.start node task
    exact ⟨x, _, .refl, hsame, hsound, rfl⟩
  · exact ⟨x, ⟨x.traffic.step (.tick ms), x.standing⟩, .refl,
      ⟨rfl, rfl, rfl, rfl, fun _ o ho => ⟨o, ho, rfl, rfl⟩⟩, ⟨h.allows, h.unknown⟩, rfl⟩
  · exact ⟨x, x, .refl, .refl x, h, heq.symm⟩
  · obtain ⟨y, p, hmoves, hallows, htraffic⟩ := exists_moves hgoes
    exact ⟨y, _, hmoves.evolves hop, resembles_enter y id p, h.enter hop hmoves hallows,
      htraffic.symm⟩

/-! ## Whole runs -/

/-- Nothing has been started. -/
theorem sound_new (w : World) : Sound ⟨.new w, fun _ => .away⟩ :=
  ⟨fun _ _ ho => (nomatch ho), fun _ _ => rfl⟩

/-- What every move keeps, and does not depend on phases. -/
structure Kept (I : Scene → Prop) : Prop where
  move : ∀ {who : Claimant} {o : Operation} {x y : Scene},
    x.traffic.operations[who.operation]? = some o → Move who o x y → I x → I y
  same : ∀ {x y : Scene}, Resembles x y → I x → I y

variable {I : Scene → Prop}

theorem Kept.evolves (hI : Kept I) (h : Evolves x y) (hx : I x) : I y := by
  induction h with
  | refl => exact hx
  | tail _ hmove ih =>
    obtain ⟨who, o, hop, hmove⟩ := hmove
    exact hI.move hop hmove ih

/-- What every move keeps holds at every time. -/
theorem Sound.run (h : Sound x) (hI : Kept I) (hx : I x) (steps : List Step) :
    ∃ z, Sound z ∧ I z ∧ z.traffic = x.traffic.run steps := by
  induction steps generalizing x with
  | nil => exact ⟨x, h, hx, rfl⟩
  | cons step steps ih =>
    obtain ⟨y, z, hevolves, hsame, hsound, htraffic⟩ := h.step step
    obtain ⟨z', hsound', hz', htraffic'⟩ := ih hsound (hI.same hsame (hI.evolves hevolves hx))
    exact ⟨z', hsound', hz', htraffic'.trans (congrArg (Traffic.run · steps) htraffic)⟩

/-! ## What holds of nodes -/

/-- A sound scene stays sound if a node is exchanged for another one between two steps. -/
theorem Sound.setNode (h : Sound x) (i : Nat) (n : Node) :
    Sound ⟨x.traffic.setNode i n, x.standing⟩ := by
  refine ⟨fun id o ho => ?_, h.unknown⟩
  have hlength : (x.traffic.world.update i n).length = x.traffic.world.length := List.length_set
  show o.StandsIn (x.traffic.world.update i n).length _ _ _
  rw [hlength]
  exact h.allows id o ho

/-- What a commit keeps, and does not depend on the messages handed out and on the stores. -/
structure Node.Kept (P : Node → Prop) : Prop where
  commit : ∀ {n n' : Node} {c : Change} {outbox : List CacheUpdate},
    n.commit c = .ok (n', outbox) → P n → P n'
  hand : ∀ {n : Node} (m : Message), P n → P (n.hand m)
  persist : ∀ {n : Node} (c : Change) (result : Except SyncError Unit),
    P n → P (n.persist c result).1

/-- What commits keep of one node is kept by every move. -/
theorem Node.Kept.kept {P : Node → Prop} (hP : Node.Kept P) (i : Nat) :
    CloudRoster.Kept fun x => ∀ n, x.traffic.world[i]? = some n → P n := by
  -- the node is the one that was changed, or it stayed as it was
  have hupdate : ∀ {w : World} {j : Nat} {n n' : Node}, (∀ n, w[i]? = some n → P n) →
      w[j]? = some n → (P n → P n') → ∀ m, (w.update j n')[i]? = some m → P m := by
    intro w j n n' h hj hn m hm
    by_cases hij : i = j
    · subst hij
      rw [World.getElem?_update_self hj] at hm
      cases hm
      exact hn (h n hj)
    · rw [World.getElem?_update_of_ne w hij] at hm
      exact h m hm
  refine ⟨fun _ hmove h => ?_, fun hsame h => ?_⟩
  · cases hmove with
    | commit _ hnode hcommit => exact hupdate h hnode (hP.commit hcommit)
    | hand _ _ hnode => exact hupdate h hnode (hP.hand _)
    | store c result hnode => exact hupdate h hnode (hP.persist c result)
    | _ => exact h
  · rw [hsame.world]
    exact h

/-- A node that is there stays, and what commits keep of it is kept by every move. -/
theorem Node.Kept.kept_exists {P : Node → Prop} (hP : Node.Kept P) (i : Nat) :
    CloudRoster.Kept fun x => ∃ n, x.traffic.world[i]? = some n ∧ P n := by
  refine ⟨fun {who o x y} hop hmove h => ?_, fun hsame h => ?_⟩
  · obtain ⟨n, hn, hPn⟩ := h
    have hall : ∀ m, x.traffic.world[i]? = some m → P m := by
      intro m hm
      rw [hn] at hm
      cases hm
      exact hPn
    have hi : i < y.traffic.world.length := by
      rw [hmove.frame.2.2.1]
      exact (List.getElem?_eq_some_iff.1 hn).1
    have hget := List.getElem?_eq_getElem hi
    exact ⟨_, hget, (hP.kept i).move hop hmove hall _ hget⟩
  · rw [hsame.world]
    exact h

end CloudRoster
