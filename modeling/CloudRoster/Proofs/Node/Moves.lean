import CloudRoster.Proofs.Node.Changes
import CloudRoster.Node.Traffic
import Mathlib.Logic.Relation
import Mathlib.Logic.Function.Basic

/-!
# Moves

What the steps of an operation consist of (`Move`): a claimant asks for a site and gets it or
queues, picks it up, leaves the queue, commits, hands out one message, or releases the site. An
operation has two claimants, one for its own node and one for its visits. Where a claimant stands
between two moves (`Standing`) is kept beside the nodes in a `Scene`.

What holds of the nodes, the claims and the journal at every time has to be checked for the moves
only, and not for the ways in which `Traffic.step` puts them together.
-/

namespace CloudRoster

open Function (update update_self update_of_ne)
open Relation (ReflTransGen)

/-! ## Where claimants stand -/

/-- Where a claimant stands. -/
inductive Standing where
  /-- It has not asked for anything. -/
  | away
  | asks (s : Site)
  /-- It has its site, and has not committed anything. -/
  | got (s : Site)
  /-- It has committed a change on a node, has its site, and may have messages to hand out. -/
  | works (node : Nat) (c : Change) (later : List CacheUpdate)
  /-- It has given its site back after a commit; the messages were not handed out any more. -/
  | done (node : Nat) (c : Change) (later : List CacheUpdate)
  /-- It has ended without a commit. -/
  | out

namespace Standing

/-- The site that the claimant has. -/
def has? : Standing → Option Site
  | got s => some s
  | works node c _ => some (node, c.subject)
  | _ => none

/-- The site that the claimant waits for. -/
def asks? : Standing → Option Site
  | asks s => some s
  | _ => none

/-- A claimant that waits for a site has none. -/
theorem has?_of_asks? {st : Standing} {s : Site} (h : st.asks? = some s) : st.has? = none := by
  cases st with
  | asks s' => rfl
  | _ => cases h

end Standing

namespace Claimant

/-- Where a claimant stands at its end. A visit stands at `away` again, and can be followed by
another one. -/
def rest (who : Claimant) (st : Standing) : Standing := if who.visiting then .away else st

end Claimant

/-- Operations, and where their claimants stand. -/
structure Scene where
  traffic : Traffic
  standing : Claimant → Standing

namespace Scene

/-- The scene after a claimant has moved. -/
def next (x : Scene) (t : Traffic) (who : Claimant) (st : Standing) : Scene :=
  ⟨t, update x.standing who st⟩

variable {x : Scene} {t : Traffic} {who : Claimant} {st : Standing}

@[simp]
theorem traffic_next : (x.next t who st).traffic = t := rfl

@[simp]
theorem standing_next_self : (x.next t who st).standing who = st := update_self ..

theorem standing_next_of_ne {i : Claimant} (h : i ≠ who) :
    (x.next t who st).standing i = x.standing i := update_of_ne h ..

@[simp]
theorem standing_next_home {id : Nat} :
    (x.next t ⟨id, true⟩ st).standing ⟨id, false⟩ = x.standing ⟨id, false⟩ :=
  standing_next_of_ne (by simp)

@[simp]
theorem standing_next_visit {id : Nat} :
    (x.next t ⟨id, false⟩ st).standing ⟨id, true⟩ = x.standing ⟨id, true⟩ :=
  standing_next_of_ne (by simp)

end Scene

/-! ## What a task is for -/

namespace Task

/-- The change is what the task asks for. -/
def Wants (c : Change) : Task → Prop
  | .change c' => c = c'
  | .deleteTemplate _ => ∃ v, c = ⟨.template, v, .delete, false, true⟩
  | .message m => ∃ n : Node, n.arrival m = .change c

/-- A task with this outcome may not have committed anything: a change is only held back if it
removes a group in use. -/
def Refused (x : Outcome) : Task → Prop
  | .change _ => ∃ group services, x = .result (.error (.groupInUse group services))
  | _ => True

end Task

/-! ## Single moves -/

/-- The moves of a claimant of an operation. -/
inductive Move (who : Claimant) (o : Operation) : Scene → Scene → Prop
  /-- It asks for a site and gets it. -/
  | take {x : Scene} {s : Site} (haway : x.standing who = .away)
      (hgot : (x.traffic.locks.ask s who).2 = true) :
      Move who o x (x.next (x.traffic.claim s who).1 who (.got s))
  /-- It asks for a site that other claimants have or wait for. -/
  | queue {x : Scene} {s : Site} (haway : x.standing who = .away)
      (hgot : (x.traffic.locks.ask s who).2 = false) :
      Move who o x (x.next (x.traffic.claim s who).1 who (.asks s))
  | pickUp {x : Scene} {s : Site} (hasks : x.standing who = .asks s)
      (hhanded : x.traffic.locks.isHanded s who = true) :
      Move who o x (x.next (x.traffic.pickUp s who) who (.got s))
  /-- It leaves the line of a site. -/
  | leave {x : Scene} {s : Site} (hasks : x.standing who = .asks s) :
      Move who o x (x.next (x.traffic.leave s who) who (who.rest .out))
  /-- It releases its site without a commit. -/
  | refuse {x : Scene} {s : Site} (hgot : x.standing who = .got s) :
      Move who o x (x.next (x.traffic.release s who) who (who.rest .out))
  /-- It commits a change of its site. An operation that is on its own node commits what its task
  asks for, and has the messages to hand out. -/
  | commit {x : Scene} {i : Nat} {c : Change} {n n' : Node} {outbox : List CacheUpdate}
      (hgot : x.standing who = .got (i, c.subject)) (hnode : x.traffic.world[i]? = some n)
      (hcommit : n.commit c = .ok (n', outbox))
      (hown : who.visiting = false → i = o.node ∧ o.task.Wants c) :
      Move who o x (x.next ((x.traffic.setNode i n').note (.committed (i, c.subject) who c)) who
        (.works i c (if who.visiting then [] else outbox)))
  /-- It hands out a message. -/
  | hand {x : Scene} {i : Nat} {c : Change} {u : CacheUpdate} {later : List CacheUpdate} {n : Node}
      (hhome : who.visiting = false) (hworks : x.standing who = .works i c (u :: later))
      (hnode : x.traffic.world[i]? = some n) :
      Move who o x (x.next ((x.traffic.setNode i (n.hand (.cacheUpdate u))).note
        (.handed (i, c.subject) who.operation u)) who (.works i c later))
  /-- It releases its site after a commit. -/
  | release {x : Scene} {i : Nat} {c : Change} {later : List CacheUpdate}
      (hworks : x.standing who = .works i c later) :
      Move who o x (x.next (x.traffic.release (i, c.subject) who) who (who.rest (.done i c later)))
  /-- It ends without having asked for anything. -/
  | skip {x : Scene} (hhome : who.visiting = false) (haway : x.standing who = .away) :
      Move who o x (x.next x.traffic who .out)
  /-- The store of a node is told of a change. -/
  | store {x : Scene} {i : Nat} {n : Node} (c : Change) (result : Except SyncError Unit)
      (hnode : x.traffic.world[i]? = some n) :
      Move who o x ⟨x.traffic.setNode i (n.persist c result).1, x.standing⟩

/-- Moves of the two claimants of an operation, one after another. -/
def Moves (id : Nat) (o : Operation) : Scene → Scene → Prop :=
  ReflTransGen fun x y => ∃ visiting, Move ⟨id, visiting⟩ o x y

variable {id : Nat} {o : Operation} {x y : Scene}

theorem Move.moves {visiting : Bool} (h : Move ⟨id, visiting⟩ o x y) : Moves id o x y :=
  .single ⟨visiting, h⟩

/-! ### What moves leave alone -/

/-- A move keeps everything but the nodes themselves, the claims and the journal. -/
theorem Move.frame {who : Claimant} (h : Move who o x y) :
    y.traffic.operations = x.traffic.operations ∧ y.traffic.clock = x.traffic.clock ∧
      y.traffic.world.length = x.traffic.world.length ∧
      ∀ i ≠ who, y.standing i = x.standing i := by
  have hnext : ∀ (t : Traffic) (st : Standing), ∀ i ≠ who, (x.next t who st).standing i =
      x.standing i := fun t st i hi => Scene.standing_next_of_ne hi
  cases h with
  | commit | hand => exact ⟨rfl, rfl, List.length_set, hnext _ _⟩
  | store => exact ⟨rfl, rfl, List.length_set, fun _ _ => rfl⟩
  | _ => exact ⟨rfl, rfl, rfl, hnext _ _⟩

theorem Moves.frame (h : Moves id o x y) :
    y.traffic.operations = x.traffic.operations ∧ y.traffic.clock = x.traffic.clock ∧
      y.traffic.world.length = x.traffic.world.length ∧
      ∀ who : Claimant, who.operation ≠ id → y.standing who = x.standing who := by
  induction h with
  | refl => exact ⟨rfl, rfl, rfl, fun _ _ => rfl⟩
  | tail _ hmove ih =>
    obtain ⟨visiting, hmove⟩ := hmove
    obtain ⟨hops, hclock, hlength, hothers⟩ := hmove.frame
    refine ⟨hops.trans ih.1, hclock.trans ih.2.1, hlength.trans ih.2.2.1, fun who hwho => ?_⟩
    exact (hothers who fun h => hwho (congrArg Claimant.operation h)).trans (ih.2.2.2 who hwho)

end CloudRoster
