import CloudRoster.Proofs.Node.AtHome
import CloudRoster.Proofs.Node.Burst
import CloudRoster.Proofs.Node.Stores
import CloudRoster.Proofs.Storage.Filing
import CloudRoster.Proofs.Storage.Refusals

/-!
# Staged changes

Changes that are staged against a value are brought into the list of a node by `World.apply`, which
is no managed change. What comes of it is what comes of the managed update of the same value up to
the point where `Node.persist` tells the store: the lists, the events, the messages and the result
of the rounds are the same. The store is told of the update alone, so a group or a template that was
changed by staging is in the list and not on disk.
-/

namespace CloudRoster

open Storage (Directory fileOf stored)

/-- What a directory that has saved a value holds under the name of its key. -/
theorem Storage.Directory.find?_save {d d' : Directory} {k : Kind} {v : k.Val}
    (h : d.save k v = .ok d') : d'.find? (fileOf k (k.key v)) = some (stored k v) := by
  obtain ⟨-, rfl⟩ := save_eq h
  exact d.find?_insert_self ..

namespace World

variable {w : World} {i : Nat} {n : Node}

/-- The rounds of a change depend on nothing but its messages and what it is about. -/
theorem spread_congr {c c' : Change} (h : c.subject = c'.subject) (outbox : List CacheUpdate)
    (w : World) : spread i c w outbox = spread i c' w outbox := by
  induction outbox generalizing w with
  | nil => rfl
  | cons u outbox ih =>
    simp only [spread, h]
    split
    · exact ih _
    · rfl

/-- Putting a node where it stands changes nothing. -/
theorem update_of_getElem? (h : w[i]? = some n) : w.update i n = w := by
  obtain ⟨hi, rfl⟩ := List.getElem?_eq_some_iff.1 h
  exact List.set_getElem_self hi

/-- A managed update does what the same update does that is not managed, and then tells the
store. -/
theorem perform_managed_update (hnode : w[i]? = some n) (k : Kind) (v : k.Val)
    (fromPacket : Bool) :
    let c : Change := ⟨k, v, .update, fromPacket, true⟩
    let past := w.perform i ⟨k, v, .update, fromPacket, false⟩
    ∃ m, past.1[i]? = some m ∧ (∀ j, m.store? j = n.store? j) ∧
      w.perform i c = (past.1.update i (m.persist c past.2).1, (m.persist c past.2).2) := by
  intro c past
  let c' : Change := ⟨k, v, .update, fromPacket, false⟩
  obtain ⟨committed, outbox, hcommit, hstores⟩ : ∃ committed outbox,
      n.commit c = .ok (committed, outbox) ∧ ∀ j, committed.store? j = n.store? j := by
    obtain ⟨bus, hcommit⟩ := Node.commit_of_guard (n.guard_update k v fromPacket true)
    exact ⟨_, _, hcommit, fun j => by cases j <;> rfl⟩
  have hcommit' : n.commit c' = .ok (committed, outbox) := by
    rw [← hcommit]
    unfold Node.commit
    rw [n.guard_update k v fromPacket true, n.guard_update k v fromPacket false]
  obtain ⟨actions, rfl⟩ := Node.outbox_eq_map_of_commit hcommit
  obtain ⟨told, -, -, hspread⟩ := spread_at_home c (getElem?_update_self hnode committed) actions
  -- the rounds are the same, and no store is told of the change that is not managed
  have hrounds : spread i c' (w.update i committed) (actions.map (.about k v)) =
      spread i c (w.update i committed) (actions.map (.about k v)) :=
    have hsubject : c'.subject = c.subject := rfl
    spread_congr hsubject _ _
  have hpast : past = spread i c (w.update i committed) (actions.map (.about k v)) := by
    have hperform := perform_of_commit hnode hcommit' (hrounds ▸ hspread)
    rw [Node.persist_of_untold rfl, hrounds, update_of_getElem? hspread] at hperform
    exact hperform
  refine ⟨_, hpast ▸ hspread, fun j => ?_, ?_⟩
  · rw [← hstores j]
    cases j <;> rfl
  · rw [hpast]
    exact perform_of_commit hnode hcommit hspread

end World

/-- Staged changes of any kind, on any node and whatever the peers answer, come to what the
managed update comes to before the store is told. So on a node that has no store of the kind the
two are the same in all respects. With a store the node, the messages and the rounds are still the
same: the update ends with the result of the staged changes unless the store refuses, the value is
on disk unless the lists did not keep the change or the store refused, and staged changes leave the
directory as it was. -/
theorem staged_changes_pass_store_by {w : World} {i : Nat} {n : Node} (hnode : w[i]? = some n)
    (k : Kind) (u : k.Updater) :
    let v := k.merge u
    let c : Change := ⟨k, v, .update, false, true⟩
    let staged := w.apply i k u
    let full := w.perform i c
    ∃ m m', staged.1[i]? = some m ∧ full.1 = staged.1.update i m' ∧
      (∃ groups templates, m' = { m with groupStore := groups, templateStore := templates }) ∧
      (∀ j, m.store? j = n.store? j) ∧
      (∀ j, j ≠ k → m'.store? j = m.store? j) ∧
      (full.2 = staged.2 ∨ ∃ reason, full.2 = .error (.persistence reason)) ∧
      (n.store? k = none → full = staged) ∧
      ∀ d, n.files k = some d → m.files k = some d ∧
        ∀ d', Node.keptLocally staged.2 = true → d.save k v = .ok d' →
          full.2 = staged.2 ∧ m'.files k = some d' ∧
            d'.find? (fileOf k (k.key v)) = some (stored k v) := by
  intro v c staged full
  obtain ⟨m, hm, hstores, hfull⟩ := World.perform_managed_update hnode k v false
  have hfull : full = (staged.1.update i (m.persist c staged.2).1, (m.persist c staged.2).2) :=
    hfull
  have hfiles : ∀ j, m.files j = n.files j := fun j => by
    rw [Node.files, Node.files, hstores j]
  refine ⟨m, (m.persist c staged.2).1, hm, congrArg Prod.fst hfull, m.persist_eq c staged.2,
    hstores, fun j hj => ?_, ?_, fun hnone => ?_, fun d hd => ⟨(hfiles k).trans hd, ?_⟩⟩
  · rw [Node.store?_persist, if_neg fun h => hj h.1]
  · rw [hfull]
    exact m.persist_result c staged.2
  · have hnone' : m.store? c.kind = none := (hstores k).trans hnone
    rw [hfull, Node.persist_of_no_store hnone']
    exact Prod.ext (World.update_of_getElem? hm) rfl
  · intro d' hkept hsave
    have hcarried : Node.carriedOut d c = .ok d' := hsave
    have htold : (c.managed && Node.keptLocally staged.2) = true := by simp [c, hkept]
    refine ⟨?_, ?_, Directory.find?_save hsave⟩
    · rw [hfull, Node.result_persist htold, (hfiles k).trans hd, Option.elim_some, hcarried]
      rfl
    · rw [Node.files_persist, if_pos ⟨rfl, htold⟩, (hfiles k).trans hd, Option.map_some, hcarried]
      rfl

/-! ### A group that is given more players -/

namespace Enlarged

def lobby : Group := .new "Lobby" .lobby

/-- The group is to take more players. -/
def updater : Group.Updater := lobby.updater.stage (.maxPlayers 50)

/-- A node with a store of groups, after a managed update of the group. -/
def node : Node :=
  ((Node.new .standard .none (some (.onDirectory (.new "groups"))) none).carryOut
    ⟨.group, lobby, .update, true, true⟩).1

theorem reachable_node : node.Reachable := by
  refine ⟨[.new .standard .none (some (.onDirectory (.new "groups"))) none],
    [.start 0 (.change ⟨.group, lobby, .update, true, true⟩), .poll 0, .persist 0], 0, ?_, rfl⟩
  intro m hm
  exact ⟨_, _, _, _, List.mem_singleton.1 hm⟩

/-- The file of the group, as it was last saved. -/
def fileAfter (x : World × Except SyncError Unit) : Option Storage.Entry :=
  (x.1[0]?).bind fun n => (n.files .group).bind (·.find? "lobby.json")

/-- The staged change is a success and is in the list, but the file is that of the group before it;
after the managed update the file is that of the group with more players. -/
theorem staged_changes_not_on_disk : node.Reachable ∧
    (World.apply [node] 0 .group updater).2 = .ok () ∧
    (World.perform [node] 0 ⟨.group, updater.merge, .update, false, true⟩).2 = .ok () ∧
    ((World.apply [node] 0 .group updater).1[0]?).map (·.values .group) = some [updater.merge] ∧
    fileAfter (World.apply [node] 0 .group updater) = some (stored .group lobby) ∧
    fileAfter (World.perform [node] 0 ⟨.group, updater.merge, .update, false, true⟩) =
      some (stored .group updater.merge) ∧
    stored .group lobby ≠ stored .group updater.merge := by
  refine ⟨reachable_node, rfl, rfl, rfl, rfl, rfl, fun h => ?_⟩
  exact absurd (Directory.stored_injective .group h) (by decide)

/-- What the managed update adds is the file; for a template, of which the node has no
store, it adds nothing. -/
theorem staged_changes_pass_store_by_lobby :
    let staged := World.apply [node] 0 .group updater
    let full := World.perform [node] 0 ⟨.group, updater.merge, .update, false, true⟩
    (∃ m m', staged.1[0]? = some m ∧ full.1 = staged.1.update 0 m' ∧
      m.files .group = node.files .group ∧
      (m'.files .group).bind (·.find? "lobby.json") = some (stored .group updater.merge)) ∧
    World.apply [node] 0 .template (Template.new "Base").updater =
      World.perform [node] 0 ⟨.template, .new "Base", .update, false, true⟩ := by
  intro staged full
  constructor
  · obtain ⟨d, hd⟩ : ∃ d, node.files .group = some d := ⟨_, rfl⟩
    obtain ⟨d', hsave⟩ : ∃ d', d.save .group updater.merge = .ok d' := by
      cases hd
      exact ⟨_, rfl⟩
    obtain ⟨m, m', hm, hfull, -, -, -, -, -, hdisk⟩ :=
      staged_changes_pass_store_by (w := [node]) (i := 0) rfl .group updater
    obtain ⟨hfiles, hupdate⟩ := hdisk d hd
    obtain ⟨-, hfiles', hfind⟩ := hupdate d' rfl hsave
    refine ⟨m, m', hm, hfull, hfiles.trans hd.symm, ?_⟩
    rw [hfiles']
    exact hfind
  · obtain ⟨m, m', -, -, -, -, -, -, hsame, -⟩ :=
      staged_changes_pass_store_by (w := [node]) (i := 0) rfl .template
        (Template.new "Base").updater
    exact (hsame rfl).symm

end Enlarged

end CloudRoster
