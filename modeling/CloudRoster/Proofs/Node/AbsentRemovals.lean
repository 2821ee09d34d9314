import CloudRoster.Proofs.Node.GroupsInUse
import CloudRoster.Proofs.Node.Stores
import CloudRoster.Proofs.Storage.Filing

/-!
# Removals of values that are not there

A list has nothing to remove if it does not hold the value: it stays as it is, nothing is published
and nothing is handed out. But a managed removal of a group or a template is told to the store
(`Node.persist`), also if it removed nothing, and a store refuses a key that is no name for a file.
So the removal of a value that is not there is a success exactly if no store is told of it or the
store does not refuse it, and in either case it leaves everything but the store alone, and the store
as well if its files are those of the list.
-/

namespace CloudRoster

open Cache (Rules)
open Storage (Directory fileOf stored)

namespace Node

/-- The directory of the store of a kind, if there is one, has the files of the values of the list
and nothing under the name of any other key. -/
def Filed (n : Node) (k : Kind) : Prop :=
  ∀ d, n.files k = some d →
    ∀ key, d.find? (fileOf k key) = ((n.lists.get k).find? key).map (stored k)

/-- No service belongs to a value that is a group. -/
def Vacant (n : Node) : (k : Kind) → k.Val → Prop
  | .group, g => ∀ s ∈ n.values .service, ¬ s.BelongsTo g
  | _, _ => True

/-- A node is as it was before, but for what its stores have been told: their directories are the
same too. -/
structure IsAsBefore (n n' : Node) : Prop where
  node : ∃ groups templates, n' = { n with groupStore := groups, templateStore := templates }
  files : ∀ k, n'.files k = n.files k

variable {n : Node} {k : Kind} {v : k.Val} {fromPacket managed : Bool}

/-- `Node.guard` lets the removal of a value through that is no group in use. -/
theorem guard_of_vacant (h : n.Vacant k v) (fromPacket managed : Bool) :
    n.guard ⟨k, v, .delete, fromPacket, managed⟩ = .ok () := by
  cases k with
  | group =>
    cases managed with
    | true =>
      apply (guard_deletion fromPacket).1
      rw [List.eq_nil_iff_forall_not_mem]
      intro s hs
      obtain ⟨hs, halike⟩ := mem_servicesOfGroup.1 hs
      exact h s hs halike.belongsTo
    | false => rfl
  | player | template | wrapper | service => rfl

/-- A list that does not hold a value commits its removal without any change. -/
theorem commit_of_absent {c : Change} (hguard : n.guard c = .ok ()) (haction : c.action = .delete)
    (habsent : n.cached c.kind c.value = none) : n.commit c = .ok (n, []) := by
  obtain ⟨k, v, action, fromPacket, managed⟩ := c
  obtain rfl : action = .delete := haction
  have hfind : (n.lists.get k).find? ((Rules.ofKind k).identify v) = none := habsent
  have hdelete : (Rules.ofKind k).commit (n.spreads k) fromPacket (n.lists.get k) v .delete =
      .ok ⟨n.lists.get k, [], []⟩ := by
    unfold Rules.commit Rules.delete
    simp only [hfind]
  have hsame : ({ n with lists := n.lists.set k (n.lists.get k), bus := n.bus.publishAll [] } :
      Node) = n := by
    simp [Lists.set_get, Cache.Bus.publishAll]
  unfold commit
  rw [hguard]
  simp only [hdelete]
  exact congrArg (fun n => Except.ok (n, [])) hsame

/-! ## What the store makes of it -/

/-- A removal that ended with success for the lists ends so altogether exactly if the store does not
refuse it. -/
theorem persist_removal_ok_iff (n : Node) (v : k.Val) (fromPacket managed : Bool) :
    (n.persist ⟨k, v, .delete, fromPacket, managed⟩ (.ok ())).2 = .ok () ↔
      (managed = true → ∀ d, n.files k = some d → d.Removable k (k.key v)) := by
  cases managed with
  | false => simp [persist_of_untold]
  | true =>
    rw [result_persist rfl]
    cases hfiles : n.files k with
    | none => simp
    | some d =>
      simp only [Option.elim_some, forall_const, Option.some.injEq, forall_eq']
      constructor
      · intro h
        cases hcarried : carriedOut d ⟨k, v, .delete, fromPacket, true⟩ with
        | error e =>
          rw [hcarried] at h
          cases h
        | ok d' => exact Directory.removable_of_discard hcarried
      · intro h
        have hcarried : carriedOut d ⟨k, v, .delete, fromPacket, true⟩ = .ok _ := h.discard
        rw [hcarried]
        rfl

/-- Where nothing stands under the name of the key, the store has nothing to remove either. -/
theorem isAsBefore_persist (hfile : ∀ d, n.files k = some d → d.find? (fileOf k (k.key v)) = none) :
    n.IsAsBefore (n.persist ⟨k, v, .delete, fromPacket, managed⟩ (.ok ())).1 := by
  refine ⟨n.persist_eq _ _, fun j => ?_⟩
  rw [files_persist]
  split
  · rename_i htold
    obtain rfl : j = k := htold.1
    cases hfiles : n.files j with
    | none => rfl
    | some d =>
      cases hcarried : carriedOut d ⟨j, v, .delete, fromPacket, managed⟩ with
      | error e => simp [hcarried, Except.toOption]
      | ok d' =>
        obtain rfl := Directory.discard_of_find?_eq_none (hfile d hfiles) hcarried
        simp [hcarried, Except.toOption]
  · rfl

/-- A store that has carried out a removal carries it out again, and its files stay as they are. -/
theorem persist_removal_again
    (h : (n.persist ⟨k, v, .delete, fromPacket, managed⟩ (.ok ())).2 = .ok ()) :
    let n' := (n.persist ⟨k, v, .delete, fromPacket, managed⟩ (.ok ())).1
    n'.IsAsBefore (n'.persist ⟨k, v, .delete, fromPacket, managed⟩ (.ok ())).1 ∧
      (n'.persist ⟨k, v, .delete, fromPacket, managed⟩ (.ok ())).2 = .ok () := by
  intro n'
  cases managed with
  | false =>
    have huntold : n'.persist ⟨k, v, .delete, fromPacket, false⟩ (.ok ()) = (n', .ok ()) :=
      persist_of_untold rfl
    rw [huntold]
    exact ⟨⟨⟨_, _, rfl⟩, fun _ => rfl⟩, rfl⟩
  | true =>
    have hagain : ∀ d, n'.files k = some d → carriedOut d ⟨k, v, .delete, fromPacket, true⟩ =
        .ok d := by
      intro d' hd'
      have hfiles : n'.files k = (n.files k).map fun d =>
          (carriedOut d ⟨k, v, .delete, fromPacket, true⟩).toOption.getD d :=
        (files_persist ..).trans (if_pos ⟨rfl, rfl⟩)
      obtain ⟨d, hd, hcarried⟩ := Option.map_eq_some_iff.1 (hfiles.symm.trans hd')
      have hremovable := (persist_removal_ok_iff n v fromPacket true).1 h rfl d hd
      have hfirst : carriedOut d ⟨k, v, .delete, fromPacket, true⟩ = .ok _ := hremovable.discard
      rw [hfirst] at hcarried
      exact hcarried ▸ Directory.discard_discard hfirst
    refine ⟨⟨n'.persist_eq _ _, fun j => ?_⟩, ?_⟩
    · rw [files_persist]
      split
      · rename_i htold
        obtain rfl : j = k := htold.1
        cases hfiles : n'.files j with
        | none => rfl
        | some d => simp [hagain d hfiles, Except.toOption]
      · rfl
    · rw [persist_removal_ok_iff]
      exact fun _ d hd => Directory.removable_of_discard (hagain d hd)

end Node

namespace World

variable {w : World} {i : Nat} {n : Node} {k : Kind} {v : k.Val} {fromPacket managed : Bool}

/-- The removal of a value that is not there: only the store is told. -/
theorem perform_removal_of_absent (hnode : w[i]? = some n)
    (hguard : n.guard ⟨k, v, .delete, fromPacket, managed⟩ = .ok ())
    (habsent : n.cached k v = none) :
    w.perform i ⟨k, v, .delete, fromPacket, managed⟩ =
      (w.update i (n.persist ⟨k, v, .delete, fromPacket, managed⟩ (.ok ())).1,
        (n.persist ⟨k, v, .delete, fromPacket, managed⟩ (.ok ())).2) := by
  have hcommit := Node.commit_of_absent hguard rfl habsent
  have hrounds : spread i ⟨k, v, .delete, fromPacket, managed⟩ (w.update i n) [] =
      (w.update i n, .ok ()) := rfl
  have hthere : (w.update i n)[i]? = some n := getElem?_update_self hnode n
  rw [perform_of_commit hnode hcommit hthere, hrounds, update_update]

/-- What is left by a removal that was a success: the value is not there, `Node.guard` lets the
removal through, and the store was told that it is to remove the value. -/
theorem perform_removal_ok (hnode : w[i]? = some n) (htidy : n.Tidy)
    (hok : (w.perform i ⟨k, v, .delete, fromPacket, managed⟩).2 = .ok ()) :
    ∃ done : Node, let c : Change := ⟨k, v, .delete, fromPacket, managed⟩
      (w.perform i c).1[i]? = some (done.persist c (.ok ())).1 ∧
      (done.persist c (.ok ())).2 = .ok () ∧ done.cached k v = none ∧ done.guard c = .ok () := by
  let c : Change := ⟨k, v, .delete, fromPacket, managed⟩
  cases hguard : n.guard c with
  | error e =>
    rw [perform_of_guard_error hnode hguard] at hok
    cases hok
  | ok u =>
    obtain ⟨bus, hcommit⟩ := Node.commit_of_guard hguard
    obtain ⟨told, result, -, -, -, hleft, hresult⟩ := perform_at_home hnode hcommit
    rw [hresult] at hok
    obtain rfl : result = .ok () := by
      rcases Node.persist_result _ c result with hsame | ⟨reason, hfailed⟩
      · exact hsame.symm.trans hok
      · cases hfailed.symm.trans hok
    refine ⟨_, hleft, hok, htidy.cached_applyTo c rfl, ?_⟩
    -- the services differ only if the value is a service, and then `Node.guard` lets it pass
    rw [← hguard]
    cases k <;> rfl

end World

/-- In every reachable state the removal of a value that is not there, and is no group that has
services, leaves all lists, events and messages as they were. It is a success exactly if no store is
told of it or the store does not refuse it, and otherwise ends with the failure of the store. Where
the files of the list are those of its values, they stay as they are. Whatever a removal was about,
after one that was a success the same removal is a success again and changes nothing. -/
theorem removal_of_absent_is_up_to_store {w : World} {i : Nat} {n : Node}
    (hnode : w[i]? = some n) (hreachable : n.Reachable) (k : Kind) (v : k.Val)
    (fromPacket managed : Bool) :
    let c : Change := ⟨k, v, .delete, fromPacket, managed⟩
    let w' := (w.perform i c).1
    let result := (w.perform i c).2
    (n.cached k v = none → n.Vacant k v →
      (result = .ok () ↔
        (managed = true → ∀ d, n.files k = some d → d.Removable k (k.key v))) ∧
      (result = .ok () ∨ ∃ reason, result = .error (.persistence reason)) ∧
      ∃ n', w' = w.update i n' ∧
        (∃ groups templates, n' = { n with groupStore := groups, templateStore := templates }) ∧
        (n.Filed k → n.IsAsBefore n')) ∧
    (result = .ok () → (w'.perform i c).2 = .ok () ∧
      ∃ n' n'', w'[i]? = some n' ∧ (w'.perform i c).1 = w'.update i n'' ∧ n'.IsAsBefore n'') := by
  intro c w' result
  constructor
  · intro habsent hvacant
    have hperform : w.perform i c =
        (w.update i (n.persist c (.ok ())).1, (n.persist c (.ok ())).2) :=
      World.perform_removal_of_absent hnode (Node.guard_of_vacant hvacant fromPacket managed)
        habsent
    have hresult : result = (n.persist c (.ok ())).2 := congrArg Prod.snd hperform
    rw [hresult]
    refine ⟨n.persist_removal_ok_iff v fromPacket managed, n.persist_result c (.ok ()),
      (n.persist c (.ok ())).1, congrArg Prod.fst hperform, n.persist_eq c (.ok ()),
      fun hfiled => ?_⟩
    apply Node.isAsBefore_persist
    intro d hd
    have hnone : (n.lists.get k).find? (k.key v) = none := habsent
    rw [hfiled d hd, hnone]
    rfl
  · intro hok
    obtain ⟨done, hleft, hdone, habsent, hguard⟩ :=
      World.perform_removal_ok hnode hreachable.tidy hok
    obtain ⟨hbefore, hagain⟩ := Node.persist_removal_again hdone
    obtain ⟨groups, templates, hpersist⟩ := done.persist_eq c (.ok ())
    have hperform : w'.perform i c = _ :=
      World.perform_removal_of_absent hleft (by rw [hpersist]; exact hguard)
        (by rw [hpersist]; exact habsent)
    exact ⟨(congrArg Prod.snd hperform).trans hagain, _, _, hleft, congrArg Prod.fst hperform,
      hbefore⟩

/-! ### A template without a name -/

namespace Nameless

/-- A node with a store of templates, which is empty. -/
def node : Node := .new .standard .none none (some (.onDirectory (.new "templates")))

theorem reachable_node : node.Reachable := by
  refine ⟨[node], [], 0, ?_, rfl⟩
  intro m hm
  exact ⟨_, _, _, _, List.mem_singleton.1 hm⟩

theorem filed_node (k : Kind) : node.Filed k := by
  intro d hd key
  cases k with
  | template =>
    cases hd
    rfl
  | player | group | wrapper | service => cases hd

/-- The template is not there, and the files of the node are those of its lists. Still its removal
fails, since the store has no file for it. -/
theorem removal_of_absent_fails : node.Reachable ∧ (∀ k, node.Filed k) ∧
    node.cached .template (.new "") = none ∧ node.Vacant .template (.new "") ∧
    (World.perform [node] 0 ⟨.template, .new "", .delete, false, true⟩).2 =
      .error (.persistence "invalid file name: \"\"") := by
  refine ⟨reachable_node, filed_node, rfl, trivial, ?_⟩
  decide +kernel

/-- A template whose name is one for a file can be removed as often as one likes. -/
theorem removal_of_absent_succeeds :
    let c : Change := ⟨.template, .new "Base", .delete, true, true⟩
    (World.perform [node] 0 c).2 = .ok () ∧
      (∃ n', (World.perform [node] 0 c).1 = [n'] ∧ node.IsAsBefore n') ∧
      ((World.perform [node] 0 c).1.perform 0 c).2 = .ok () := by
  intro c
  obtain ⟨habsent, hagain⟩ := removal_of_absent_is_up_to_store (w := [node]) (i := 0) rfl
    reachable_node .template (.new "Base") true true
  obtain ⟨hiff, -, n', hn', -, hfiled⟩ := habsent rfl trivial
  have hok : (World.perform [node] 0 c).2 = .ok () := by
    refine hiff.2 fun _ d hd => ?_
    cases hd
    have hfind : (Directory.new "templates").find? (fileOf .template ⟨"base"⟩) = none := rfl
    refine ⟨by decide +kernel, by decide +kernel, fun _ => by decide +kernel, fun _ h => ?_⟩
    exact nomatch hfind.symm.trans h
  exact ⟨hok, ⟨n', hn', hfiled (filed_node _)⟩, (hagain hok).1⟩

end Nameless

end CloudRoster
