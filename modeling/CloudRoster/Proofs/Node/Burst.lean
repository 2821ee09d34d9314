import CloudRoster.Proofs.Cache.Absorb
import CloudRoster.Proofs.Node.Histories
import CloudRoster.Proofs.Node.Mesh

/-!
# The initial burst

`Node.snapshot` has one message for each value that a node holds. A peer that takes these messages
one after another (`Node.hear`) takes in the values: a new node then holds the same lists, value by
value and in the same order, and any other node keeps what it holds besides. The messages come from
a peer, so nothing is handed out for them, and taking them again changes nothing.
-/

namespace CloudRoster

open Cache (Entries Rules)
open Storage (Store)

theorem Lists.ext_get {l l' : Lists} (h : ∀ k, l.get k = l'.get k) : l = l' := by
  obtain ⟨players, groups, templates, wrappers, services⟩ := l
  obtain ⟨players', groups', templates', wrappers', services'⟩ := l'
  cases h .player
  cases h .group
  cases h .template
  cases h .wrapper
  cases h .service
  rfl

namespace Node

/-! ## Reachable nodes -/

/-- The node comes about in some run of operations at the same time, on nodes that were new. -/
def Reachable (n : Node) : Prop :=
  ∃ (w : World) (steps : List Step) (i : Nat),
    (∀ m ∈ w, ∃ config b groups templates, m = Node.new config b groups templates) ∧
    ((Traffic.new w).run steps).world[i]? = some n

/-- What holds of new nodes and is kept by commits holds of every reachable node. -/
theorem Reachable.of_kept {P : Node → Prop} (hP : Node.Kept P)
    (hnew : ∀ config b groups templates, P (Node.new config b groups templates)) {n : Node}
    (h : n.Reachable) : P n := by
  obtain ⟨w, steps, i, hall, hn⟩ := h
  have hbegin : ∀ m, w[i]? = some m → P m := by
    intro m hm
    obtain ⟨config, b, groups, templates, rfl⟩ := hall m (List.mem_of_getElem? hm)
    exact hnew config b groups templates
  obtain ⟨z, -, hz, htraffic⟩ := (sound_new w).run (hP.kept i) hbegin steps
  exact hz n (htraffic ▸ hn)

theorem kept_tidy : Node.Kept Tidy where
  commit hcommit h := h.commit hcommit
  hand _ h := h
  persist {n} c result h := by
    obtain ⟨groups, templates, heq⟩ := n.persist_eq c result
    rw [heq]
    exact h

theorem Reachable.tidy {n : Node} (h : n.Reachable) : n.Tidy := h.of_kept kept_tidy tidy_new

/-- All lists are open under their names. -/
theorem Reachable.registry_eq {n : Node} (h : n.Reachable) :
    n.registry = ⟨Kind.all.map fun k => (k.listName, k)⟩ := by
  have hkept : Node.Kept fun n => n.registry = ⟨Kind.all.map fun k => (k.listName, k)⟩ := by
    refine ⟨fun hcommit h => ?_, fun _ h => h, fun {n} c result h => ?_⟩
    · obtain ⟨-, commit, -, rfl, -⟩ := commit_cases hcommit
      exact h
    · obtain ⟨groups, templates, heq⟩ := n.persist_eq c result
      rw [heq]
      exact h
  exact h.of_kept hkept fun _ _ _ _ => rfl

theorem Reachable.isOpen {n : Node} (h : n.Reachable) (k : Kind) :
    n.registry.find? k.listName = some k := by
  rw [h.registry_eq]
  exact find?_registry_new .standard .none none none k

end Node

/-! ## Messages about values -/

/-- The messages about values. -/
def tell (values : List Value) : List CacheUpdate :=
  values.map fun x => .about x.1 x.2 .update

/-- The values of a node, list by list. -/
def Node.contents (n : Node) (kinds : List Kind) : List Value :=
  kinds.flatMap fun k => (n.values k).map (⟨k, ·⟩)

theorem filterMap_ofKind? (k : Kind) (vs : List k.Val) :
    (vs.map fun v => (⟨k, v⟩ : Value)).filterMap (Value.ofKind? k) = vs := by
  have hall : Value.ofKind? k ∘ (fun v => (⟨k, v⟩ : Value)) = some :=
    funext fun v => Value.ofKind?_self k v
  rw [List.filterMap_map, hall, List.filterMap_some]

theorem filterMap_ofKind?_of_ne {j k : Kind} (h : j ≠ k) (vs : List j.Val) :
    (vs.map fun v => (⟨j, v⟩ : Value)).filterMap (Value.ofKind? k) = [] := by
  rw [List.filterMap_map]
  exact List.filterMap_eq_nil_iff.2 fun v _ => Value.ofKind?_of_ne h v

/-- Values that are taken in after another one. -/
theorem Lists.absorb_put (l : Lists) (x : Value) (values : List Value) (k : Kind) :
    ((l.set x.1 ((l.get x.1).put x.1.key x.2)).get k).absorb k.key
        (values.filterMap (Value.ofKind? k)) =
      (l.get k).absorb k.key ((x :: values).filterMap (Value.ofKind? k)) := by
  obtain ⟨j, v⟩ := x
  by_cases hj : j = k
  · subst hj
    rw [List.filterMap_cons_some (Value.ofKind?_self j v)]
    exact congrArg (Entries.absorb j.key · _) (Lists.get_set_self ..)
  · rw [List.filterMap_cons_none (Value.ofKind?_of_ne hj v)]
    exact congrArg (Entries.absorb k.key · _) (Lists.get_set_of_ne _ (Ne.symm hj) _)

/-- Among the contents of a node the values of a kind are those of its list. -/
theorem filterMap_contents (n : Node) {kinds : List Kind} (h : kinds.Nodup) {k : Kind}
    (hk : k ∈ kinds) : (n.contents kinds).filterMap (Value.ofKind? k) = n.values k := by
  have hnone : ∀ kinds : List Kind, k ∉ kinds →
      (n.contents kinds).filterMap (Value.ofKind? k) = [] := by
    intro kinds hk
    induction kinds with
    | nil => rfl
    | cons j kinds ih =>
      rw [List.mem_cons, not_or] at hk
      obtain ⟨hj, hkinds⟩ := hk
      show List.filterMap (Value.ofKind? k) ((n.values j).map (⟨j, ·⟩) ++ n.contents kinds) = []
      rw [List.filterMap_append, filterMap_ofKind?_of_ne (Ne.symm hj), ih hkinds]
      rfl
  induction kinds with
  | nil => cases hk
  | cons j kinds ih =>
    obtain ⟨hj, hnodup⟩ := List.nodup_cons.1 h
    show List.filterMap (Value.ofKind? k) ((n.values j).map (⟨j, ·⟩) ++ n.contents kinds) = _
    rw [List.filterMap_append]
    by_cases hjk : j = k
    · subst hjk
      rw [filterMap_ofKind?, hnone kinds hj, List.append_nil]
    · rw [filterMap_ofKind?_of_ne hjk, List.nil_append]
      exact ih hnodup ((List.mem_cons.1 hk).resolve_left (Ne.symm hjk))

/-! ## The burst -/

/-- What succeeds for every element succeeds for all of them. -/
theorem mapM_ok {α β ε : Type} {f : α → Except ε β} {g : α → β} {l : List α}
    (h : ∀ a ∈ l, f a = .ok (g a)) : l.mapM f = .ok (l.map g) := by
  induction l with
  | nil => rfl
  | cons a l ih =>
    rw [List.mapM_cons, h a List.mem_cons_self, ih fun b hb => h b (List.mem_cons_of_mem a hb)]
    rfl

namespace Node

/-- The burst of a node whose lists are all open has the contents of all its lists, in some order of
the lists. -/
theorem snapshot_eq {n : Node} (h : n.registry = ⟨Kind.all.map fun k => (k.listName, k)⟩) :
    ∃ kinds, kinds.Perm Kind.all ∧ n.snapshot = .ok (tell (n.contents kinds)) := by
  refine ⟨n.registry.inOrder, ?_, ?_⟩
  · have hperm : n.registry.inOrder.Perm (n.registry.entries.map (·.2)) :=
      (List.mergeSort_perm _ _).map _
    rw [h] at hperm ⊢
    exact hperm
  · have hlist : ∀ k, (Rules.ofKind k).snapshot (n.lists.get k) =
        .ok (tell ((n.values k).map (⟨k, ·⟩))) := by
      intro k
      have hmessages : (Rules.ofKind k).snapshot (n.lists.get k) =
          .ok ((n.lists.get k).map fun e => .about k e.2 .update) := mapM_ok fun _ _ => rfl
      rw [hmessages]
      simp [tell, values, Entries.values, Function.comp_def]
    have hparts : n.registry.inOrder.mapM (fun k => (Rules.ofKind k).snapshot (n.lists.get k)) =
        .ok (n.registry.inOrder.map fun k => tell ((n.values k).map (⟨k, ·⟩))) :=
      mapM_ok fun k _ => hlist k
    unfold snapshot
    rw [hparts]
    show Except.ok _ = Except.ok _
    simp [tell, contents, List.flatMap_def, Function.comp_def]

/-! ## Receiving the burst -/

/-- `Node.receive` for one message after another. -/
def hear : Node → List Message → Node × List Message
  | n, [] => (n, [])
  | n, m :: later =>
    let (n, reply) := n.receive m
    let (n, replies) := hear n later
    (n, reply :: replies)

theorem hear_cons (n : Node) (m : Message) (later : List Message) :
    n.hear (m :: later) =
      (((n.receive m).1.hear later).1, (n.receive m).2 :: ((n.receive m).1.hear later).2) := rfl

/-- The message about a value puts it into the list of its kind. -/
theorem receive_update {n : Node} (hopen : ∀ k : Kind, n.registry.find? k.listName = some k)
    (k : Kind) (v : k.Val) : ∃ bus groups templates,
      (n.receive (.cacheUpdate (.about k v .update))).1 = { n with
        lists := n.lists.set k ((n.lists.get k).put k.key v)
        bus := bus, groupStore := groups, templateStore := templates } := by
  rw [receive_about (hopen k)]
  rcases carryOut_eq n (.asked k v .update) with ⟨e, hguard, -⟩ | ⟨-, hcarried⟩
  · rw [n.guard_update k v true true] at hguard
    cases hguard
  · exact hcarried

/-- The messages about values put them into the lists of their kinds, and change nothing but the
lists, the bus and the stores of the node. -/
theorem hear_tell {n : Node} (hopen : ∀ k : Kind, n.registry.find? k.listName = some k)
    (values : List Value) : ∃ lists bus groups templates,
      (n.hear ((tell values).map .cacheUpdate)).1 = { n with
        lists := lists, bus := bus, groupStore := groups, templateStore := templates } ∧
      ∀ k, lists.get k = (n.lists.get k).absorb k.key (values.filterMap (Value.ofKind? k)) := by
  induction values generalizing n with
  | nil => exact ⟨_, _, _, _, rfl, fun _ => rfl⟩
  | cons x values ih =>
    obtain ⟨k, v⟩ := x
    show ∃ lists bus groups templates,
      (n.hear (.cacheUpdate (.about k v .update) :: (tell values).map .cacheUpdate)).1 = _ ∧ _
    obtain ⟨bus, groups, templates, hreceive⟩ := receive_update hopen k v
    rw [hear_cons, hreceive]
    obtain ⟨lists, bus', groups', templates', hheard, hlists⟩ := ih (n := { n with
      lists := n.lists.set k ((n.lists.get k).put k.key v)
      bus := bus, groupStore := groups, templateStore := templates }) hopen
    exact ⟨lists, bus', groups', templates', hheard, fun j =>
      (hlists j).trans (n.lists.absorb_put ⟨k, v⟩ values j)⟩

/-- A node without stores acknowledges every message about a value. -/
theorem Bare.hear_tell {n : Node} (h : n.Bare) (values : List Value) :
    (n.hear ((tell values).map .cacheUpdate)).2 = values.map fun _ => .ack := by
  induction values generalizing n with
  | nil => rfl
  | cons x values ih =>
    obtain ⟨k, v⟩ := x
    obtain ⟨bus, hreceive⟩ := h.receive (n.guard_update k v true true)
    show (n.hear (.cacheUpdate (.about k v .update) :: (tell values).map .cacheUpdate)).2 = _
    rw [hear_cons, hreceive]
    exact congrArg (Message.ack :: ·) (ih ⟨h.isOpen, h.groupStore, h.templateStore⟩)

/-! ## What the burst does -/

/-- The burst of a reachable node rebuilds its lists in a new node without stores, which
acknowledges every message. In any reachable node it puts the values of the first one under their
keys, in the places of the old ones or behind them in their order, and leaves everything else. The
node that receives it hands nothing out, and receiving it again changes no list. -/
theorem burst_rebuilds {a b : Node} (ha : a.Reachable) (hb : b.Reachable) :
    ∃ burst : List CacheUpdate, a.snapshot = .ok burst ∧
      (∀ config broadcaster,
        let heard := (Node.new config broadcaster none none).hear (burst.map .cacheUpdate)
        heard.2 = burst.map (fun _ => .ack) ∧ heard.1.lists = a.lists ∧ heard.1.handed = []) ∧
      let heard := (b.hear (burst.map .cacheUpdate)).1
      (∀ (k : Kind) (key : k.Key), (heard.lists.get k).find? key =
        ((a.lists.get k).find? key).or ((b.lists.get k).find? key)) ∧
      (∀ k : Kind, (heard.lists.get k).keys = (b.lists.get k).keys ++
        (a.lists.get k).keys.filter (· ∉ (b.lists.get k).keys)) ∧
      heard.handed = b.handed ∧
      (heard.hear (burst.map .cacheUpdate)).1.lists = heard.lists ∧
      (heard.hear (burst.map .cacheUpdate)).1.handed = b.handed := by
  obtain ⟨kinds, hperm, hsnapshot⟩ := snapshot_eq ha.registry_eq
  have hnodup : kinds.Nodup := hperm.nodup_iff.2 (by decide)
  have hvalues : ∀ k, (a.contents kinds).filterMap (Value.ofKind? k) = (a.lists.get k).values :=
    fun k => filterMap_contents a hnodup (hperm.mem_iff.2 (by cases k <;> decide))
  have hkeys : ∀ k : Kind, ((a.lists.get k).values.map k.key).Nodup := by
    intro k
    rw [(ha.tidy k).map_values]
    exact (ha.tidy k).nodup
  refine ⟨_, hsnapshot, fun config broadcaster => ?_, ?_⟩
  · have hopen := find?_registry_new config broadcaster none none
    obtain ⟨lists, bus, groups, templates, hheard, hlists⟩ := hear_tell hopen (a.contents kinds)
    have hbare : (Node.new config broadcaster none none).Bare := ⟨hopen, rfl, rfl⟩
    refine ⟨?_, ?_, ?_⟩
    · rw [hbare.hear_tell]
      unfold tell
      rw [List.map_map]
      rfl
    · rw [hheard]
      refine Lists.ext_get fun k => ?_
      have hempty : (Node.new config broadcaster none none).lists.get k = [] := by cases k <;> rfl
      rw [hlists k, hvalues k, hempty]
      exact (ha.tidy k).absorb_nil
    · rw [hheard]
      rfl
  · intro heard
    obtain ⟨lists, bus, groups, templates, hheard, hlists⟩ := hear_tell hb.isOpen (a.contents kinds)
    have hheard : heard = _ := hheard
    have hget : ∀ k, heard.lists.get k =
        (b.lists.get k).absorb k.key (a.lists.get k).values := by
      intro k
      rw [hheard, ← hvalues k]
      exact hlists k
    have hhanded : heard.handed = b.handed := by rw [hheard]
    have hopen : ∀ k : Kind, heard.registry.find? k.listName = some k := by
      rw [hheard]
      exact hb.isOpen
    obtain ⟨lists', bus', groups', templates', hagain, hlists'⟩ :=
      hear_tell hopen (a.contents kinds)
    refine ⟨fun k key => ?_, fun k => ?_, hhanded, ?_, ?_⟩
    · rw [hget k, Entries.find?_absorb (hkeys k), (ha.tidy k).get?_values]
    · rw [hget k, Entries.keys_absorb (hkeys k), (ha.tidy k).map_values]
    · rw [hagain]
      refine Lists.ext_get fun k => ?_
      rw [hlists' k, hvalues k, hget k]
      exact (ha.tidy k).absorb_absorb _
    · rw [hagain]
      exact hhanded

/-! ### A receiver that spells a template in another way -/

namespace Rejoin

/-- A new node that has put templates into its list. -/
def holding (templates : List Template) : Node :=
  templates.foldl (fun n v => (n.carryOut ⟨.template, v, .update, false, false⟩).1.hand
    (.cacheUpdate (.about .template v .update))) (.new .standard .none none none)

def sender : Node := holding [.new "Arena", .new "Lobby"]

def receiver : Node := holding [.new "LOBBY", .new "Base"]

/-- The steps by which two templates are put into the list of a node. -/
def steps (first second : Template) : List Step :=
  [.start 0 (.change ⟨.template, first, .update, false, false⟩),
    .start 0 (.change ⟨.template, second, .update, false, false⟩), .poll 0, .poll 1]

theorem reachable_sender : sender.Reachable := by
  refine ⟨[.new .standard .none none none], steps (.new "Arena") (.new "Lobby"), 0, ?_, rfl⟩
  intro m hm
  exact ⟨_, _, _, _, List.mem_singleton.1 hm⟩

theorem reachable_receiver : receiver.Reachable := by
  refine ⟨[.new .standard .none none none], steps (.new "LOBBY") (.new "Base"), 0, ?_, rfl⟩
  intro m hm
  exact ⟨_, _, _, _, List.mem_singleton.1 hm⟩

/-- The template that both hold is spelled as the sender spells it and keeps its place before the
one that the receiver alone holds; the one that is new comes last. -/
theorem burst_rebuilds_respelled : sender.Reachable ∧ receiver.Reachable ∧
    ∃ burst : List CacheUpdate, sender.snapshot = .ok burst ∧
      ((receiver.hear (burst.map .cacheUpdate)).1.lists.get .template).keys =
        [⟨"lobby"⟩, ⟨"base"⟩, ⟨"arena"⟩] ∧
      ((receiver.hear (burst.map .cacheUpdate)).1.lists.get .template).find? ⟨"lobby"⟩ =
        some (Template.new "Lobby") := by
  refine ⟨reachable_sender, reachable_receiver, ?_⟩
  obtain ⟨burst, hsnapshot, -, hfind, hkeys, -⟩ :=
    burst_rebuilds reachable_sender reachable_receiver
  refine ⟨burst, hsnapshot, (hkeys .template).trans ?_, (hfind .template _).trans ?_⟩
  · rfl
  · rfl

end Rejoin

end Node

end CloudRoster
