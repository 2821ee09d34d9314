import CloudRoster.Proofs.Node.AtHome
import CloudRoster.Proofs.Node.Burst
import CloudRoster.Proofs.Storage.Refusals
import CloudRoster.Proofs.Text.AsciiCase

/-!
# Groups in use

`Node.guard` refuses to delete a group as long as a service names it. It looks for
services whose group is spelled like the name of the group but for the case of ASCII letters, while
groups are told apart by keys, which ignore the case of all letters. So a deletion that is refused
is refused for a service of the group; but services that spell the group in another way beyond
ASCII do not protect it.
-/

namespace CloudRoster

/-- A service belongs to a group if the name that it gives has the key of the group. -/
def Service.BelongsTo (s : Service) (g : Group) : Prop := NameKey.ofName s.groupName = g.key

/-- The name that a service gives of its group differs from that of the group at most in the case of
ASCII letters. -/
def Service.SpellsAlike (s : Service) (g : Group) : Prop :=
  Text.sameIgnoringAsciiCase s.groupName g.name = true

theorem Service.SpellsAlike.belongsTo {s : Service} {g : Group} (h : s.SpellsAlike g) :
    s.BelongsTo g := NameKey.ofName_eq_of_sameIgnoringAsciiCase h

namespace Node

variable {n : Node} {g : Group}

/-- The managed deletion of a group. -/
abbrev deletion (g : Group) (fromPacket : Bool) : Change := ⟨.group, g, .delete, fromPacket, true⟩

theorem mem_servicesOfGroup {s : Service} :
    s ∈ n.servicesOfGroup g.name ↔ s ∈ n.values .service ∧ s.SpellsAlike g := List.mem_filter

/-- `Node.guard` lets a deletion through exactly if no service spells the group alike. -/
theorem guard_deletion (fromPacket : Bool) :
    (n.servicesOfGroup g.name = [] → n.guard (deletion g fromPacket) = .ok ()) ∧
      (n.servicesOfGroup g.name ≠ [] → n.guard (deletion g fromPacket) =
        .error (.groupInUse g.name (n.servicesOfGroup g.name).length)) := by
  constructor
  · intro hnone
    unfold guard
    simp only [hnone]
    rfl
  · intro hsome
    obtain ⟨s, members, hmembers⟩ := List.exists_cons_of_ne_nil hsome
    unfold guard
    simp only [hmembers]
    rfl

theorem persist_handed (n : Node) (c : Change) (result : Except SyncError Unit) :
    (n.persist c result).1.handed = n.handed := by
  obtain ⟨groups, templates, hpersist⟩ := n.persist_eq c result
  rw [hpersist]

end Node

namespace World

variable {w : World} {i : Nat} {n : Node} {g : Group}

/-- The deletion of a group is refused because of its services, and nothing changes. -/
def Refuses (w : World) (i : Nat) (g : Group) (fromPacket : Bool) : Prop :=
  ∃ services, w.perform i (Node.deletion g fromPacket) =
    (w, .error (.groupInUse g.name services))

/-- What a deletion that is let through leaves: the group is gone and the services are as before.
It is not refused, whatever the peers and the store answer. -/
theorem perform_deletion (hnode : w[i]? = some n) (htidy : n.Tidy)
    (hnone : n.servicesOfGroup g.name = []) (fromPacket : Bool) :
    ¬ w.Refuses i g fromPacket ∧
      ∃ n', (w.perform i (Node.deletion g fromPacket)).1[i]? = some n' ∧
        n'.cached .group g = none ∧ n'.values .service = n.values .service := by
  let c := Node.deletion g fromPacket
  obtain ⟨bus, hcommit⟩ := Node.commit_of_guard ((Node.guard_deletion fromPacket).1 hnone)
  obtain ⟨told, result, -, htold, hresult, hnode', hresult'⟩ := perform_at_home hnode hcommit
  refine ⟨?_, _, hnode', ?_, ?_⟩
  · rintro ⟨services, hrefused⟩
    rw [hrefused] at hnode' hresult'
    by_cases houtbox : n.outbox c = []
    · -- no message was handed out, so only the store can have failed, and not with this error
      rw [hresult houtbox] at hresult'
      rcases Node.persist_result _ c (.ok ()) with hok | ⟨reason, hfailed⟩
      · cases hresult'.trans hok
      · cases hresult'.trans hfailed
    · -- a message was handed out, so something did change
      have hsame := congrArg Node.handed (Option.some.inj (hnode.symm.trans hnode'))
      rw [Node.persist_handed] at hsame
      have hlength : n.handed.length = n.handed.length + told.length := by
        simpa using congrArg List.length hsame
      exact htold houtbox (List.length_eq_zero_iff.1 (by omega))
  · obtain ⟨groups, templates, hpersist⟩ := Node.persist_eq { n with
      lists := n.lists.set c.kind (c.applyTo (n.lists.get c.kind))
      bus := bus, handed := n.handed ++ told.map Message.cacheUpdate } c result
    rw [hpersist]
    exact htidy.cached_applyTo c rfl
  · obtain ⟨groups, templates, hpersist⟩ := Node.persist_eq { n with
      lists := n.lists.set c.kind (c.applyTo (n.lists.get c.kind))
      bus := bus, handed := n.handed ++ told.map Message.cacheUpdate } c result
    rw [hpersist]
    rfl

/-- A deletion is refused exactly because of the services that spell the group alike. -/
theorem refuses_iff (hnode : w[i]? = some n) (htidy : n.Tidy) (fromPacket : Bool) :
    w.Refuses i g fromPacket ↔ ∃ s ∈ n.values .service, s.SpellsAlike g := by
  constructor
  · intro hrefused
    have hsome : n.servicesOfGroup g.name ≠ [] := fun hnone =>
      (perform_deletion hnode htidy hnone fromPacket).1 hrefused
    obtain ⟨s, hs⟩ := List.exists_mem_of_ne_nil _ hsome
    exact ⟨s, Node.mem_servicesOfGroup.1 hs⟩
  · rintro ⟨s, hs⟩
    have hsome : n.servicesOfGroup g.name ≠ [] :=
      List.ne_nil_of_mem (Node.mem_servicesOfGroup.2 hs)
    exact ⟨_, perform_of_guard_error hnode ((Node.guard_deletion fromPacket).2 hsome)⟩

end World

/-- In every reachable state the deletion of a group is refused, and changes nothing, exactly if a
service spells the group alike; each such service belongs to the group. A deletion that is not
refused takes the group away and leaves the services, and those of them that belonged to it are the
ones that spell it otherwise. So where all services of the group spell it alike, the deletion is
refused exactly if the group has a service, and one that is not refused leaves none behind. -/
theorem deletion_refused_iff_spelled_alike {w : World} {i : Nat} {n : Node}
    (hnode : w[i]? = some n) (hreachable : n.Reachable) (g : Group) (fromPacket : Bool) :
    (w.Refuses i g fromPacket ↔ ∃ s ∈ n.values .service, s.SpellsAlike g) ∧
      (w.Refuses i g fromPacket → ∃ s ∈ n.values .service, s.BelongsTo g) ∧
      (¬ w.Refuses i g fromPacket →
        ∃ n', (w.perform i (Node.deletion g fromPacket)).1[i]? = some n' ∧
          n'.cached .group g = none ∧ n'.values .service = n.values .service ∧
          ∀ s ∈ n'.values .service, s.BelongsTo g → ¬ s.SpellsAlike g) ∧
      ((∀ s ∈ n.values .service, s.BelongsTo g → s.SpellsAlike g) →
        (w.Refuses i g fromPacket ↔ ∃ s ∈ n.values .service, s.BelongsTo g) ∧
        (¬ w.Refuses i g fromPacket →
          ∃ n', (w.perform i (Node.deletion g fromPacket)).1[i]? = some n' ∧
            n'.cached .group g = none ∧ ∀ s ∈ n'.values .service, ¬ s.BelongsTo g)) := by
  have hrefuses := World.refuses_iff (g := g) hnode hreachable.tidy fromPacket
  have hbelongs : w.Refuses i g fromPacket → ∃ s ∈ n.values .service, s.BelongsTo g := by
    intro h
    obtain ⟨s, hs, halike⟩ := hrefuses.1 h
    exact ⟨s, hs, halike.belongsTo⟩
  have hleaves : ¬ w.Refuses i g fromPacket →
      ∃ n', (w.perform i (Node.deletion g fromPacket)).1[i]? = some n' ∧
        n'.cached .group g = none ∧ n'.values .service = n.values .service ∧
        ∀ s ∈ n'.values .service, s.BelongsTo g → ¬ s.SpellsAlike g := by
    intro hallowed
    have hnoone : ∀ s ∈ n.values .service, ¬ s.SpellsAlike g := fun s hs halike =>
      hallowed (hrefuses.2 ⟨s, hs, halike⟩)
    have hnone : n.servicesOfGroup g.name = [] := List.eq_nil_iff_forall_not_mem.2 fun s hs =>
      hnoone s (Node.mem_servicesOfGroup.1 hs).1 (Node.mem_servicesOfGroup.1 hs).2
    obtain ⟨-, n', hn', hgone, hservices⟩ :=
      World.perform_deletion hnode hreachable.tidy hnone fromPacket
    refine ⟨n', hn', hgone, hservices, fun s hs _ => hnoone s ?_⟩
    rwa [hservices] at hs
  refine ⟨hrefuses, hbelongs, hleaves, fun hspelled => ⟨⟨hbelongs, ?_⟩, ?_⟩⟩
  · rintro ⟨s, hs, hmember⟩
    exact hrefuses.2 ⟨s, hs, hspelled s hs hmember⟩
  · intro hallowed
    obtain ⟨n', hn', hgone, hservices, hothers⟩ := hleaves hallowed
    refine ⟨n', hn', hgone, fun s hs hmember => hothers s hs hmember ?_⟩
    rw [hservices] at hs
    exact hspelled s hs hmember

/-! ### A group that is spelled in two ways -/

namespace NonAsciiName

def group : Group := .new "Älter" .lobby

/-- A service of the group, whose name it gives as told. -/
def service (groupName : String) : Service := .new groupName 1 25565

/-- A node after managed updates of the group and of a service. -/
def holder (groupName : String) : Node :=
  let held := ((Node.new .standard .none none none).carryOut
    ⟨.group, group, .update, false, true⟩).1
  { (held.carryOut ⟨.service, service groupName, .update, false, true⟩).1 with
    handed := [.cacheUpdate (.about .group group .update),
      .cacheUpdate (.about .service (service groupName) .update)] }

/-- The steps in which it does so. -/
def steps (groupName : String) : List Step :=
  [.start 0 (.change ⟨.group, group, .update, false, true⟩),
    .start 0 (.change ⟨.service, service groupName, .update, false, true⟩), .poll 0, .poll 1]

theorem reachable_holder (groupName : String) : (holder groupName).Reachable := by
  refine ⟨[.new .standard .none none none], steps groupName, 0, ?_, rfl⟩
  intro m hm
  exact ⟨_, _, _, _, List.mem_singleton.1 hm⟩

/-- The service gives the name with a small umlaut: it belongs to the group, and the group is
deleted all the same. -/
theorem deletion_leaves_member : (holder "älter").Reachable ∧
    (∃ s ∈ (holder "älter").values .service, s.BelongsTo group) ∧
    ¬ World.Refuses [holder "älter"] 0 group false ∧
    (World.perform [holder "älter"] 0 (Node.deletion group false)).2 = .ok () ∧
    ∃ n', (World.perform [holder "älter"] 0 (Node.deletion group false)).1[0]? = some n' ∧
      n'.cached .group group = none ∧ ∃ s ∈ n'.values .service, s.BelongsTo group := by
  have hbelongs : (service "älter").BelongsTo group := by
    unfold Service.BelongsTo
    decide +kernel
  have hnone : (holder "älter").servicesOfGroup group.name = [] := by decide +kernel
  have hmember : service "älter" ∈ (holder "älter").values .service :=
    List.mem_singleton_self _
  obtain ⟨hallowed, n', hn', hgone, hservices⟩ := World.perform_deletion (w := [holder "älter"])
    (i := 0) rfl (reachable_holder _).tidy hnone false
  refine ⟨reachable_holder _, ⟨_, hmember, hbelongs⟩, hallowed, ?_, n', hn', hgone,
    service "älter", ?_, hbelongs⟩
  · rfl
  · rw [hservices]
    exact hmember

/-- The service gives the name in small letters but for the umlaut: the deletion is refused. -/
theorem deletion_refused_for_member :
    World.Refuses [holder "ÄLTER"] 0 group true ∧
      ∃ s ∈ (holder "ÄLTER").values .service, s.BelongsTo group := by
  have hrefused := deletion_refused_iff_spelled_alike (w := [holder "ÄLTER"]) (i := 0) rfl
    (reachable_holder _) group true
  have halike : (service "ÄLTER").SpellsAlike group := by
    unfold Service.SpellsAlike
    decide +kernel
  have hrefuses := hrefused.1.2 ⟨_, List.mem_singleton_self _, halike⟩
  exact ⟨hrefuses, hrefused.2.1 hrefuses⟩

end NonAsciiName

end CloudRoster
