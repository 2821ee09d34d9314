import CloudRoster.Proofs.Node.AtHome
import CloudRoster.Proofs.Node.Stores
import CloudRoster.Proofs.Storage.Refusals

/-!
# Outcomes of rounds

Two nodes that are alike but for their broadcasters go through the same changes, one after another,
while their rounds end in any two ways. Their lists and their events stay the same. Their stores do
so as long as the results of both agree on one point: a result that tells of a value that cannot be
written keeps the store from being told. A broadcaster that answers like that is believed too,
although the list did keep the change.
-/

namespace CloudRoster

open Cache (Bus Rules)
open Storage (Store)

namespace Node

/-- Two nodes differ at most in what reaches their peers and in their stores. -/
structure Twins (n n' : Node) : Prop where
  config : n.config = n'.config
  lists : n.lists = n'.lists
  bus : n.bus = n'.bus
  registry : n.registry = n'.registry

/-- Two nodes have the same stores. -/
def SameStores (n n' : Node) : Prop := ∀ k, n.store? k = n'.store? k

variable {n n' m : Node} {c : Change}

theorem Twins.guard (h : n.Twins n') (c : Change) : n.guard c = n'.guard c := by
  unfold Node.guard servicesOfGroup values
  rw [h.lists]

/-- A change that one of the twins commits is committed by the other one in the same way. -/
theorem Twins.commit (h : n.Twins n') {outbox : List CacheUpdate}
    (hcommit : n.commit c = .ok (m, outbox)) :
    ∃ m', n'.commit c = .ok (m', outbox) ∧ m.Twins m' ∧ m.SameStores n ∧ m'.SameStores n' := by
  obtain ⟨hguard, commit, hlist, rfl, rfl⟩ := commit_cases hcommit
  have hspreads : n'.spreads c.kind = n.spreads c.kind := by
    unfold spreads
    rw [h.config]
  have hother : n'.commit c = .ok ({ n' with
      lists := n'.lists.set c.kind commit.entries
      bus := n'.bus.publishAll commit.events }, commit.outbox) := by
    unfold Node.commit
    rw [← h.guard c, hguard, hspreads, ← h.lists]
    simp only [bind, Except.bind, hlist]
    rfl
  refine ⟨_, hother, ⟨h.config, ?_, ?_, h.registry⟩, fun k => ?_, fun k => ?_⟩
  · show n.lists.set _ _ = n'.lists.set _ _
    rw [h.lists]
  · show n.bus.publishAll _ = n'.bus.publishAll _
    rw [h.bus]
  · cases k <;> rfl
  · cases k <;> rfl

/-- The store does not hide whether the lists kept the change. -/
theorem keptLocally_persist (n : Node) (c : Change) (result : Except SyncError Unit) :
    keptLocally (n.persist c result).2 = keptLocally result := by
  by_cases htold : (c.managed && keptLocally result) = true
  · rcases n.persist_result c result with hsame | ⟨reason, hfailed⟩
    · rw [hsame]
    · rw [hfailed, ((Bool.and_eq_true _ _).mp htold).2]
      rfl
  · rw [persist_of_untold (Bool.not_eq_true _ ▸ htold)]

/-- Telling the stores leaves twins, and the same stores if both results agree on whether the lists
kept the change. -/
theorem Twins.persist (h : n.Twins n') (c : Change) (result result' : Except SyncError Unit) :
    (n.persist c result).1.Twins (n'.persist c result').1 ∧
      (n.SameStores n' → keptLocally result = keptLocally result' →
        (n.persist c result).1.SameStores (n'.persist c result').1) := by
  refine ⟨?_, fun hstores hkept k => ?_⟩
  · obtain ⟨groups, templates, hpersist⟩ := n.persist_eq c result
    obtain ⟨groups', templates', hpersist'⟩ := n'.persist_eq c result'
    rw [hpersist, hpersist']
    exact ⟨h.config, h.lists, h.bus, h.registry⟩
  · rw [store?_persist, store?_persist, hstores k, hkept]

end Node

namespace World

/-- Carries out changes on a node one after another. -/
def performAll (i : Nat) : World → List Change → World × List (Except SyncError Unit)
  | w, [] => (w, [])
  | w, c :: later =>
    let (w, result) := w.perform i c
    let (w, results) := performAll i w later
    (w, result :: results)

theorem performAll_cons (i : Nat) (w : World) (c : Change) (later : List Change) :
    w.performAll i (c :: later) =
      (((w.perform i c).1.performAll i later).1,
        (w.perform i c).2 :: ((w.perform i c).1.performAll i later).2) := rfl

theorem length_performAll (i : Nat) (w : World) (changes : List Change) :
    (w.performAll i changes).2.length = changes.length := by
  induction changes generalizing w with
  | nil => rfl
  | cons c later ih => rw [performAll_cons, List.length_cons, ih, List.length_cons]

variable {w w' : World} {i : Nat} {n n' : Node}

/-- One change on twins of two worlds. -/
theorem perform_twins (hnode : w[i]? = some n) (hnode' : w'[i]? = some n') (h : n.Twins n')
    (c : Change) :
    ∃ m m', (w.perform i c).1[i]? = some m ∧ (w'.perform i c).1[i]? = some m' ∧ m.Twins m' ∧
      (n.SameStores n' →
        Node.keptLocally (w.perform i c).2 = Node.keptLocally (w'.perform i c).2 →
        m.SameStores m') := by
  cases hcommit : n.commit c with
  | error e =>
    have hguard : n.guard c = .error e := by
      cases hguard : n.guard c with
      | error e' =>
        rw [Node.commit_of_guard_error hguard] at hcommit
        exact congrArg Except.error (Except.error.inj hcommit)
      | ok allowed =>
        obtain ⟨bus, hallowed⟩ := Node.commit_of_guard hguard
        rw [hallowed] at hcommit
        cases hcommit
    have hguard' : n'.guard c = .error e := (h.guard c).symm.trans hguard
    rw [perform_of_guard_error hnode hguard, perform_of_guard_error hnode' hguard']
    exact ⟨n, n', hnode, hnode', h, fun hstores _ => hstores⟩
  | ok committed =>
    obtain ⟨m, outbox⟩ := committed
    obtain ⟨m', hcommit', htwins, hsame, hsame'⟩ := h.commit hcommit
    obtain ⟨told, result, -, -, -, hm, hresult⟩ := perform_at_home hnode hcommit
    obtain ⟨told', result', -, -, -, hm', hresult'⟩ := perform_at_home hnode' hcommit'
    have hhanded : Node.Twins { m with handed := m.handed ++ told.map Message.cacheUpdate }
        { m' with handed := m'.handed ++ told'.map Message.cacheUpdate } :=
      ⟨htwins.config, htwins.lists, htwins.bus, htwins.registry⟩
    have hpersist := hhanded.persist c result result'
    refine ⟨_, _, hm, hm', hpersist.1, fun hstores hkept => hpersist.2 (fun k => ?_) ?_⟩
    · have hcommitted := (hsame k).trans ((hstores k).trans (hsame' k).symm)
      cases k <;> exact hcommitted
    · rwa [hresult, hresult', Node.keptLocally_persist, Node.keptLocally_persist] at hkept

/-- Many changes on twins of two worlds. -/
theorem performAll_twins (hnode : w[i]? = some n) (hnode' : w'[i]? = some n') (h : n.Twins n')
    (changes : List Change) :
    ∃ m m', (w.performAll i changes).1[i]? = some m ∧ (w'.performAll i changes).1[i]? = some m' ∧
      m.Twins m' ∧ (n.SameStores n' →
        (w.performAll i changes).2.map Node.keptLocally =
          (w'.performAll i changes).2.map Node.keptLocally → m.SameStores m') := by
  induction changes generalizing w w' n n' with
  | nil => exact ⟨n, n', hnode, hnode', h, fun hstores _ => hstores⟩
  | cons c later ih =>
    obtain ⟨x, x', hx, hx', htwins, hstep⟩ := perform_twins hnode hnode' h c
    obtain ⟨m, m', hm, hm', hend, hrest⟩ := ih hx hx' htwins
    refine ⟨m, m', hm, hm', hend, fun hstores hkept => ?_⟩
    rw [performAll_cons, performAll_cons] at hkept
    obtain ⟨hfirst, hlater⟩ := List.cons.inj hkept
    exact hrest (hstep hstores hfirst) hlater

end World

/-- Two runs of the same changes from the same state of a node, with any two broadcasters and any
two surroundings, end with the same lists and the same events. The stores have been told the same
as well if the results of both runs tell at the same places of a value that cannot be written; in
particular if no result does. -/
theorem outcomes_change_nothing_at_home {w w' : World} {i : Nat} {n : Node} {b : Broadcaster}
    {handed : List Message} (hnode : w[i]? = some n)
    (hnode' : w'[i]? = some { n with broadcaster := b, handed := handed })
    (changes : List Change) :
    ∃ m m', (w.performAll i changes).1[i]? = some m ∧ (w'.performAll i changes).1[i]? = some m' ∧
      m.lists = m'.lists ∧ m.bus = m'.bus ∧
      ((w.performAll i changes).2.map Node.keptLocally =
          (w'.performAll i changes).2.map Node.keptLocally →
        m.groupStore = m'.groupStore ∧ m.templateStore = m'.templateStore) ∧
      ((∀ result ∈ (w.performAll i changes).2 ++ (w'.performAll i changes).2,
          ∀ reason, result ≠ .error (.serialization reason)) →
        m.groupStore = m'.groupStore ∧ m.templateStore = m'.templateStore) := by
  obtain ⟨m, m', hm, hm', htwins, hstores⟩ :=
    World.performAll_twins hnode hnode' ⟨rfl, rfl, rfl, rfl⟩ changes
  have hsame : n.SameStores { n with broadcaster := b, handed := handed } := fun k => by
    cases k <;> rfl
  have hagree : (w.performAll i changes).2.map Node.keptLocally =
        (w'.performAll i changes).2.map Node.keptLocally →
      m.groupStore = m'.groupStore ∧ m.templateStore = m'.templateStore := fun hkept =>
    ⟨hstores hsame hkept .group, hstores hsame hkept .template⟩
  refine ⟨m, m', hm, hm', htwins.lists, htwins.bus, hagree, fun hnone => hagree ?_⟩
  have hall : ∀ results : List (Except SyncError Unit),
      (∀ result ∈ results, ∀ reason, result ≠ .error (.serialization reason)) →
      results.map Node.keptLocally = List.replicate results.length true := by
    intro results h
    refine List.eq_replicate_iff.2 ⟨List.length_map _, fun kept hkept => ?_⟩
    obtain ⟨result, hresult, rfl⟩ := List.mem_map.1 hkept
    exact Node.keptLocally_of_written (h result hresult)
  rw [hall _ fun r hr => hnone r (List.mem_append_left _ hr),
    hall _ fun r hr => hnone r (List.mem_append_right _ hr),
    World.length_performAll, World.length_performAll]

/-! ### A broadcaster that cannot write -/

namespace UnwrittenMessage

def template : Template := .new "Base"

/-- A managed update of the template. -/
def change : Change := ⟨.template, template, .update, false, true⟩

/-- A node whose rounds all have the same outcome, with a store for its templates. -/
def node (outcome : Except SyncError Report) : Node :=
  .new .standard (.external 1 fun _ => ⟨0, outcome⟩) none (some .journalOnly)

/-- The node after the change. -/
def after (outcome : Except SyncError Report) : Option Node :=
  (World.performAll 0 [node outcome] [change]).1[0]?

/-- Both runs put the template into the list. Only the one whose round is a success saves it; the
broadcaster of the other one answers that it could not write the message. -/
theorem unwritten_message_keeps_store_untold :
    node (.error (.serialization "poisoned")) =
      { node (.ok ⟨1, 1, []⟩) with
        broadcaster := (node (.error (.serialization "poisoned"))).broadcaster } ∧
    ∃ m m', after (.ok ⟨1, 1, []⟩) = some m ∧
      after (.error (.serialization "poisoned")) = some m' ∧
      m.cached .template template = some template ∧
      m'.cached .template template = some template ∧
      m.templateStore.map (·.journal) = some [(.save, ⟨.template, template⟩)] ∧
      m'.templateStore.map (·.journal) = some [] :=
  ⟨rfl, _, _, rfl, rfl, rfl, rfl, rfl, rfl⟩

/-- A round that fails with an error of the network changes nothing at home. -/
theorem lost_message_keeps_store_told :
    ∃ m m', after (.ok ⟨1, 1, []⟩) = some m ∧ after (.error (.network "no route")) = some m' ∧
      m.lists = m'.lists ∧ m.bus = m'.bus ∧ m.templateStore = m'.templateStore := by
  have hnode : ([node (.ok ⟨1, 1, []⟩)] : World)[0]? = some (node (.ok ⟨1, 1, []⟩)) := rfl
  have hnode' : ([node (.error (.network "no route"))] : World)[0]? =
      some { node (.ok ⟨1, 1, []⟩) with
        broadcaster := (node (.error (.network "no route"))).broadcaster, handed := [] } := rfl
  obtain ⟨m, m', hm, hm', hlists, hbus, -, hstores⟩ :=
    outcomes_change_nothing_at_home hnode hnode' [change]
  refine ⟨m, m', hm, hm', hlists, hbus, (hstores ?_).2⟩
  have hresults : (World.performAll 0 [node (.ok ⟨1, 1, []⟩)] [change]).2 ++
      (World.performAll 0 [node (.error (.network "no route"))] [change]).2 =
        [.ok (), .error (.network "no route")] := rfl
  rw [hresults]
  intro result hresult reason hwritten
  simp only [List.mem_cons, List.not_mem_nil, or_false] at hresult
  rcases hresult with rfl | rfl <;> cases hwritten

end UnwrittenMessage

end CloudRoster
