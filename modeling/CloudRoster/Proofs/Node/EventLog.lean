import CloudRoster.Proofs.Cache.Events
import CloudRoster.Proofs.Node.Histories
import CloudRoster.Proofs.Node.Journal
import CloudRoster.Proofs.Node.Rounds

/-!
# The event stream as a log

A listener subscribes before the first operation and never falls so far behind that events are lost
(`Delivery.lost`). At every `Bus.drain`, the events of each list that it has received so far mirror
what the run has made of that list (`Event.Mirrors`), whether the changes were local or came from
peers and however the rounds ended.
-/

namespace CloudRoster

open Cache (Bus Delivery Envelope Listener)
open Event (Mirrors)

/-! ## Listeners -/

namespace Cache

/-- The events of one list. -/
def eventsOf (k : Kind) (es : List Envelope) : List Event :=
  (es.filter (·.listName = k.listName)).map (·.event)

@[simp]
theorem eventsOf_append (k : Kind) (es es' : List Envelope) :
    eventsOf k (es ++ es') = eventsOf k es ++ eventsOf k es' := by
  simp [eventsOf]

namespace Bus

/-- There is a listener of an identifier, and it is past all events. -/
def UpToDate (b : Bus) (id : Nat) : Prop :=
  b.listeners.find? (·.id = id) = some ⟨id, b.log.length⟩

theorem upToDate_subscribe {b : Bus} (h : ∀ l ∈ b.listeners, l.id < b.issued) :
    b.subscribe.1.UpToDate b.subscribe.2 := by
  have hnone : b.listeners.find? (·.id = b.issued) = none := by
    refine List.find?_eq_none.2 fun l hl => ?_
    simpa using Nat.ne_of_lt (h l hl)
  show (b.listeners ++ [(⟨b.issued, b.log.length⟩ : Listener)]).find? (·.id = b.issued) = _
  rw [List.find?_append, hnone]
  simp [subscribe]

/-- Handing out events publishes none. -/
theorem log_drain (b : Bus) (id : Nat) : (b.drain id).1.log = b.log := by
  unfold Bus.drain
  split <;> rfl

/-- `Bus.drain` gives a listener that was past all events those published since, unless some were
lost, and leaves it past all events. -/
theorem UpToDate.drain {b b' : Bus} {id : Nat} (h : b.UpToDate id)
    (hlisteners : b'.listeners = b.listeners) {later : List Envelope}
    (hlog : b'.log = b.log ++ later) :
    ∃ bus delivery, b'.drain id = (bus, some delivery) ∧ bus.UpToDate id ∧
      (delivery.lost = 0 → delivery.events = later) := by
  have hfind : b'.listeners.find? (·.id = id) = some ⟨id, b.log.length⟩ := hlisteners ▸ h
  unfold Bus.drain
  rw [hfind]
  refine ⟨_, _, rfl, ?_, fun hlost => ?_⟩
  · have hsame : (fun l : Listener => decide (l.id = id)) ∘
        (fun l => if l.id = id then { l with position := b'.log.length } else l) =
        fun l => decide (l.id = id) := by
      funext l
      by_cases hl : l.id = id
      · simp [hl]
      · simp [hl]
    show (b'.listeners.map _).find? _ = _
    rw [List.find?_map, hsame, hfind]
    exact congrArg some (if_pos rfl)
  · have hwaiting : b'.log.drop b.log.length = later := by
      rw [hlog]
      exact List.drop_left
    unfold behind at hlost ⊢
    simp only [hwaiting] at hlost ⊢
    rw [hlost, List.drop_zero]

end Bus

end Cache

/-! ## What a node publishes -/

namespace Node

/-- The events that a node has published since an earlier time mirror what has happened to its
lists, and the listeners are the same. -/
structure Recounts (n₀ n : Node) : Prop where
  tidy : n.Tidy
  listeners : n.bus.listeners = n₀.bus.listeners
  log : ∃ later, n.bus.log = n₀.bus.log ++ later ∧
    ∀ k, Mirrors k (n₀.values k) (Cache.eventsOf k later) (n.values k)

theorem recounts_refl {n : Node} (h : n.Tidy) : Recounts n n :=
  ⟨h, rfl, [], (List.append_nil _).symm, fun _ => .nil⟩

theorem Recounts.commit {n₀ n n' : Node} (h : Recounts n₀ n) {c : Change}
    {outbox : List CacheUpdate} (hcommit : n.commit c = .ok (n', outbox)) : Recounts n₀ n' := by
  obtain ⟨later, hlog, hmirrors⟩ := h.log
  have htidy := h.tidy.commit hcommit
  obtain ⟨-, commit, hlist, rfl, -⟩ := commit_cases hcommit
  refine ⟨htidy, h.listeners, later ++ commit.events, ?_, fun k => ?_⟩
  · show n.bus.log ++ commit.events = _
    rw [hlog, List.append_assoc]
  · rw [Cache.eventsOf_append]
    refine (hmirrors k).append ?_
    by_cases hk : c.kind = k
    · subst hk
      show Mirrors c.kind (n.lists.get c.kind).values (Cache.eventsOf c.kind commit.events)
        ((n.lists.set c.kind commit.entries).get c.kind).values
      unfold Cache.eventsOf
      rw [Lists.get_set_self, filter_events_of_commit hlist]
      exact Event.mirrors_commit (h.tidy c.kind) hlist
    · show Mirrors k (n.lists.get k).values (Cache.eventsOf k commit.events)
        ((n.lists.set c.kind commit.entries).get k).values
      unfold Cache.eventsOf
      rw [Lists.get_set_of_ne _ (Ne.symm hk), filter_events_of_commit_of_ne hlist hk]
      exact .nil

theorem kept_recounts (n₀ : Node) : Node.Kept (Recounts n₀) where
  commit hcommit h := h.commit hcommit
  hand _ h := ⟨h.tidy, h.listeners, h.log⟩
  persist {n} c result h := by
    obtain ⟨groups, templates, heq⟩ := n.persist_eq c result
    rw [heq]
    exact ⟨h.tidy, h.listeners, h.log⟩

end Node

/-! ## What a listener gets -/

namespace Traffic

/-- `Bus.drain` for a listener of a node. -/
def drain (t : Traffic) (i id : Nat) : Traffic × Option Delivery :=
  match t.world[i]? with
  | none => (t, none)
  | some n =>
    let (bus, delivery) := n.bus.drain id
    (t.setNode i { n with bus := bus }, delivery)

/-- Runs the parts of a run one after another, with a `drain` for a listener of a node after each
part. -/
def listen (i id : Nat) : Traffic → List (List Step) → Traffic × List Delivery
  | t, [] => (t, [])
  | t, steps :: parts =>
    let (t, delivery) := (t.run steps).drain i id
    let (t, deliveries) := listen i id t parts
    (t, delivery.toList ++ deliveries)

theorem listen_cons (t : Traffic) (i id : Nat) (steps : List Step) (parts : List (List Step)) :
    t.listen i id (steps :: parts) =
      ((((t.run steps).drain i id).1.listen i id parts).1,
        ((t.run steps).drain i id).2.toList ++
          (((t.run steps).drain i id).1.listen i id parts).2) := rfl

/-- One part: the node publishes what happens to its lists, and the `drain` after it gives just
that, unless events were lost. -/
theorem drain_run {standing : Claimant → Standing} {t : Traffic} (hsound : Sound ⟨t, standing⟩)
    {i id : Nat} {n : Node} (hnode : t.world[i]? = some n) (htidy : n.Tidy)
    (hlistener : n.bus.UpToDate id) (steps : List Step) :
    ∃ standing' t' n' delivery, (t.run steps).drain i id = (t', some delivery) ∧
      Sound ⟨t', standing'⟩ ∧ t'.world[i]? = some n' ∧ n'.Tidy ∧ n'.bus.UpToDate id ∧
      (delivery.lost = 0 → n'.bus.log = n.bus.log ++ delivery.events ∧
        ∀ k, Mirrors k (n.values k) (Cache.eventsOf k delivery.events) (n'.values k)) := by
  obtain ⟨⟨t', standing'⟩, hsound', ⟨n', hnode', hrecounts⟩, htraffic⟩ :=
    hsound.run ((Node.kept_recounts n).kept_exists i) ⟨n, hnode, Node.recounts_refl htidy⟩ steps
  obtain rfl : t' = t.run steps := htraffic
  obtain ⟨later, hlog, hmirrors⟩ := hrecounts.log
  obtain ⟨bus, delivery, hdrain, huptodate, hevents⟩ := hlistener.drain hrecounts.listeners hlog
  refine ⟨standing', (t.run steps).setNode i { n' with bus := bus }, { n' with bus := bus },
    delivery, ?_, hsound'.setNode i _, World.getElem?_update_self hnode' _, hrecounts.tidy,
    huptodate, fun hlost => ?_⟩
  · unfold drain
    have hnode' : (t.run steps).world[i]? = some n' := hnode'
    rw [hnode']
    simp only [hdrain]
  · rw [hevents hlost]
    refine ⟨?_, hmirrors⟩
    have hsame : bus.log = n'.bus.log := by rw [← Cache.Bus.log_drain n'.bus id, hdrain]
    exact hsame.trans hlog

/-- Any number of parts: the deliveries together are what the node has published, and mirror what
has happened to the lists. -/
theorem mirrors_listen {standing : Claimant → Standing} {t : Traffic}
    (hsound : Sound ⟨t, standing⟩) {i id : Nat} {n : Node} (hnode : t.world[i]? = some n)
    (htidy : n.Tidy) (hlistener : n.bus.UpToDate id) (parts : List (List Step)) :
    (∀ d ∈ (t.listen i id parts).2, d.lost = 0) →
    ∃ n', (t.listen i id parts).1.world[i]? = some n' ∧
      n'.bus.log = n.bus.log ++ (t.listen i id parts).2.flatMap (·.events) ∧
      ∀ k, Mirrors k (n.values k)
        (Cache.eventsOf k ((t.listen i id parts).2.flatMap (·.events))) (n'.values k) := by
  induction parts generalizing standing t n with
  | nil => exact fun _ => ⟨n, hnode, (List.append_nil _).symm, fun _ => .nil⟩
  | cons steps parts ih =>
    intro hlost
    obtain ⟨standing', t', n', delivery, hdrain, hsound', hnode', htidy', hlistener', hpart⟩ :=
      drain_run hsound hnode htidy hlistener steps
    have hlisten : t.listen i id (steps :: parts) =
        ((t'.listen i id parts).1, delivery :: (t'.listen i id parts).2) := by
      rw [listen_cons, hdrain]
      rfl
    rw [hlisten] at hlost ⊢
    obtain ⟨hfirst, hrest⟩ := List.forall_mem_cons.1 hlost
    obtain ⟨n'', hnode'', hlog', hparts⟩ := ih hsound' hnode' htidy' hlistener' hrest
    obtain ⟨hlog, hpart⟩ := hpart hfirst
    refine ⟨n'', hnode'', ?_, fun k => ?_⟩
    · rw [List.flatMap_cons, ← List.append_assoc, ← hlog]
      exact hlog'
    · rw [List.flatMap_cons, Cache.eventsOf_append]
      exact (hpart k).append (hparts k)

/-- A listener subscribes to a node whose lists are empty, before anything is done. Whatever
operations there are, however their steps are interleaved and their rounds end, and whenever there
is a `drain`: if no events were lost, then the events of each list, followed from nothing, come to
what the list holds, in its order, and each of them fits the values that it is followed from. -/
theorem listener_follows_lists {w : World} {i : Nat} {n : Node} (hnode : w[i]? = some n)
    (hempty : n.lists = .empty) (hissued : ∀ l ∈ n.bus.listeners, l.id < n.bus.issued)
    (parts : List (List Step)) :
    let listening := { n with bus := n.bus.subscribe.1 }
    let heard := (Traffic.new (w.update i listening)).listen i n.bus.subscribe.2 parts
    (∀ d ∈ heard.2, d.lost = 0) →
    ∃ n', heard.1.world[i]? = some n' ∧ ∀ k, Mirrors k []
      (Cache.eventsOf k (heard.2.flatMap (·.events))) (n'.values k) := by
  intro listening heard hlost
  have hempty' : listening.lists = .empty := hempty
  obtain ⟨n', hnode', -, hmirrors⟩ := mirrors_listen (sound_new (w.update i listening))
    (World.getElem?_update_self hnode listening) (Node.tidy_of_empty hempty')
    (Cache.Bus.upToDate_subscribe hissued) parts hlost
  exact ⟨n', hnode', fun k => Node.values_of_empty hempty' k ▸ hmirrors k⟩

/-! ### A listener of a node whose peers all fail -/

namespace Audience

/-- The steps by which a change of templates is begun and carried out, after others. -/
def steps (before : Nat) (v : Template) (action : Action) : List Step :=
  [.start 0 (.change ⟨.template, v, action, false, false⟩), .poll before]

def parts : List (List Step) :=
  [steps 0 (.new "Lobby") .update ++ steps 1 (.new "Arena") .update,
    steps 2 (.new "LOBBY") .update, steps 3 (.new "arena") .delete]

def node : Node := .new .standard (.recording 1 true 0) none none

def heard : Traffic × List Delivery :=
  (Traffic.new (World.update [node] 0 { node with bus := node.bus.subscribe.1 })).listen 0
    node.bus.subscribe.2 parts

/-- The listener is given the creations of two templates, the new spelling of the first, and the
final state and the removal of the second, which leaves one. -/
theorem listener_follows_respelled :
    node.lists = .empty ∧ (∀ l ∈ node.bus.listeners, l.id < node.bus.issued) ∧
    (∀ d ∈ heard.2, d.lost = 0) ∧
    (Cache.eventsOf .template (heard.2.flatMap (·.events))).map Event.name =
      ["template-created", "template-created", "template-updated", "template-updated",
        "template-deleted"] ∧
    (Cache.eventsOf .template (heard.2.flatMap (·.events))).foldl (Event.follow .template) [] =
      [Template.new "LOBBY"] := by
  have hlost : ∀ d ∈ heard.2, d.lost = 0 := by decide
  have hissued : ∀ l ∈ node.bus.listeners, l.id < node.bus.issued :=
    fun _ hl => absurd hl List.not_mem_nil
  obtain ⟨n', hnode', hmirrors⟩ :=
    listener_follows_lists (w := [node]) (i := 0) rfl rfl hissued parts hlost
  have hvalues : n'.values .template = [Template.new "LOBBY"] := by
    have hend : (heard.1.world[0]?).map (·.values .template) = some [Template.new "LOBBY"] := rfl
    rw [show heard.1.world[0]? = some n' from hnode'] at hend
    exact Option.some.inj hend
  exact ⟨rfl, hissued, hlost, rfl, (hmirrors .template).contents.trans hvalues⟩

end Audience

end Traffic

end CloudRoster
