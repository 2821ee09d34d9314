import CloudRoster.Proofs.Node.Burst
import CloudRoster.Proofs.Node.Stores
import CloudRoster.Proofs.Storage.Refusals

/-!
# Replies

Every message is answered, and what is asked for in vain leaves the node as it is. A message about a
value passes five checks in turn: the list is open, the type is known, the payload is a value of it,
the type is that of the list, and no group that has services is to be deleted. Only then a change
is carried out, the managed change of `World.perform` for a change from a peer.
-/

namespace CloudRoster

open Cache (Registry)
open Storage (Store)

/-! ## The types of payloads -/

namespace ValueTypes

theorem decode_of_unknown {valueType : String} (h : ∀ k : Kind, k.typeName ≠ valueType)
    (jsonData : String) : all.decode valueType jsonData = .error (.unknownType valueType) := by
  have hfind : all.find? valueType = none := by
    refine List.find?_eq_none.2 fun k _ => ?_
    simpa using h k
  unfold decode
  rw [hfind]

theorem decode_of_malformed {k : Kind} {jsonData : String} {f : Json.Fault}
    (h : k.codec.decode jsonData = .error f) :
    all.decode k.typeName jsonData = .error (.malformedPayload k.typeName f.message) := by
  unfold decode
  rw [find?_typeName (mem_all k)]
  simp only [h]

theorem decode_of_value {k : Kind} {jsonData : String} {v : k.Val}
    (h : k.codec.decode jsonData = .ok v) : all.decode k.typeName jsonData = .ok ⟨k, v⟩ := by
  unfold decode
  rw [find?_typeName (mem_all k)]
  simp only [h]

end ValueTypes

/-! ## Lists under their own names -/

/-- Lists are open under their own names only. -/
def Cache.Registry.Truthful (r : Registry Kind) : Prop :=
  ∀ name k, r.find? name = some k → k.listName = name

namespace Cache.Registry.Truthful

variable {r : Registry Kind}

theorem of_mem (h : ∀ e ∈ r.entries, e.2.listName = e.1) : r.Truthful := by
  intro name k hfind
  obtain ⟨⟨given, k'⟩, he, hk⟩ := Option.map_eq_some_iff.1 hfind
  cases hk
  have hname : given = name := by simpa using List.find?_some he
  rw [← hname]
  exact h _ (List.mem_of_find?_eq_some he)

/-- A list that is closed leaves the others under their names. -/
theorem unregister (h : r.Truthful) (name : String) : (r.unregister name).1.Truthful := by
  intro other k hfind
  obtain ⟨e, he, hk⟩ := Option.map_eq_some_iff.1 hfind
  have hother : other ≠ name := by
    rintro rfl
    have hkept := (List.mem_filter.1 (List.mem_of_find?_eq_some he)).2
    have hname : e.1 = other := by simpa using List.find?_some he
    simp [hname] at hkept
  have hsame : (r.entries.filter (·.1 ≠ name)).find? (·.1 = other) =
      r.entries.find? (·.1 = other) := by
    rw [List.find?_filter]
    refine congrArg (List.find? · r.entries) (funext fun x => ?_)
    by_cases hx : x.1 = other
    · simp [hx, hother]
    · simp [hx]
  refine h other k ?_
  unfold find?
  rw [← hsame]
  exact hfind

/-- A list that is opened again is opened under its name. -/
theorem register (h : r.Truthful) {k : Kind} {r' : Registry Kind}
    (hregister : r.register k.listName k = .ok r') : r'.Truthful := by
  unfold Registry.register at hregister
  split at hregister
  · cases hregister
  · cases hregister
    intro name j hfind
    unfold find? at hfind
    rw [List.find?_append, Option.map_or] at hfind
    rcases Option.or_eq_some_iff.1 hfind with hold | ⟨-, hnew⟩
    · exact h name j hold
    · obtain ⟨e, he, rfl⟩ := Option.map_eq_some_iff.1 hnew
      have hname : e.1 = name := by simpa using List.find?_some he
      rw [List.mem_singleton.1 (List.mem_of_find?_eq_some he)] at hname ⊢
      exact hname

end Cache.Registry.Truthful

namespace Node

variable {n : Node} {u : CacheUpdate}

theorem Reachable.truthful (h : n.Reachable) : n.registry.Truthful := by
  rw [h.registry_eq]
  exact Registry.Truthful.of_mem (by decide)

/-! ## What is asked for in vain -/

theorem receive_of_ignored (h : n.requestedChange u = .ok none) :
    n.receive (.cacheUpdate u) = (n, .ack) := by
  unfold receive arrival
  simp only [h]

theorem receive_of_rejected {e : SyncError} (h : n.requestedChange u = .error e) :
    n.receive (.cacheUpdate u) = (n, replyTo (.error e)) := by
  unfold receive arrival
  simp only [h]

theorem receive_of_requested {c : Change} (h : n.requestedChange u = .ok (some c)) :
    n.receive (.cacheUpdate u) = ((n.carryOut c).1, replyTo (n.carryOut c).2) := by
  unfold receive arrival
  simp only [h]

theorem requestedChange_of_closed (h : n.registry.find? u.listName = none) :
    n.requestedChange u = .ok none := by
  unfold requestedChange
  rw [h]

theorem requestedChange_of_undecoded {list : Kind} {e : SyncError}
    (hlist : n.registry.find? u.listName = some list)
    (h : ValueTypes.all.decode u.valueType u.jsonData = .error e) :
    n.requestedChange u = .error e := by
  unfold requestedChange
  rw [hlist]
  simp only [h]
  rfl

theorem requestedChange_of_decoded {list k : Kind} {v : k.Val}
    (hlist : n.registry.find? u.listName = some list)
    (h : ValueTypes.all.decode u.valueType u.jsonData = .ok ⟨k, v⟩) :
    n.requestedChange u = if k = list then .ok (some (.asked k v u.action))
      else .error (.typeMismatch u.listName list.typeName u.valueType) := by
  unfold requestedChange
  rw [hlist]
  simp only [h]
  rfl

/-! ## Changes that are carried out -/

/-- A message asks for the deletion of a group that has services. -/
def HoldsBack (n : Node) (u : CacheUpdate) : Value → Prop
  | ⟨.group, g⟩ =>
    u.listName = "group-cache" ∧ u.action = .delete ∧ n.servicesOfGroup g.name ≠ []
  | _ => False

/-- What a change that a peer asks for comes to, and how it is answered. -/
structure Applied (n : Node) (c : Change) (n' : Node) (reply : Message) : Prop where
  /-- It is what `World.perform` makes of the change, and the reply is to its result. -/
  performed : ∃ result, reply = replyTo result ∧ ∀ (w : World) (i : Nat), w[i]? = some n →
    w.perform i c = (w.update i n', result)
  /-- The list of the value takes the change in. -/
  addressed : n'.lists.get c.kind = c.applyTo (n.lists.get c.kind)
  /-- The store of the list, if there is one, is told. -/
  stored : n'.store? c.kind = (n.store? c.kind).map fun s => (heed s c).1
  /-- The other lists stay as they are, and so do their stores. -/
  others : ∀ j, j ≠ c.kind → n'.lists.get j = n.lists.get j ∧ n'.store? j = n.store? j
  /-- The peers are told nothing. -/
  handed : n'.handed = n.handed
  /-- The reply tells of a failure of the store. -/
  refused : ∀ s e, n.store? c.kind = some s → (heed s c).2 = .error e →
    reply = .error ⟨99, e.message⟩
  /-- If the store did not fail, the change is acknowledged. -/
  acknowledged : (∀ s e, n.store? c.kind = some s → (heed s c).2 ≠ .error e) → reply = .ack

/-- A change from a peer has no messages for the peers, so `World.perform` does what
`Node.carryOut` does. -/
theorem perform_of_packet {w : World} {i : Nat} (hnode : w[i]? = some n) {c : Change}
    (hpacket : c.fromPacket = true) :
    w.perform i c = (w.update i (n.carryOut c).1, (n.carryOut c).2) := by
  unfold World.perform carryOut
  simp only [hnode]
  cases hguard : n.guard c with
  | error e =>
    simp only [commit_of_guard_error hguard]
    obtain ⟨hi, rfl⟩ := List.getElem?_eq_some_iff.1 hnode
    exact congrArg (·, _) (List.set_getElem_self hi).symm
  | ok allowed =>
    obtain ⟨bus, hcommit⟩ := commit_of_guard hguard
    have houtbox : n.outbox c = [] := by
      unfold outbox
      simp [hpacket]
    rw [houtbox] at hcommit
    simp only [hcommit, World.spread, World.getElem?_update_self hnode, World.update_update]

/-- The commit of a change is followed by the word to its store. -/
theorem carryOut_of_guard {c : Change} (hguard : n.guard c = .ok ()) :
    ∃ bus, n.carryOut c = persist { n with
      lists := n.lists.set c.kind (c.applyTo (n.lists.get c.kind)), bus := bus } c (.ok ()) := by
  obtain ⟨bus, hcommit⟩ := commit_of_guard hguard
  refine ⟨bus, ?_⟩
  unfold carryOut
  rw [hcommit]

theorem applied_carryOut {c : Change} (hmanaged : c.managed = true) (hpacket : c.fromPacket = true)
    (hguard : n.guard c = .ok ()) : n.Applied c (n.carryOut c).1 (replyTo (n.carryOut c).2) := by
  obtain ⟨bus, hcarried⟩ := carryOut_of_guard hguard
  let changed : Node := { n with
    lists := n.lists.set c.kind (c.applyTo (n.lists.get c.kind)), bus := bus }
  have hcarried : n.carryOut c = changed.persist c (.ok ()) := hcarried
  obtain ⟨groups, templates, hpersist⟩ := changed.persist_eq c (.ok ())
  have hstores : ∀ j, (changed.persist c (.ok ())).1.store? j =
      if j = c.kind then (n.store? j).map fun s => (heed s c).1 else n.store? j := by
    intro j
    have htold : (c.managed && keptLocally (.ok ())) = true := by rw [hmanaged]; rfl
    have hsame : changed.store? j = n.store? j := by cases j <;> rfl
    rw [store?_persist, hsame]
    simp only [htold, and_true]
  refine ⟨⟨_, rfl, fun w i hnode => perform_of_packet hnode hpacket⟩, ?_, ?_, ?_, ?_, ?_, ?_⟩
  · rw [hcarried, hpersist]
    exact Lists.get_set_self ..
  · rw [hcarried, hstores, if_pos rfl]
  · intro j hj
    refine ⟨?_, ?_⟩
    · rw [hcarried, hpersist]
      exact Lists.get_set_of_ne _ hj _
    · rw [hcarried, hstores, if_neg hj]
  · rw [hcarried, hpersist]
  · intro s e hstore hfailed
    have hchanged : changed.store? c.kind = some s := hstore
    rw [hcarried, persist_of_store hmanaged rfl hchanged, hfailed]
    obtain ⟨reason, rfl⟩ := Store.obey_error hfailed
    rfl
  · intro hnofail
    rw [hcarried]
    cases hstore : n.store? c.kind with
    | none =>
      rw [persist_of_no_store (n := changed) hstore]
      rfl
    | some s =>
      rw [persist_of_store (n := changed) hmanaged rfl hstore]
      cases hobeyed : (heed s c).2 with
      | error e => exact absurd hobeyed (hnofail s e hstore)
      | ok done => rfl

/-- The guard of a message that passes the other checks. -/
theorem guard_holdsBack {list : Kind} (htruthful : n.registry.Truthful)
    (hlist : n.registry.find? u.listName = some list) (v : list.Val) :
    (n.HoldsBack u ⟨list, v⟩ → ∃ g : Group, (⟨list, v⟩ : Value) = ⟨.group, g⟩ ∧
        n.guard (.asked list v u.action) =
          .error (.groupInUse g.name (n.servicesOfGroup g.name).length)) ∧
      (¬ n.HoldsBack u ⟨list, v⟩ → n.guard (.asked list v u.action) = .ok ()) := by
  cases list with
  | player | template | wrapper | service => exact ⟨False.elim, fun _ => rfl⟩
  | group =>
    have hname : "group-cache" = u.listName := htruthful _ _ hlist
    cases haction : u.action with
    | update =>
      refine ⟨fun h => ?_, fun _ => rfl⟩
      exact absurd (haction.symm.trans h.2.1) (by decide)
    | delete =>
      refine ⟨fun h => ⟨v, rfl, ?_⟩, fun h => ?_⟩
      · obtain ⟨s, members, hmembers⟩ := List.exists_cons_of_ne_nil h.2.2
        unfold guard
        simp only [hmembers]
        rfl
      · have hnone : n.servicesOfGroup v.name = [] := by
          by_contra hsome
          exact h ⟨hname.symm, haction, hsome⟩
        unfold guard
        simp only [hnone]
        rfl

end Node

/-- Every message is answered, and one that asks for nothing, or in vain, leaves the node as it is.
A message about a value is acknowledged if its list is not open, and otherwise refused for the first
of these reasons that applies: its type is unknown, its payload is no value of the type, the list is
for another type, the group that it asks to delete has services. If none applies, the value is of
the kind of the list, which takes in the managed change. -/
theorem message_answered {n : Node} (htruthful : n.registry.Truthful) :
    (∀ h, n.receive (.hello h) = (n, .helloAck (n.greet h))) ∧
    (∀ k, n.receive (.ping k) = (n, .pong k)) ∧
    (∀ m, (m = .ack ∨ (∃ h, m = .helloAck h) ∨ (∃ k, m = .pong k) ∨ ∃ e, m = .error e) →
      n.receive m = (n, .error ⟨99, "unexpected message"⟩)) ∧
    (∀ u, n.registry.find? u.listName = none → n.receive (.cacheUpdate u) = (n, .ack)) ∧
    ∀ u list, n.registry.find? u.listName = some list →
      ((∀ k : Kind, k.typeName ≠ u.valueType) → n.receive (.cacheUpdate u) =
        (n, .error ⟨404, "unknown value type: " ++ u.valueType⟩)) ∧
      ∀ k : Kind, k.typeName = u.valueType →
        (∀ f, k.codec.decode u.jsonData = .error f → n.receive (.cacheUpdate u) =
          (n, .error ⟨400, "malformed payload for " ++ u.valueType ++ ": " ++ f.message⟩)) ∧
        ∀ v, k.codec.decode u.jsonData = .ok v →
          (u.valueType ≠ list.typeName → n.receive (.cacheUpdate u) =
            (n, .error ⟨409, "cache list " ++ u.listName ++ " holds " ++ list.typeName ++
              ", got " ++ u.valueType⟩)) ∧
          (u.valueType = list.typeName →
            (n.HoldsBack u ⟨k, v⟩ → ∃ g : Group, (⟨k, v⟩ : Value) = ⟨.group, g⟩ ∧
              n.receive (.cacheUpdate u) = (n, .error ⟨423, "cannot delete group " ++ g.name ++
                " while " ++ toString (n.servicesOfGroup g.name).length ++
                " service(s) are registered"⟩)) ∧
            (¬ n.HoldsBack u ⟨k, v⟩ → k = list ∧ n.Applied ⟨k, v, u.action, true, true⟩
              (n.receive (.cacheUpdate u)).1 (n.receive (.cacheUpdate u)).2)) := by
  refine ⟨fun _ => rfl, fun _ => rfl, ?_, ?_, ?_⟩
  · rintro m (rfl | ⟨h, rfl⟩ | ⟨k, rfl⟩ | ⟨e, rfl⟩) <;> rfl
  · intro u hclosed
    exact Node.receive_of_ignored (Node.requestedChange_of_closed hclosed)
  · intro u list hlist
    refine ⟨fun hunknown => ?_, fun k hk => ?_⟩
    · exact Node.receive_of_rejected (Node.requestedChange_of_undecoded hlist
        (ValueTypes.decode_of_unknown hunknown u.jsonData))
    · refine ⟨fun f hmalformed => ?_, fun v hv => ?_⟩
      · have hundecoded := ValueTypes.decode_of_malformed hmalformed
        rw [hk] at hundecoded
        exact Node.receive_of_rejected (Node.requestedChange_of_undecoded hlist hundecoded)
      · have hdecoded := ValueTypes.decode_of_value hv
        rw [hk] at hdecoded
        have hasked := Node.requestedChange_of_decoded hlist hdecoded
        refine ⟨fun hother => ?_, fun hsame => ?_⟩
        · have hne : k ≠ list := by
            rintro rfl
            exact hother hk.symm
          rw [if_neg hne] at hasked
          exact Node.receive_of_rejected hasked
        · have heq : k = list := Kind.typeName_injective (hk.trans hsame)
          subst heq
          rw [if_pos rfl] at hasked
          have hreceive := Node.receive_of_requested hasked
          have hguard := Node.guard_holdsBack htruthful hlist v
          refine ⟨fun hheld => ?_, fun hfree => ⟨rfl, ?_⟩⟩
          · obtain ⟨g, hg, herror⟩ := hguard.1 hheld
            refine ⟨g, hg, ?_⟩
            rw [hreceive, Node.carryOut, Node.commit_of_guard_error herror]
            rfl
          · rw [hreceive]
            exact Node.applied_carryOut rfl rfl (hguard.2 hfree)

/-! ### Messages to a node that holds a service -/

namespace NodeWithService

def service : Service := .new "lobby" 1 25565

def group : Group := .new "Lobby" .lobby

def template : Template := .new "Lobby"

/-- A new node that has put the service into its list. -/
def node : Node :=
  ((Node.new .standard .none none none).carryOut ⟨.service, service, .update, false, true⟩).1.hand
    (.cacheUpdate (.about .service service .update))

theorem reachable_node : node.Reachable := by
  refine ⟨[.new .standard .none none none],
    [.start 0 (.change ⟨.service, service, .update, false, true⟩), .poll 0], 0, ?_, rfl⟩
  intro m hm
  exact ⟨_, _, _, _, List.mem_singleton.1 hm⟩

/-- A list that it does not have, a type that it does not know, a template for the list of groups,
the deletion of a group that has the service, and a template that is taken in. -/
theorem messages_to_node : node.Reachable ∧
    node.receive (.cacheUpdate ⟨"world-cache", "world", "?", .delete⟩) = (node, .ack) ∧
    node.receive (.cacheUpdate ⟨"group-cache", "world", "?", .update⟩) =
      (node, .error ⟨404, "unknown value type: world"⟩) ∧
    node.receive (.cacheUpdate
        ⟨"group-cache", "template", Template.codec.encode template, .update⟩) =
      (node, .error ⟨409, "cache list group-cache holds service-group, got template"⟩) ∧
    node.receive (.cacheUpdate (.about .group group .delete)) =
      (node, .error ⟨423, "cannot delete group Lobby while 1 service(s) are registered"⟩) ∧
    (node.receive (.cacheUpdate (.about .template template .update))).2 = .ack ∧
    (node.receive (.cacheUpdate (.about .template template .update))).1.cached .template template =
      some template := by
  obtain ⟨-, -, -, hclosed, hopen⟩ := message_answered reachable_node.truthful
  have htemplate : Template.codec.decode (Template.codec.encode template) = .ok template :=
    Template.faithful_codec.decode_encode template
  refine ⟨reachable_node, hclosed _ rfl, ?_, ?_, ?_, ?_⟩
  · exact (hopen _ .group rfl).1 fun k => by cases k <;> decide
  · exact (((hopen ⟨"group-cache", "template", Template.codec.encode template, .update⟩ .group
      rfl).2 .template rfl).2 template htemplate).1 (by decide)
  · have hgroup := ((hopen (.about .group group .delete) .group rfl).2 .group rfl).2 group
      (Kind.faithful_codec .group |>.decode_encode group)
    obtain ⟨g, hg, hrefused⟩ := (hgroup.2 rfl).1 ⟨rfl, rfl, by decide⟩
    cases hg
    exact hrefused
  · have happlied := (((hopen (.about .template template .update) .template rfl).2 .template
      rfl).2 template htemplate).2 rfl |>.2 not_false
    obtain ⟨-, happlied⟩ := happlied
    have hstoreless : node.store? .template = none := rfl
    refine ⟨happlied.acknowledged fun s e hstore => ?_, ?_⟩
    · exact absurd (hstoreless.symm.trans hstore) (by simp)
    · unfold Node.cached
      rw [happlied.addressed]
      exact Change.find?_applyTo_self (reachable_node.tidy .template)

end NodeWithService

end CloudRoster
