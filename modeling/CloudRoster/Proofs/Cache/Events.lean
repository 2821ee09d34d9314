import CloudRoster.Proofs.Cache.Sequential

/-!
# What events tell

`Event.follow` keeps the values of a list by its events alone: a creation puts its value behind the
others, an update replaces the value where it stands, a removal takes it away, and every other event
changes nothing. The events of a commit *mirror* it (`Event.Mirrors`): followed from the values
before the commit they lead to the values after it, no creation is of a key that is there already,
and no update or removal is of one that is not.
-/

namespace CloudRoster

open Cache (CacheList.delete_ofKind CacheList.update_ofKind Call Commit Entries Envelope Model
  Rules eventsOfRemoval eventsOfUpdate)
open Cache.OrderedMap (get? get?_eq_none_iff map_identify_replace mem_of_get?_eq_some put remove
  remove_of_get?_eq_none remove_replace)

namespace Event

/-! ## Reading single events -/

/-- The value that an event carries. -/
def value : Event → Value
  | playerRegistered p | playerUpdated p | playerServerConnect p _ _ | playerServerConnected p _
  | playerUnregistered p => ⟨.player, p⟩
  | groupCreated g | groupUpdated g | groupDeleted g => ⟨.group, g⟩
  | templateCreated t | templateUpdated t | templateDeleted t => ⟨.template, t⟩
  | wrapperRegistered w | wrapperUpdated w | wrapperUnregistered w => ⟨.wrapper, w⟩
  | serviceRegistered s | serviceUpdated s | serviceStateChanged s _ _ | serviceConnected s
  | serviceUnregistered s => ⟨.service, s⟩

/-- Whether the event tells that a value has taken the place of the cached one. -/
def isUpdate : Event → Bool
  | playerUpdated _ | groupUpdated _ | templateUpdated _ | wrapperUpdated _ | serviceUpdated _ =>
    true
  | _ => false

/-- Whether the event is none of a creation, an update or a removal: it details one of those. -/
def isDetail (e : Event) : Bool := !(e.isCreation || e.isUpdate || e.isRemoval)

/-- The values of a list after an event, from those before it. -/
def follow (k : Kind) (vs : List k.Val) (e : Event) : List k.Val :=
  match Value.ofKind? k e.value with
  | none => vs
  | some v =>
    if e.isCreation then vs ++ [v]
    else if e.isUpdate then vs.map fun u => if k.key u = k.key v then v else u
    else if e.isRemoval then remove k.key vs (k.key v)
    else vs

/-- An event about a value of the kind fits values: a creation is of a key that they do not have, an
update or a removal of one that they have. -/
structure Fits (k : Kind) (vs : List k.Val) (e : Event) (v : k.Val) : Prop where
  carries : e.value = ⟨k, v⟩
  fresh : e.isCreation = true → k.key v ∉ vs.map k.key
  known : e.isUpdate = true ∨ e.isRemoval = true → k.key v ∈ vs.map k.key

/-- Following the events leads from the values before to the values after, and each event fits the
values that it is followed from. -/
structure Mirrors (k : Kind) (vs : List k.Val) (es : List Event) (vs' : List k.Val) : Prop where
  contents : es.foldl (follow k) vs = vs'
  fits : ∀ before e after, es = before ++ e :: after →
    ∃ v, Fits k (before.foldl (follow k) vs) e v

variable {k : Kind} {vs vs' vs'' : List k.Val} {es es' : List Event} {e : Event} {v : k.Val}

/-! ### What else an event is not -/

theorem isCreation_of_isUpdate (h : e.isUpdate = true) : e.isCreation = false := by
  cases e with
  | playerUpdated | groupUpdated | templateUpdated | wrapperUpdated | serviceUpdated => rfl
  | _ => cases h

theorem isCreation_of_isRemoval (h : e.isRemoval = true) : e.isCreation = false := by
  cases e with
  | playerUnregistered | groupDeleted | templateDeleted | wrapperUnregistered
  | serviceUnregistered => rfl
  | _ => cases h

theorem isUpdate_of_isRemoval (h : e.isRemoval = true) : e.isUpdate = false := by
  cases e with
  | playerUnregistered | groupDeleted | templateDeleted | wrapperUnregistered
  | serviceUnregistered => rfl
  | _ => cases h

theorem isDetail_iff : e.isDetail = true ↔
    e.isCreation = false ∧ e.isUpdate = false ∧ e.isRemoval = false := by
  simp [isDetail, and_assoc]

/-! ### What is known after an event -/

theorem follow_of_creation (hvalue : e.value = ⟨k, v⟩) (h : e.isCreation = true) :
    follow k vs e = vs ++ [v] := by
  unfold follow
  rw [hvalue, Value.ofKind?_self]
  exact if_pos h

theorem follow_of_update (hvalue : e.value = ⟨k, v⟩) (h : e.isUpdate = true) :
    follow k vs e = vs.map fun u => if k.key u = k.key v then v else u := by
  unfold follow
  rw [hvalue, Value.ofKind?_self]
  simp [isCreation_of_isUpdate h, h]

theorem follow_of_removal (hvalue : e.value = ⟨k, v⟩) (h : e.isRemoval = true) :
    follow k vs e = remove k.key vs (k.key v) := by
  unfold follow
  rw [hvalue, Value.ofKind?_self]
  simp [isCreation_of_isRemoval h, isUpdate_of_isRemoval h, h]

theorem follow_of_detail (h : e.isDetail = true) : follow k vs e = vs := by
  obtain ⟨hcreation, hupdate, hremoval⟩ := isDetail_iff.1 h
  unfold follow
  split
  · rfl
  · simp [hcreation, hupdate, hremoval]

/-! ### Which events fit -/

theorem fits_of_creation (hvalue : e.value = ⟨k, v⟩) (h : e.isCreation = true)
    (hfresh : k.key v ∉ vs.map k.key) : Fits k vs e v := by
  refine ⟨hvalue, fun _ => hfresh, ?_⟩
  rintro (hupdate | hremoval)
  · rw [isCreation_of_isUpdate hupdate] at h
    cases h
  · rw [isCreation_of_isRemoval hremoval] at h
    cases h

theorem fits_of_known (hvalue : e.value = ⟨k, v⟩) (h : e.isCreation = false)
    (hknown : k.key v ∈ vs.map k.key) : Fits k vs e v := by
  refine ⟨hvalue, fun hcreation => ?_, fun _ => hknown⟩
  rw [h] at hcreation
  cases hcreation

theorem fits_of_detail (hvalue : e.value = ⟨k, v⟩) (h : e.isDetail = true) : Fits k vs e v := by
  obtain ⟨hcreation, hupdate, hremoval⟩ := isDetail_iff.1 h
  exact ⟨hvalue, by simp [hcreation], by simp [hupdate, hremoval]⟩

/-! ## Reading many events -/

theorem Mirrors.nil : Mirrors k vs [] vs :=
  ⟨rfl, fun before e after h => absurd h (by simp)⟩

theorem Mirrors.single (h : Fits k vs e v) :
    Mirrors k vs [e] (follow k vs e) := by
  refine ⟨rfl, fun before e' after heq => ?_⟩
  obtain ⟨rfl, rfl, -⟩ : before = [] ∧ e = e' ∧ after = [] := by
    simpa [eq_comm, List.append_eq_singleton_iff] using heq
  exact ⟨v, h⟩

theorem Mirrors.append (h : Mirrors k vs es vs') (h' : Mirrors k vs' es' vs'') :
    Mirrors k vs (es ++ es') vs'' := by
  refine ⟨?_, fun before e after heq => ?_⟩
  · rw [List.foldl_append, h.contents, h'.contents]
  · rcases List.append_eq_append_iff.1 heq with ⟨mid, rfl, hlater⟩ | ⟨mid, hearlier, hrest⟩
    · -- the event is among the later ones
      rw [List.foldl_append, h.contents]
      exact h'.fits mid e after hlater
    · cases mid with
      | nil =>
        obtain rfl : es = before := hearlier.trans (List.append_nil _)
        rw [h.contents]
        exact h'.fits [] e after hrest.symm
      | cons e' mid =>
        obtain ⟨rfl, -⟩ := List.cons.inj hrest
        exact h.fits before e mid hearlier

/-- Following details changes nothing. -/
theorem mirrors_details (h : ∀ e ∈ es, e.value = ⟨k, v⟩ ∧ e.isDetail = true) :
    Mirrors k vs es vs := by
  induction es with
  | nil => exact .nil
  | cons e es ih =>
    obtain ⟨hvalue, hdetail⟩ := h e List.mem_cons_self
    have hsingle := Mirrors.single (fits_of_detail hvalue hdetail : Fits k vs e v)
    rw [follow_of_detail hdetail] at hsingle
    exact hsingle.append (ih fun e he => h e (List.mem_cons_of_mem _ he))

/-! ## The events of a change -/

theorem exists_creation (k : Kind) (v : k.Val) :
    ∃ e, eventsOfUpdate k v none = [e] ∧ e.value = ⟨k, v⟩ ∧ e.isCreation = true := by
  cases k <;> exact ⟨_, rfl, rfl, rfl⟩

/-- The events for a value that replaces its cached one are one update and details. -/
theorem exists_update (k : Kind) (v old : k.Val) :
    ∃ e details, eventsOfUpdate k v (some old) = e :: details ∧ e.value = ⟨k, v⟩ ∧
      e.isUpdate = true ∧ ∀ d ∈ details, d.value = ⟨k, v⟩ ∧ d.isDetail = true := by
  cases k with
  | player =>
    refine ⟨_, _, List.singleton_append, rfl, rfl, fun d hd => ?_⟩
    cases hserver : v.serverName with
    | none => simp [hserver] at hd
    | some server =>
      simp only [hserver, List.mem_append, List.mem_ite_nil_left, List.mem_ite_nil_right,
        List.mem_singleton] at hd
      rcases hd with ⟨-, rfl⟩ | ⟨-, rfl⟩
      · exact ⟨rfl, rfl⟩
      · exact ⟨rfl, rfl⟩
  | service =>
    refine ⟨_, _, (List.append_assoc ..).trans List.singleton_append, rfl, rfl, fun d hd => ?_⟩
    simp only [List.mem_append, List.mem_ite_nil_left, List.mem_ite_nil_right,
      List.mem_singleton] at hd
    rcases hd with ⟨-, rfl⟩ | ⟨-, rfl⟩
    · exact ⟨rfl, rfl⟩
    · exact ⟨rfl, rfl⟩
  | _ => exact ⟨_, _, rfl, rfl, rfl, fun d hd => absurd hd List.not_mem_nil⟩

theorem exists_removal (k : Kind) (v : k.Val) :
    ∃ e, eventsOfRemoval k v = [e] ∧ e.value = ⟨k, v⟩ ∧ e.isRemoval = true := by
  cases k <;> exact ⟨_, rfl, rfl, rfl⟩

variable (v)

theorem mirrors_creation (h : k.key v ∉ vs.map k.key) :
    Mirrors k vs (eventsOfUpdate k v none) (vs ++ [v]) := by
  obtain ⟨e, hevents, hvalue, hcreation⟩ := exists_creation k v
  rw [hevents, ← follow_of_creation hvalue hcreation]
  exact .single (fits_of_creation hvalue hcreation h)

theorem mirrors_update (h : k.key v ∈ vs.map k.key) (old : k.Val) :
    Mirrors k vs (eventsOfUpdate k v (some old))
      (vs.map fun u => if k.key u = k.key v then v else u) := by
  obtain ⟨e, details, hevents, hvalue, hupdate, hdetails⟩ := exists_update k v old
  have hfits : Fits k vs e v := fits_of_known hvalue (isCreation_of_isUpdate hupdate) h
  rw [hevents, ← follow_of_update hvalue hupdate]
  exact (Mirrors.single hfits).append (mirrors_details hdetails)

theorem mirrors_removal (h : k.key v ∈ vs.map k.key) :
    Mirrors k vs (eventsOfRemoval k v) (remove k.key vs (k.key v)) := by
  obtain ⟨e, hevents, hvalue, hremoval⟩ := exists_removal k v
  rw [hevents, ← follow_of_removal hvalue hremoval]
  exact .single (fits_of_known hvalue (isCreation_of_isRemoval hremoval) h)

/-! ## The events of a commit -/

theorem mirrors_put : Mirrors k vs (eventsOfUpdate k v (get? k.key vs (k.key v)))
    (put k.key vs v) := by
  unfold put
  cases hcopy : get? k.key vs (k.key v) with
  | none => exact mirrors_creation v (get?_eq_none_iff.1 hcopy)
  | some old => exact mirrors_update v (mem_of_get?_eq_some hcopy) old

/-- The events of a call mirror the contents of the model before and after it. -/
theorem mirrors_call (spreads : Bool) (m : Model k) (c : Call k.Val) :
    Mirrors k m.contents (c.events (m.entry c.value)) (m.step spreads c).contents := by
  obtain ⟨v, action, fromPacket⟩ := c
  cases action with
  | update => exact mirrors_put v
  | delete =>
    show Mirrors k m.contents (Call.events ⟨v, .delete, fromPacket⟩ (m.entry v))
      (remove k.key m.contents (k.key v))
    cases hcopy : m.entry v with
    | none =>
      rw [remove_of_get?_eq_none hcopy]
      exact .nil
    | some old =>
      -- the removal is told of after the final state of the value
      have hmem : k.key v ∈ m.contents.map k.key := mem_of_get?_eq_some hcopy
      have hupdated : k.key v ∈
          (m.contents.map fun u => if k.key u = k.key v then v else u).map k.key := by
        rw [map_identify_replace]
        exact hmem
      have hremoval := mirrors_removal v hupdated
      rw [remove_replace] at hremoval
      exact (mirrors_update v hmem old).append hremoval

variable {v}

/-- The events of a commit mirror the values of tidy entries before and after it. -/
theorem mirrors_commit {es : Entries k.Key k.Val} (h : es.Tidy k.key) {spreads fromPacket : Bool}
    {action : Action} {c : Commit k.Key k.Val}
    (hcommit : (Rules.ofKind k).commit spreads fromPacket es v action = .ok c) :
    Mirrors k es.values (c.events.map (·.event)) c.entries.values := by
  let m : Model k := ⟨es.values, [], []⟩
  let call : Call k.Val := ⟨v, action, fromPacket⟩
  have hnodup : (m.contents.map k.key).Nodup := h.map_values ▸ h.nodup
  -- the commit is the one that the model of the list has
  obtain ⟨outbox, hmodel⟩ :
      ∃ outbox, c = ⟨Entries.keyedBy k.key (m.step spreads call).contents,
        (call.events (m.entry v)).map fun e => ⟨k.listName, fromPacket, e⟩, outbox⟩ := by
    rw [h.eq_keyedBy] at hcommit
    cases action with
    | update =>
      exact ⟨_, Except.ok.inj (hcommit.symm.trans
        (CacheList.update_ofKind spreads hnodup v fromPacket))⟩
    | delete =>
      exact ⟨_, Except.ok.inj (hcommit.symm.trans
        (CacheList.delete_ofKind spreads hnodup v fromPacket))⟩
  rw [hmodel, Entries.values_keyedBy, List.map_map]
  have hevents : (call.events (m.entry v)).map
      ((·.event) ∘ fun e => (⟨k.listName, fromPacket, e⟩ : Envelope)) = call.events (m.entry v) :=
    List.map_id _
  rw [hevents]
  exact mirrors_call spreads m call

end Event

end CloudRoster
