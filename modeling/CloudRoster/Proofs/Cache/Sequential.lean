import CloudRoster.Cache.CacheList
import CloudRoster.Proofs.Cache.OrderedMap
import CloudRoster.Proofs.Cloud.Messages

/-!
# A list under operations one after another

What a list does is compared with a model that knows nothing of entries, commits and rounds: an
ordered map of values, the events published and the messages handed out. An operation changes the
map as its name says, publishes the events of the change, and hands out a message for each state
that the peers are to learn of. The removal of a value that is not there does nothing.

If every round delivers completely, a list and the model stay the same however long the sequence of
operations is (`run_eq_model`).
-/

namespace CloudRoster.Cache

/-- An operation on a list of values. -/
structure Call (V : Type) where
  value : V
  action : Action
  /-- Whether the change came from a peer. -/
  fromPacket : Bool
  deriving Repr, DecidableEq

namespace Call

variable {k : Kind}

/-- The events of an operation that finds an entry for its value, or none. -/
def events (c : Call k.Val) (entry : Option k.Val) : List Event :=
  match c.action, entry with
  | .update, entry => eventsOfUpdate k c.value entry
  | .delete, some cached => eventsOfUpdate k c.value (some cached) ++ eventsOfRemoval k c.value
  | .delete, none => []

/-- What peers are told of with an operation that finds an entry for its value, or none. -/
def told (c : Call k.Val) (entry : Option k.Val) : List Action :=
  match c.action, entry with
  | .update, _ => [.update]
  | .delete, some _ => [.update, .delete]
  | .delete, none => []

/-- The messages of an operation: none if the change came from a peer or the list does not
spread. -/
def messages (spreads : Bool) (c : Call k.Val) (entry : Option k.Val) : List CacheUpdate :=
  if c.fromPacket || !spreads then [] else (c.told entry).map (CacheUpdate.about k c.value)

end Call

/-- The model of a list. -/
structure Model (k : Kind) where
  /-- The values, in order. -/
  contents : List k.Val
  published : List Envelope
  handed : List CacheUpdate

namespace Model

variable {k : Kind}

/-- A model without values. -/
def empty (k : Kind) : Model k := ⟨[], [], []⟩

/-- The entry for a value. -/
def entry (m : Model k) (v : k.Val) : Option k.Val := OrderedMap.get? k.key m.contents (k.key v)

/-- Carries out an operation. -/
def step (spreads : Bool) (m : Model k) (c : Call k.Val) : Model k where
  contents := match c.action with
    | .update => OrderedMap.put k.key m.contents c.value
    | .delete => OrderedMap.remove k.key m.contents (k.key c.value)
  published := m.published ++
    (c.events (m.entry c.value)).map fun e => ⟨k.listName, c.fromPacket, e⟩
  handed := m.handed ++ c.messages spreads (m.entry c.value)

/-- Carries out operations one after another. -/
def run (spreads : Bool) (m : Model k) (calls : List (Call k.Val)) : Model k :=
  calls.foldl (step spreads) m

/-- An operation leaves at most one value for each key. -/
theorem nodup_step (spreads : Bool) {m : Model k} (h : (m.contents.map k.key).Nodup)
    (c : Call k.Val) : ((m.step spreads c).contents.map k.key).Nodup := by
  obtain ⟨v, action, fromPacket⟩ := c
  cases action with
  | update => exact OrderedMap.nodup_put h v
  | delete => exact OrderedMap.nodup_remove h (k.key v)

end Model

namespace CacheList

/-- Carries out operations one after another. -/
def run {K V : Type} [DecidableEq K] (outcome : Nat → Except SyncError Report)
    (l : CacheList K V) (calls : List (Call V)) : CacheList K V :=
  calls.foldl (fun l c => (l.perform outcome c.value c.action c.fromPacket).1) l

/-! ## Rounds that deliver -/

/-- Every round delivers to all peers. -/
def Delivers (outcome : Nat → Except SyncError Report) : Prop :=
  ∀ n, ∃ r : Report, outcome n = .ok r ∧ r.isComplete = true

/-- Messages whose rounds all deliver are all handed out. -/
theorem handOut_of_delivers {K V : Type} {outcome : Nat → Except SyncError Report}
    (h : Delivers outcome) (l : CacheList K V) (outbox : List CacheUpdate) :
    handOut outcome l outbox = ({ l with handed := l.handed ++ outbox }, .ok ()) := by
  induction outbox generalizing l with
  | nil => simp [handOut]
  | cons u outbox ih =>
    obtain ⟨r, hr, hcomplete⟩ := h l.handed.length
    have hround : (outcome l.handed.length).bind Report.result = .ok () := by
      rw [hr]
      exact if_pos hcomplete
    simp only [handOut, hround, ih]
    simp

/-! ## One operation -/

variable {k : Kind}

/-- The list holds what the model holds. -/
structure Shows (spreads : Bool) (l : CacheList k.Key k.Val) (m : Model k) : Prop where
  rules : l.rules = .ofKind k
  spreads : l.spreads = spreads
  entries : l.entries = Entries.keyedBy k.key m.contents
  nodup : (m.contents.map k.key).Nodup
  log : l.log = m.published
  handed : l.handed = m.handed

theorem shows_new (spreads : Bool) : Shows spreads (new (.ofKind k) spreads) (.empty k) :=
  ⟨rfl, rfl, rfl, List.nodup_nil, rfl, rfl⟩

/-- The outbox of an operation. -/
theorem outbox_eq_messages (spreads : Bool) (c : Call k.Val) (entry : Option k.Val) :
    (Rules.ofKind k).outbox spreads c.fromPacket c.value (c.told entry) =
      .ok (c.messages spreads entry) := by
  rw [Rules.outbox_ofKind]
  unfold Call.messages
  cases c.fromPacket <;> cases spreads <;> rfl

/-- An update is committed as the model has it. -/
theorem update_ofKind (spreads : Bool) {m : Model k} (h : (m.contents.map k.key).Nodup)
    (v : k.Val) (fromPacket : Bool) :
    (Rules.ofKind k).update spreads fromPacket (Entries.keyedBy k.key m.contents) v =
      .ok {
        entries := Entries.keyedBy k.key (OrderedMap.put k.key m.contents v)
        events := (eventsOfUpdate k v (m.entry v)).map fun e => ⟨k.listName, fromPacket, e⟩
        outbox := Call.messages spreads ⟨v, .update, fromPacket⟩ (m.entry v) } := by
  have hplace : (Rules.ofKind k).place (Entries.keyedBy k.key m.contents) v =
      Entries.keyedBy k.key (OrderedMap.put k.key m.contents v) := by
    show (if ((Entries.keyedBy k.key m.contents).find? (k.key v)).isSome
      then (Entries.keyedBy k.key m.contents).replace (k.key v) v
      else (Entries.keyedBy k.key m.contents).push (k.key v) v) = _
    rw [Entries.find?_keyedBy, Entries.replace_keyedBy h, Entries.push_keyedBy, OrderedMap.put]
    split <;> rfl
  have hfind : (Entries.keyedBy k.key m.contents).find? ((Rules.ofKind k).identify v) =
      m.entry v := Entries.find?_keyedBy _ _
  have houtbox : (Rules.ofKind k).outbox spreads fromPacket v [.update] =
      .ok (Call.messages spreads ⟨v, .update, fromPacket⟩ (m.entry v)) :=
    outbox_eq_messages spreads ⟨v, .update, fromPacket⟩ (m.entry v)
  unfold Rules.update
  rw [houtbox, hplace, hfind]
  rfl

/-- A removal is committed as the model has it. -/
theorem delete_ofKind (spreads : Bool) {m : Model k} (h : (m.contents.map k.key).Nodup)
    (v : k.Val) (fromPacket : Bool) :
    (Rules.ofKind k).delete spreads fromPacket (Entries.keyedBy k.key m.contents) v =
      .ok {
        entries := Entries.keyedBy k.key (OrderedMap.remove k.key m.contents (k.key v))
        events := (Call.events ⟨v, .delete, fromPacket⟩ (m.entry v)).map
          fun e => ⟨k.listName, fromPacket, e⟩
        outbox := Call.messages spreads ⟨v, .delete, fromPacket⟩ (m.entry v) } := by
  have hfind : (Entries.keyedBy k.key m.contents).find? ((Rules.ofKind k).identify v) =
      m.entry v := Entries.find?_keyedBy _ _
  unfold Rules.delete
  simp only [hfind]
  cases hentry : m.entry v with
  | none =>
    -- nothing stands under the key, so removing it changes nothing
    rw [OrderedMap.remove_of_get?_eq_none hentry]
    simp [Call.events, Call.messages, Call.told]
  | some cached =>
    show (do
      let outbox ← (Rules.ofKind k).outbox spreads fromPacket v [.update, .delete]
      return Commit.mk (((Entries.keyedBy k.key m.contents).replace (k.key v) v).erase (k.key v)) _
        outbox) = _
    have houtbox : (Rules.ofKind k).outbox spreads fromPacket v [.update, .delete] =
        .ok (Call.messages spreads ⟨v, .delete, fromPacket⟩ (some cached)) :=
      outbox_eq_messages spreads ⟨v, .delete, fromPacket⟩ (some cached)
    rw [houtbox, Entries.erase_replace, Entries.erase_keyedBy h]
    rfl

/-- One operation on a list that shows a model shows the next one, and succeeds. -/
theorem Shows.perform {outcome : Nat → Except SyncError Report} (hout : Delivers outcome)
    {spreads : Bool} {l : CacheList k.Key k.Val} {m : Model k} (h : Shows spreads l m)
    (c : Call k.Val) :
    Shows spreads (l.perform outcome c.value c.action c.fromPacket).1 (m.step spreads c) ∧
      (l.perform outcome c.value c.action c.fromPacket).2 = .ok () := by
  obtain ⟨v, action, fromPacket⟩ := c
  obtain ⟨entries', hcontents, hcommit⟩ :
      ∃ es, es = Entries.keyedBy k.key (m.step spreads ⟨v, action, fromPacket⟩).contents ∧
        l.rules.commit l.spreads fromPacket l.entries v action = .ok {
          entries := es
          events := (Call.events ⟨v, action, fromPacket⟩ (m.entry v)).map
            fun e => ⟨k.listName, fromPacket, e⟩
          outbox := Call.messages spreads ⟨v, action, fromPacket⟩ (m.entry v) } := by
    rw [h.rules, h.spreads, h.entries]
    cases action with
    | update => exact ⟨_, rfl, update_ofKind spreads h.nodup v fromPacket⟩
    | delete => exact ⟨_, rfl, delete_ofKind spreads h.nodup v fromPacket⟩
  simp only [CacheList.perform, hcommit, handOut_of_delivers hout]
  refine ⟨?_, trivial⟩
  exact {
    rules := h.rules
    spreads := h.spreads
    entries := hcontents
    nodup := Model.nodup_step spreads h.nodup _
    log := congrArg (· ++ _) h.log
    handed := congrArg (· ++ _) h.handed }

/-- A list that shows a model goes on to show it, whatever is done. -/
theorem Shows.run {outcome : Nat → Except SyncError Report} (hout : Delivers outcome)
    {spreads : Bool} (calls : List (Call k.Val)) {l : CacheList k.Key k.Val} {m : Model k}
    (h : Shows spreads l m) : Shows spreads (l.run outcome calls) (m.run spreads calls) := by
  induction calls generalizing l m with
  | nil => exact h
  | cons c calls ih => exact ih (h.perform hout c).1

/-! ## Whole runs -/

/-- A list that starts without values and whose rounds deliver completely is the model of it after
any operations: it holds the values of the model in their order, each under its own key and at most
one for a key; it has published the events of the model and handed out its messages; and every
further operation succeeds. -/
theorem run_eq_model (k : Kind) (spreads : Bool) {outcome : Nat → Except SyncError Report}
    (hout : Delivers outcome) (calls : List (Call k.Val)) :
    let l := (new (.ofKind k) spreads).run outcome calls
    let m := (Model.empty k).run spreads calls
    l.entries = m.contents.map (fun v => (k.key v, v)) ∧ (l.entries.keys).Nodup ∧
      l.log = m.published ∧ l.handed = m.handed ∧
      ∀ c : Call k.Val, (l.perform outcome c.value c.action c.fromPacket).2 = .ok () := by
  intro l m
  have h : Shows spreads l m := (shows_new spreads).run hout calls
  refine ⟨h.entries, ?_, h.log, h.handed, fun c => (h.perform hout c).2⟩
  have hkeys : l.entries.keys = m.contents.map k.key := by
    rw [h.entries]
    simp [Entries.keyedBy, Entries.keys, Function.comp_def]
  rw [hkeys]
  exact h.nodup

/-- Two templates of which the first is spelled anew and the second is removed: the new spelling
stands alone, in the place of the old one. -/
theorem run_eq_model_respelled :
    let calls : List (Call Template) := [⟨.new "Lobby", .update, false⟩,
      ⟨.new "Arena", .update, true⟩, ⟨.new "LOBBY", .update, false⟩, ⟨.new "arena", .delete, false⟩]
    let l := (new (.ofKind .template) true).run (fun _ => .ok .empty) calls
    Delivers (fun _ => .ok .empty) ∧ l.entries = [(⟨"lobby"⟩, Template.new "LOBBY")] ∧
      l.handed.map (·.action) = [.update, .update, .update, .delete] := by
  intro calls l
  have hout : Delivers fun _ => .ok .empty := fun _ => ⟨.empty, rfl, rfl⟩
  obtain ⟨hentries, -, -, hhanded, -⟩ := run_eq_model .template true hout calls
  refine ⟨hout, hentries.trans ?_, (congrArg _ hhanded).trans ?_⟩
  · decide
  · decide

end CacheList

end CloudRoster.Cache
