import CloudRoster.Proofs.Node.Ledger

/-!
# Turns

The calls on a list, each with the copy that it found. What a list holds and what it has published
are read off the calls alone: one call after another changes the contents and publishes the events
of its turn. The lists of a node are so after every run, with the calls that the journal has of
them.
-/

namespace CloudRoster

open Cache (Call CacheList Entries Envelope Model)
open Cache.OrderedMap (get? get?_put_of_ne get?_put_self get?_remove_of_ne get?_remove_self put
  remove)

namespace Cache

variable {k : Kind}

/-- The contents of a list after a call. -/
def Call.applyTo (c : Call k.Val) (vs : List k.Val) : List k.Val :=
  match c.action with
  | .update => put k.key vs c.value
  | .delete => remove k.key vs (k.key c.value)

/-- What a call leaves under the key of its value. -/
def Call.left (c : Call k.Val) : Option k.Val :=
  match c.action with
  | .update => some c.value
  | .delete => none

theorem Call.get?_applyTo_self (c : Call k.Val) (vs : List k.Val) :
    get? k.key (c.applyTo vs) (k.key c.value) = c.left := by
  obtain ⟨v, action, fromPacket⟩ := c
  cases action with
  | update => exact get?_put_self vs v
  | delete => exact get?_remove_self vs (k.key v)

theorem Call.get?_applyTo_of_ne (c : Call k.Val) (vs : List k.Val) {key : k.Key}
    (h : key ≠ k.key c.value) : get? k.key (c.applyTo vs) key = get? k.key vs key := by
  obtain ⟨v, action, fromPacket⟩ := c
  cases action with
  | update => exact get?_put_of_ne vs h
  | delete => exact get?_remove_of_ne vs h

/-- The contents of a list after calls. -/
def contentsAfter (vs : List k.Val) (calls : List (Call k.Val)) : List k.Val :=
  calls.foldl (fun vs c => c.applyTo vs) vs

/-- Calls about other values leave a value as it was. -/
theorem get?_contentsAfter_of_ne {calls : List (Call k.Val)} {key : k.Key}
    (h : ∀ c ∈ calls, key ≠ k.key c.value) (vs : List k.Val) :
    get? k.key (contentsAfter vs calls) key = get? k.key vs key := by
  induction calls generalizing vs with
  | nil => rfl
  | cons c calls ih =>
    obtain ⟨hc, hcalls⟩ := List.forall_mem_cons.1 h
    exact (ih hcalls (c.applyTo vs)).trans (c.get?_applyTo_of_ne vs hc)

/-- A call, and the copy of its value that it found. -/
structure Turn (k : Kind) where
  entry : Option k.Val
  call : Call k.Val

namespace Turn

/-- What is published in a turn. -/
def events (t : Turn k) : List Event := t.call.events t.entry

def envelopes (t : Turn k) : List Envelope :=
  t.events.map fun e => ⟨k.listName, t.call.fromPacket, e⟩

/-- The turn of a call on a list. -/
def of (vs : List k.Val) (c : Call k.Val) : Turn k := ⟨get? k.key vs (k.key c.value), c⟩

end Turn

/-- The turns of calls on a list. -/
def turns : List k.Val → List (Call k.Val) → List (Turn k)
  | _, [] => []
  | vs, c :: calls => .of vs c :: turns (c.applyTo vs) calls

/-- The events that calls on a list publish. -/
def eventsAfter (vs : List k.Val) (calls : List (Call k.Val)) : List Event :=
  (turns vs calls).flatMap Turn.events

@[simp]
theorem contentsAfter_append (vs : List k.Val) (calls calls' : List (Call k.Val)) :
    contentsAfter vs (calls ++ calls') = contentsAfter (contentsAfter vs calls) calls' :=
  List.foldl_append

@[simp]
theorem turns_append (vs : List k.Val) (calls calls' : List (Call k.Val)) :
    turns vs (calls ++ calls') = turns vs calls ++ turns (contentsAfter vs calls) calls' := by
  induction calls generalizing vs with
  | nil => rfl
  | cons c calls ih => exact congrArg (Turn.of vs c :: ·) (ih (c.applyTo vs))

/-- A model after calls. -/
theorem Model.run_eq (spreads : Bool) (m : Model k) (calls : List (Call k.Val)) :
    (m.run spreads calls).contents = contentsAfter m.contents calls ∧
      (m.run spreads calls).published =
        m.published ++ (turns m.contents calls).flatMap Turn.envelopes := by
  induction calls generalizing m with
  | nil => exact ⟨rfl, (List.append_nil _).symm⟩
  | cons c calls ih =>
    obtain ⟨hcontents, hpublished⟩ := ih (m.step spreads c)
    refine ⟨hcontents, hpublished.trans ?_⟩
    exact List.append_assoc ..

/-- A list after calls, whatever became of the rounds of it. -/
theorem CacheList.run_eq {l : CacheList k.Key k.Val} (hrules : l.rules = .ofKind k)
    (htidy : l.entries.Tidy k.key) (calls : List (Call k.Val)) :
    let l' := l.run (fun _ => .ok .empty) calls
    l'.entries = Entries.keyedBy k.key (contentsAfter l.entries.values calls) ∧
      l'.log = l.log ++ (turns l.entries.values calls).flatMap Turn.envelopes := by
  intro l'
  have hshows : CacheList.Shows l.spreads l ⟨l.entries.values, l.log, l.handed⟩ :=
    ⟨hrules, rfl, htidy.eq_keyedBy, htidy.map_values ▸ htidy.nodup, rfl, rfl⟩
  have hrun : CacheList.Shows l.spreads l' _ :=
    hshows.run (fun _ => ⟨.empty, rfl, rfl⟩) calls
  obtain ⟨hcontents, hpublished⟩ := Model.run_eq l.spreads ⟨l.entries.values, l.log, l.handed⟩ calls
  exact ⟨hrun.entries.trans (congrArg _ hcontents), hrun.log.trans hpublished⟩

end Cache

namespace Node

open Cache (contentsAfter turns)

/-- The values of a list of a node after what a journal has of it. -/
def valuesAfter (n : Node) (i : Nat) (k : Kind) (journal : Journal) : List k.Val :=
  contentsAfter (n.values k) (journal.calls i k)

/-- What a list of a node has published after what a journal has of it. -/
def envelopesAfter (n : Node) (i : Nat) (k : Kind) (journal : Journal) : List Envelope :=
  n.envelopes k ++ (turns (n.values k) (journal.calls i k)).flatMap Cache.Turn.envelopes

/-- What stands under a key of a node after what a journal has of it. -/
def copyAfter (n : Node) (i : Nat) (k : Kind) (key : k.Key) (journal : Journal) : Option k.Val :=
  get? k.key (n.valuesAfter i k journal) key

section

variable {n n' : Node} {i : Nat} {journal : Journal}

/-- The lists of a node are as the turns of the journal leave them. -/
theorem Continues.eq_turns (h : n.Continues (fun _ => .ok .empty) n' i journal) (htidy : n.Tidy)
    (k : Kind) :
    n'.values k = n.valuesAfter i k journal ∧ n'.envelopes k = n.envelopesAfter i k journal := by
  obtain ⟨hentries, hlog⟩ := h.follows k
  obtain ⟨hentries', hlog'⟩ :=
    Cache.CacheList.run_eq (l := n.list k) rfl (htidy k) (journal.calls i k)
  refine ⟨?_, hlog.trans hlog'⟩
  unfold values valuesAfter
  rw [hentries, hentries', Entries.values_keyedBy]
  rfl

/-- Looking something up in a list finds what the journal has left there. -/
theorem Continues.find?_eq (h : n.Continues (fun _ => .ok .empty) n' i journal) (htidy : n.Tidy)
    (k : Kind) (key : k.Key) : (n'.lists.get k).find? key = n.copyAfter i k key journal := by
  obtain ⟨hentries, -⟩ := h.follows k
  obtain ⟨hentries', -⟩ :=
    Cache.CacheList.run_eq (l := n.list k) rfl (htidy k) (journal.calls i k)
  rw [hentries, hentries', Entries.find?_keyedBy]
  rfl

/-- What comes later is published behind what was published before. -/
theorem envelopesAfter_append (n : Node) (i : Nat) (k : Kind) (journal notes : Journal) :
    n.envelopesAfter i k (journal ++ notes) = n.envelopesAfter i k journal ++
      (turns (n.valuesAfter i k journal) (notes.calls i k)).flatMap Cache.Turn.envelopes := by
  unfold envelopesAfter
  rw [Journal.calls_append, Cache.turns_append, List.flatMap_append, ← List.append_assoc]
  rfl

/-- A commit takes its turn with the copy that stands there. -/
theorem turns_committed (n : Node) (i : Nat) (journal notes : Journal) (site : Site)
    (hsite : site.1 = i) (who : Claimant) (c : Change) :
    ∃ later, turns (n.valuesAfter i c.kind journal)
        (Journal.calls i c.kind (.committed site who c :: notes)) =
      ⟨n.copyAfter i c.kind (c.kind.key c.value) journal, c.call⟩ :: later := by
  have hcalls : Journal.calls i c.kind (.committed site who c :: notes) =
      c.call :: Journal.calls i c.kind notes := by
    simp [Journal.calls, hsite, c.callOn_self]
  rw [hcalls]
  exact ⟨_, rfl⟩

end

end Node

end CloudRoster
