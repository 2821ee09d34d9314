import CloudRoster.Proofs.Node.Burst
import CloudRoster.Proofs.Node.ClaimOrder
import CloudRoster.Proofs.Node.Histories
import CloudRoster.Proofs.Node.Owed

/-!
# Lists and stores along a run

Every list of a node that began without values holds under each key what the last committed change
of that key left (`Node.ListedBy`). A store whose orders never failed holds the same of the last
orders it was given (`Node.StoresIn`). And unless a change of a value is still owed, the last order
about it is that of the last change (`Booked`): an operation that owes a change has the site of the
value, so no other one has changed the value since (`Current`).
-/

namespace CloudRoster

open Function (update update_self update_of_ne)
open Storage (Directory Order Store lastAbout lastAbout_concat)

/-! ## The last change -/

/-- The order that the store is given for a change. -/
def Change.order (c : Change) : Order × Value := (Node.orderOf c.action, ⟨c.kind, c.value⟩)

theorem Change.subjectOf_order (c : Change) : subjectOf c.order.2 = c.subject := rfl

/-- What the order of a change leaves is the file of the value that the change leaves. -/
theorem Change.leaves_order (c : Change) :
    c.order.1.leaves c.order.2 = c.left.map (Storage.stored c.kind) := by
  obtain ⟨k, v, action, fromPacket, managed⟩ := c
  cases action <;> rfl

/-- The lists of a node hold what the last committed changes left, and nothing else. -/
structure Node.ListedBy (n : Node) (i : Nat) (journal : Journal) : Prop where
  tidy : n.Tidy
  changed : ∀ c, journal.latest i c.subject = some c → n.cached c.kind c.value = c.left
  unchanged : ∀ (k : Kind) (key : k.Key), journal.latest i ⟨k, key⟩ = none →
    (n.lists.get k).find? key = none

namespace Node.ListedBy

variable {n n' : Node} {i : Nat} {journal journal' : Journal}

theorem congr (h : n.ListedBy i journal) (hlists : n'.lists = n.lists)
    (hjournal : ∀ s, journal'.latest i s = journal.latest i s) : n'.ListedBy i journal' := by
  refine ⟨?_, fun c hc => ?_, fun k key hkey => ?_⟩
  · intro k
    rw [hlists]
    exact h.tidy k
  · unfold cached
    rw [hlists]
    exact h.changed c (hjournal _ ▸ hc)
  · rw [hlists]
    exact h.unchanged k key (hjournal _ ▸ hkey)

/-- One more change is committed on the node. -/
theorem commit (h : n.ListedBy i journal) {c : Change} {outbox : List CacheUpdate}
    (hcommit : n.commit c = .ok (n', outbox)) (who : Claimant) :
    n'.ListedBy i (journal ++ [.committed (i, c.subject) who c]) := by
  obtain ⟨hguard, -⟩ := commit_cases hcommit
  obtain ⟨bus, heq⟩ := commit_of_guard hguard
  rw [heq] at hcommit
  cases hcommit
  -- what stands under a key that the change is not about stays
  have hother : ∀ (k : Kind) (key : k.Key), c.subject ≠ ⟨k, key⟩ →
      ((n.lists.set c.kind (c.applyTo (n.lists.get c.kind))).get k).find? key =
        (n.lists.get k).find? key := by
    intro k key hne
    by_cases hk : k = c.kind
    · subst hk
      rw [Lists.get_set_self]
      exact Change.find?_applyTo_of_ne _ fun heq => hne (by rw [heq]; rfl)
    · rw [Lists.get_set_of_ne _ hk]
  refine ⟨h.tidy.applyTo c rfl, fun c' hc' => ?_, fun k key hkey => ?_⟩
  · rw [Journal.latest_committed] at hc'
    split at hc'
    · cases hc'
      exact h.tidy.cached_applyTo c rfl
    · rename_i hne
      exact (hother c'.kind (c'.kind.key c'.value) fun heq => hne ⟨rfl, heq⟩).trans
        (h.changed c' hc')
  · rw [Journal.latest_committed] at hkey
    split at hkey
    · cases hkey
    · rename_i hne
      exact (hother k key fun heq => hne ⟨rfl, heq⟩).trans (h.unchanged k key hkey)

end Node.ListedBy

/-- The change that a claimant has committed and whose site it still has, with the node. -/
def Standing.behind? : Standing → Option (Nat × Change)
  | works node c _ => some (node, c)
  | _ => none

theorem Standing.has?_of_behind? {st : Standing} {node : Nat} {c : Change}
    (h : st.behind? = some (node, c)) : st.has? = some (node, c.subject) := by
  cases st with
  | works => cases h; rfl
  | _ => cases h

theorem Claimant.behind?_rest (who : Claimant) {st : Standing} (h : st.behind? = none) :
    (who.rest st).behind? = none := by
  unfold rest
  split
  · rfl
  · exact h

/-- The nodes, the claims and the journal go together: a claimant that has committed a change and
still has its site was the last committer of the value. -/
structure Current (i : Nat) (x : Scene) : Prop where
  locked : Locked x.traffic.locks x.standing
  latest : ∀ who j c, (x.standing who).behind? = some (j, c) →
    Journal.latest j c.subject x.traffic.journal = some c
  listed : ∀ n, x.traffic.world[i]? = some n → n.ListedBy i x.traffic.journal

namespace Current

variable {i : Nat} {x y : Scene} {who : Claimant} {o : Operation} {st : Standing} {t : Traffic}

/-- A move without a commit, of a claimant that afterwards is behind no other change than before. -/
theorem latest_next (h : Current i x)
    (hst : st.behind? = none ∨ st.behind? = (x.standing who).behind?)
    (hjournal : ∀ j s, Journal.latest j s t.journal = Journal.latest j s x.traffic.journal)
    {i' : Claimant} {j : Nat} {c : Change}
    (hbehind : ((x.next t who st).standing i').behind? = some (j, c)) :
    Journal.latest j c.subject t.journal = some c := by
  rw [hjournal]
  by_cases hi : i' = who
  · subst hi
    rw [Scene.standing_next_self] at hbehind
    rcases hst with hst | hst
    · rw [hst] at hbehind
      cases hbehind
    · exact h.latest i' j c (hst ▸ hbehind)
  · rw [Scene.standing_next_of_ne hi] at hbehind
    exact h.latest i' j c hbehind

/-- The node is the one that was exchanged, or it stayed as it was. -/
theorem listed_update (h : Current i x) {j : Nat} {n n' : Node} {journal : Journal}
    (hn : x.traffic.world[j]? = some n) {m : Node}
    (hm : (x.traffic.world.update j n')[i]? = some m)
    (hself : j = i → n.ListedBy i x.traffic.journal → n'.ListedBy i journal)
    (hothers : j ≠ i → ∀ s, journal.latest i s = Journal.latest i s x.traffic.journal) :
    m.ListedBy i journal := by
  by_cases hj : j = i
  · subst hj
    rw [World.getElem?_update_self hn] at hm
    cases hm
    exact hself rfl (h.listed n hn)
  · rw [World.getElem?_update_of_ne _ (Ne.symm hj)] at hm
    exact (h.listed m hm).congr rfl (hothers hj)

theorem of_move (h : Current i x) (hmove : Move who o x y) : Current i y := by
  have hrest : ∀ {st : Standing}, st.behind? = none →
      (who.rest st).behind? = none ∨ (who.rest st).behind? = (x.standing who).behind? :=
    fun hst => .inl (who.behind?_rest hst)
  refine ⟨h.locked.of_move hmove, fun i' j c hbehind => ?_, fun n hn => ?_⟩
  · cases hmove with
    | take | queue => exact h.latest_next (.inl rfl) (fun _ _ => Journal.latest_asked) hbehind
    | pickUp | skip => exact h.latest_next (.inl rfl) (fun _ _ => rfl) hbehind
    | leave | refuse | release => exact h.latest_next (hrest rfl) (fun _ _ => rfl) hbehind
    | hand _ hworks =>
      exact h.latest_next (.inr (by rw [hworks]; rfl)) (fun _ _ => Journal.latest_handed) hbehind
    | store => exact h.latest i' j c hbehind
    | @commit node c' n n' outbox hgot hnode hcommit hown =>
      refine Journal.latest_committed .. |>.trans ?_
      by_cases hwho : i' = who
      · subst hwho
        rw [Scene.standing_next_self] at hbehind
        cases hbehind
        exact if_pos ⟨rfl, rfl⟩
      · -- no other claimant has the site of the change
        rw [Scene.standing_next_of_ne hwho] at hbehind
        refine (if_neg ?_).trans (h.latest i' j c hbehind)
        rintro ⟨rfl, hsubject⟩
        refine hwho (h.locked.unique (Standing.has?_of_behind? hbehind) ?_)
        rw [hgot, hsubject]
        rfl
  · cases hmove with
    | take | queue => exact (h.listed n hn).congr rfl fun _ => Journal.latest_asked
    | commit _ hnode hcommit =>
      refine h.listed_update hnode hn (fun hj hm => ?_) fun hj s => ?_
      · subst hj
        exact hm.commit hcommit who
      · exact (Journal.latest_committed ..).trans (if_neg fun heq => hj heq.1)
    | hand _ _ hnode =>
      exact h.listed_update hnode hn (fun _ hm => hm.congr rfl fun _ => Journal.latest_handed)
        fun _ _ => Journal.latest_handed
    | store c result hnode =>
      refine h.listed_update hnode hn (fun _ hm => ?_) fun _ _ => rfl
      obtain ⟨groups, templates, heq⟩ := Node.persist_eq _ c result
      rw [heq]
      exact hm.congr rfl fun _ => rfl
    | _ => exact h.listed n hn

theorem kept (i : Nat) : Kept (Current i) where
  move _ hmove h := h.of_move hmove
  same {x y} hsame h := by
    obtain ⟨hworld, hlocks, hjournal, hstanding, -⟩ := hsame
    refine ⟨?_, ?_, ?_⟩
    · rw [hlocks, hstanding]
      exact h.locked
    · rw [hjournal, hstanding]
      exact h.latest
    · rw [hworld, hjournal]
      exact h.listed

end Current

/-! ## What stores hold -/

namespace Node

theorem journal_heed (s : Store) (c : Change) :
    (heed s c).1.journal = s.journal ++ [c.order] := by
  unfold heed Store.obey
  simp only
  split
  · rfl
  · split <;> rfl

/-- The store of a kind was told of values of that kind only. Its directory is as the orders leave
an empty one, if none of them failed. -/
def StoresIn (k : Kind) (path : String) (n : Node) : Prop :=
  ∃ s, n.store? k = some s ∧ (∀ x ∈ s.journal, x.2.1 = k) ∧
    ∀ d, (Directory.new path).obeyAll s.journal = .ok d → s.directory = some d

theorem StoresIn.congr {k : Kind} {path : String} {n n' : Node} (h : n.StoresIn k path)
    (hstore : n'.store? k = n.store? k) : n'.StoresIn k path := by
  obtain ⟨s, hs, hrest⟩ := h
  exact ⟨s, hstore.trans hs, hrest⟩

/-- One more order, which the store carries out or not. -/
theorem StoresIn.heed {k : Kind} {path : String} {n n' : Node} (h : n.StoresIn k path) {c : Change}
    (hc : c.kind = k) (hstore : n'.store? k = (n.store? k).map fun s => (Node.heed s c).1) :
    n'.StoresIn k path := by
  obtain ⟨s, hs, hkinds, hdirectory⟩ := h
  refine ⟨(Node.heed s c).1, by rw [hstore, hs]; rfl, fun x hx => ?_, fun d hd => ?_⟩
  · rw [journal_heed] at hx
    rcases List.mem_append.1 hx with hx | hx
    · exact hkinds x hx
    · rw [List.mem_singleton.1 hx]
      exact hc
  · rw [journal_heed, Directory.obeyAll_concat] at hd
    cases hbefore : (Directory.new path).obeyAll s.journal with
    | error e =>
      rw [hbefore] at hd
      cases hd
    | ok before =>
      rw [hbefore] at hd
      have hobey : before.obey c.kind c.value (orderOf c.action) = .ok d := hd
      unfold Node.heed Store.obey
      simp only [hdirectory before hbefore, hobey]

theorem kept_storesIn (k : Kind) (path : String) : Node.Kept (StoresIn k path) where
  commit hcommit h := by
    obtain ⟨-, commit, -, rfl, -⟩ := commit_cases hcommit
    exact h.congr (by cases k <;> rfl)
  hand m h := h.congr (by cases k <;> rfl)
  persist {n} c result h := by
    by_cases htold : k = c.kind ∧ (c.managed && keptLocally result) = true
    · exact h.heed htold.1.symm ((store?_persist ..).trans (if_pos htold))
    · exact h.congr ((store?_persist ..).trans (if_neg htold))

end Node

/-! ## The books of a store -/

namespace Traffic

/-- What the store of a kind on a node was told. -/
def told (t : Traffic) (i : Nat) (k : Kind) : List (Order × Value) :=
  (t.storeAt i k).elim [] (·.journal)

/-- Some operation owes the store of a node a change of something. -/
def IsOwed (t : Traffic) (i : Nat) (s : (k : Kind) × k.Key) : Prop :=
  ∃ (id : Nat) (o : Operation) (c : Change),
    t.operations[id]? = some o ∧ o.Owes i c ∧ c.subject = s

theorem not_isOwed_of_isQuiet {t : Traffic} (h : t.isQuiet = true) (i : Nat)
    (s : (k : Kind) × k.Key) : ¬ t.IsOwed i s := by
  rintro ⟨id, o, c, hop, howed, -⟩
  exact o.not_owes_of_isOver (List.all_eq_true.1 h o (List.mem_of_getElem? hop)) i c howed

end Traffic

/-- A node has a store of a kind, all changes of that kind are managed, and the store was last told
of the last change of each value, unless a change of it is owed. -/
structure Booked (i : Nat) (k : Kind) (t : Traffic) : Prop where
  store : (t.storeAt i k).isSome
  orderly : ∀ (id : Nat) (o : Operation), t.operations[id]? = some o → o.Orderly i k
  told : ∀ key, t.IsOwed i ⟨k, key⟩ ∨
    lastAbout ⟨k, key⟩ (t.told i k) =
      (Journal.latest i ⟨k, key⟩ t.journal).map Change.order

section

variable {i : Nat} {k : Kind} {id : Nat} {o : Operation} {t t' u : Traffic} {p : Phase}

/-- Where one operation has entered another phase, all are orderly that were, if this one is. -/
theorem Booked.orderly_enter (h : Booked i k t) (hops : u.operations = t.operations)
    (hop : t.operations[id]? = some o) (horderly : ({ o with phase := p }).Orderly i k) (j : Nat)
    (o' : Operation) (ho' : (u.enter id p).operations[j]? = some o') : o'.Orderly i k := by
  have hget : (t.operations.modify id fun o => { o with phase := p })[j]? = some o' := hops ▸ ho'
  rcases Traffic.of_getElem?_modify hop hget with ⟨-, rfl⟩ | ⟨-, ho'⟩
  · exact horderly
  · exact h.orderly j o' ho'

/-- What was owed still is, if the operation that has entered another phase still owes its part. -/
theorem Traffic.IsOwed.enter {key : k.Key} (h : t.IsOwed i ⟨k, key⟩)
    (hops : u.operations = t.operations) (hop : t.operations[id]? = some o)
    (howes : ∀ c, c.subject = ⟨k, key⟩ → o.Owes i c → ({ o with phase := p }).Owes i c) :
    (u.enter id p).IsOwed i ⟨k, key⟩ := by
  obtain ⟨j, o', c, ho', howed, hsubject⟩ := h
  have hget : (u.enter id p).operations =
      t.operations.modify id fun o => { o with phase := p } := hops ▸ rfl
  by_cases hj : j = id
  · subst hj
    cases hop.symm.trans ho'
    exact ⟨j, _, c, getElem?_enter_self hops hop p, howes c hsubject howed, hsubject⟩
  · refine ⟨j, o', c, ?_, howed, hsubject⟩
    rw [hget, List.getElem?_modify_ne _ _ (Ne.symm hj)]
    exact ho'

/-- An operation owes what it has just come to owe. -/
theorem Traffic.isOwed_enter {c : Change} (hops : u.operations = t.operations)
    (hop : t.operations[id]? = some o) (howed : ({ o with phase := p }).Owes i c) :
    (u.enter id p).IsOwed i c.subject :=
  ⟨id, _, c, getElem?_enter_self hops hop p, howed, rfl⟩

theorem kind_of_subject {c : Change} {key : k.Key} (h : c.subject = ⟨k, key⟩) : c.kind = k :=
  congrArg Sigma.fst h

/-- A step of an operation keeps the books, if each change that it owes is the last one of its
value. -/
theorem Booked.turnover (h : Booked i k t) (hop : t.operations[id]? = some o)
    (hlatest : ∀ node c, o.Owes node c → Journal.latest node c.subject t.journal = some c)
    (hturn : Turnover i k id o t t') : Booked i k t' := by
  cases hturn with
  | @same u p hbooks horderly howes =>
    refine ⟨hbooks.store ▸ h.store, h.orderly_enter hbooks.operations hop horderly, fun key => ?_⟩
    refine (h.told key).imp (fun howed => ?_) fun heq => ?_
    · exact howed.enter hbooks.operations hop fun c hc => howes c (kind_of_subject hc)
    · show lastAbout _ (u.told i k) = _
      unfold Traffic.told
      rw [hbooks.store]
      exact heq.trans (congrArg _ (hbooks.latest i _).symm)
  | @commits u p node c hbooks horderly howes hnew =>
    refine ⟨hbooks.store ▸ h.store, h.orderly_enter hbooks.operations hop horderly, fun key => ?_⟩
    by_cases hc : node = i ∧ c.subject = ⟨k, key⟩
    · left
      rw [← hc.2]
      exact Traffic.isOwed_enter hbooks.operations hop (hnew hc.1 (kind_of_subject hc.2))
    · refine (h.told key).imp (fun howed => ?_) fun heq => ?_
      · exact howed.enter hbooks.operations hop fun c hc => howes c (kind_of_subject hc)
      · show lastAbout _ (u.told i k) = _
        unfold Traffic.told
        rw [hbooks.store]
        exact heq.trans (congrArg _ ((hbooks.latest i _).trans (if_neg hc)).symm)
  | @tells u p node c howed hbooks horderly howes =>
    obtain ⟨s, hs⟩ := Option.isSome_iff_exists.1 h.store
    have htold : u.told i k =
        if node = i ∧ k = c.kind then t.told i k ++ [c.order] else t.told i k := by
      unfold Traffic.told
      rw [hbooks.store, hs]
      split
      · exact Node.journal_heed s c
      · rfl
    refine ⟨?_, h.orderly_enter hbooks.operations hop horderly, fun key => ?_⟩
    · show (u.storeAt i k).isSome
      rw [hbooks.store, hs]
      split <;> rfl
    by_cases hc : node = i ∧ c.subject = ⟨k, key⟩
    · -- the store has just been told of the last change
      right
      obtain ⟨rfl, hsubject⟩ := hc
      show lastAbout _ (u.told node k) = (Journal.latest node _ u.journal).map _
      rw [htold, if_pos ⟨rfl, (kind_of_subject hsubject).symm⟩, lastAbout_concat,
        c.subjectOf_order, if_pos hsubject, hbooks.latest, ← hsubject, hlatest node c howed]
      rfl
    · refine (h.told key).imp (fun howed => ?_) fun heq => ?_
      · refine howed.enter hbooks.operations hop fun c' hc' howed' => ?_
        rcases howes c' (kind_of_subject hc') howed' with ⟨hi, rfl⟩ | howes'
        · exact absurd ⟨hi, hc'⟩ hc
        · exact howes'
      · show lastAbout _ (u.told i k) = (Journal.latest i _ u.journal).map _
        rw [htold, hbooks.latest, ← heq]
        split
        · rename_i hi
          rw [lastAbout_concat, c.subjectOf_order, if_neg fun hsubject => hc ⟨hi.1, hsubject⟩]
        · rfl

end

/-! ## Steps -/

/-- An operation that owes a change stands behind it. -/
theorem exists_behind {x : Scene} {id : Nat} {o : Operation} (h : x.Allows id o o.phase)
    {node : Nat} {c : Change} (howed : o.Owes node c) :
    ∃ who, (x.standing who).behind? = some (node, c) := by
  unfold Operation.Owes at howed
  cases hphase : o.phase with
  | round c' r =>
    rw [hphase] at h howed
    obtain ⟨hhome, hvisit, -⟩ := h
    rcases howed with ⟨rfl, rfl⟩ | hvisiting
    · exact ⟨⟨id, false⟩, by rw [hhome]; rfl⟩
    · refine ⟨⟨id, true⟩, ?_⟩
      rw [hvisit]
      cases hawaited : r.awaited with
      | outside =>
        rw [hawaited] at hvisiting
        exact hvisiting.elim
      | visit v peers report =>
        rw [hawaited] at hvisiting
        obtain ⟨hstage, rfl, rfl⟩ := hvisiting
        simp only [Awaited.standing, hstage]
        rfl
  | storing c' result =>
    rw [hphase] at h howed
    obtain ⟨-, later, hhome, -⟩ := h
    obtain ⟨rfl, rfl⟩ := howed
    exact ⟨⟨id, false⟩, by rw [hhome]; rfl⟩
  | fresh | waiting | ended | abandoned =>
    rw [hphase] at howed
    exact False.elim howed

/-- A step brings only managed changes of a kind to a node, its outcome is not taken for
a value that cannot be written, and it does not keep a store of the node from being told of
anything: neither by abandoning an operation nor by letting the time of a round run out over its
visit. -/
def Traffic.Admits (t : Traffic) (i : Nat) (k : Kind) : Step → Prop
  | .start node task => ∀ c, task = .change c → c.KeptAt i k node
  | .answer _ outcome => ∀ reason, outcome ≠ .error (.serialization reason)
  | .expire id => ∀ o c r, t.operations[id]? = some o → o.phase = .round c r →
      r.deadline ≤ t.clock → ∀ c', ¬ r.awaited.Owes i c'
  | .abandon id => ∀ o, t.operations[id]? = some o → ∀ c, ¬ o.Owes i c
  | .poll _ | .persist _ | .tick _ => True

variable {i : Nat} {k : Kind} {x : Scene}

theorem Booked.start {t : Traffic} (h : Booked i k t) {node : Nat} {task : Task}
    (hadmits : ∀ c, task = .change c → c.KeptAt i k node) :
    Booked i k (t.step (.start node task)) := by
  refine ⟨h.store, fun id o ho => ?_, fun key => (h.told key).imp_left fun howed => ?_⟩
  · rcases List.mem_append.1 (List.mem_of_getElem? ho) with hold | hnew
    · obtain ⟨j, hj⟩ := List.getElem?_of_mem hold
      exact h.orderly j o hj
    · rw [List.mem_singleton.1 hnew]
      exact hadmits
  · obtain ⟨id, o, c, hop, hrest⟩ := howed
    have hlt := (List.getElem?_eq_some_iff.1 hop).1
    exact ⟨id, o, c, (List.getElem?_append_left hlt).trans hop, hrest⟩

/-- Every step that is admitted keeps the books of a store. -/
theorem Booked.step (h : Booked i k x.traffic) (hsound : Sound x) (hcurrent : Current i x)
    {step : Step} (hadmits : x.traffic.Admits i k step) : Booked i k (x.traffic.step step) := by
  -- a step of an operation changes nothing, or is a turnover
  have hgoes : ∀ (id : Nat) (f : Operation → Traffic),
      (∀ o, x.traffic.operations[id]? = some o → o.Orderly i k →
        f o = x.traffic ∨ Turnover i k id o x.traffic (f o)) →
      Booked i k ((x.traffic.operations[id]?).elim x.traffic f) := by
    intro id f hf
    cases hop : x.traffic.operations[id]? with
    | none => exact h
    | some o =>
      rcases hf o hop (h.orderly id o hop) with hsame | hturn
      · show Booked i k (f o)
        rw [hsame]
        exact h
      · refine h.turnover hop (fun node c howed => ?_) hturn
        obtain ⟨who, hbehind⟩ := exists_behind (hsound.allows id o hop) howed
        exact hcurrent.latest who node c hbehind
  cases step with
  | start node task => exact h.start hadmits
  | tick ms => exact ⟨h.store, h.orderly, h.told⟩
  | poll id => exact hgoes id _ fun o _ horderly => turnover_poll horderly h.store
  | answer id outcome =>
    exact hgoes id _ fun o _ horderly => turnover_answer horderly h.store hadmits
  | persist id => exact hgoes id _ fun o _ horderly => turnover_persist horderly h.store
  | expire id =>
    exact hgoes id _ fun o hop horderly =>
      turnover_expire horderly h.store fun c r hphase => hadmits o c r hop hphase
  | abandon id => exact hgoes id _ fun o hop _ => turnover_abandon (hadmits o hop)

/-! ## Runs -/

/-- A run on a node that is not disturbed: changes of groups and templates are managed, no outcome
of a round tells of a value that cannot be written, and every change of the node that was committed
is taken to its end. No operation is abandoned before the store of the node was told of its change.
Nor does the time of a round run out over a visit to the node that has come as far as this, which
would abandon the visit midway. -/
structure Undisturbed (t : Traffic) (i : Nat) (steps : List Step) : Prop where
  managed : ∀ c, .start i (.change c) ∈ steps → c.kind = .group ∨ c.kind = .template →
    c.managed = true
  outcomes : ∀ id reason, .answer id (.error (.serialization reason)) ∉ steps
  finished : ∀ before id after, steps = before ++ .abandon id :: after →
    ∀ o, (t.run before).operations[id]? = some o → ∀ c, ¬ o.Owes i c
  inTime : ∀ before id after, steps = before ++ .expire id :: after →
    ∀ o c r, (t.run before).operations[id]? = some o → o.phase = .round c r →
      r.deadline ≤ (t.run before).clock → ∀ c', ¬ r.awaited.Owes i c'

theorem Undisturbed.admits {t : Traffic} {steps before after : List Step} {step : Step}
    (h : Undisturbed t i steps) (hk : k = .group ∨ k = .template)
    (hsteps : steps = before ++ step :: after) : (t.run before).Admits i k step := by
  have hmem : step ∈ steps := hsteps ▸ List.mem_append_right _ List.mem_cons_self
  cases step with
  | start node task =>
    rintro c rfl rfl rfl
    exact h.managed c hmem hk
  | answer id outcome =>
    rintro reason rfl
    exact h.outcomes id reason hmem
  | expire id => exact h.inTime before id after hsteps
  | abandon id => exact h.finished before id after hsteps
  | poll | persist | tick => trivial

/-- What a run leaves that is not disturbed, on a node whose lists were empty in the beginning: its
lists are as the last changes left them, and its store was told of just these. -/
theorem exists_current {w : World} (hnew : ∀ n, w[i]? = some n → n.ListedBy i [])
    (steps : List Step) :
    ∃ z, Sound z ∧ Current i z ∧ z.traffic = (Traffic.new w).run steps := by
  have hbegin : Current i ⟨.new w, fun _ => .away⟩ := ⟨.empty, fun _ _ _ h => (nomatch h), hnew⟩
  exact (sound_new w).run (Current.kept i) hbegin steps

theorem booked_run {w : World} {steps : List Step} (hk : k = .group ∨ k = .template)
    (hnew : ∀ n, w[i]? = some n → n.ListedBy i []) (hbooked : Booked i k (.new w))
    (h : Undisturbed (.new w) i steps) : Booked i k ((Traffic.new w).run steps) := by
  suffices hall : ∀ before after, steps = before ++ after →
      Booked i k ((Traffic.new w).run before) from hall steps [] (List.append_nil _).symm
  intro before
  induction before using List.reverseRecOn with
  | nil => exact fun _ _ => hbooked
  | append_singleton before step ih =>
    intro after hsteps
    have hsteps' : steps = before ++ step :: after := by rw [hsteps, ← List.append_cons]
    obtain ⟨z, hsound, hcurrent, htraffic⟩ := exists_current hnew before
    have hbefore := ih (step :: after) hsteps'
    have hadmits := h.admits hk hsteps'
    rw [Traffic.run_append]
    rw [← htraffic] at hbefore hadmits ⊢
    exact hbefore.step hsound hcurrent hadmits

end CloudRoster
