import CloudRoster.Node.Traffic
import CloudRoster.Proofs.Cache.LockTable

/-!
# What operations hold and wait for

An operation holds its site at home during its rounds, and waits for it before. Its visit waits for
the site at the peer; it gives the site back in the step in which it got it. So the phases of the
operations say of every claimant what it holds and what it waits for, and the lock table of the
nodes follows them. A step changes this for one operation: first in the lock table, then in its
phase. In between the table follows the phases of the others, and the sites that the operation has
by then (`TracksWith`).
-/

namespace CloudRoster

open Cache (LockTable)
open Cache.LockTable (assign)

/-- The site that the visit of a round waits for. -/
def Round.asked? (r : Round) : Option Site :=
  match r.awaited with
  | .visit v _ _ => if v.stage = .asked then some v.site else none
  | .outside => none

/-- Sites at home and on a visit, by whether it is the visit. -/
def sites (home visit : Option Site) : Bool → Option Site
  | false => home
  | true => visit

theorem assign_home (home visit x : Option Site) :
    assign (sites home visit) false x = sites x visit := by
  funext b
  cases b <;> rfl

theorem assign_visit (home visit x : Option Site) :
    assign (sites home visit) true x = sites home x := by
  funext b
  cases b <;> rfl

namespace Operation

/-- The site that an operation holds. -/
def holds? (o : Operation) : Bool → Option Site :=
  match o.phase with
  | .round c _ => sites (some (o.node, c.subject)) none
  | _ => sites none none

/-- The sites that an operation waits for. -/
def asks? (o : Operation) : Bool → Option Site :=
  match o.phase with
  | .waiting c => sites (some (o.node, c.subject)) none
  | .round _ r => sites none r.asked?
  | _ => sites none none

variable {o : Operation} {c : Change} {r : Round} {visiting : Bool} {site : Site}

theorem holds?_fresh (h : o.phase = .fresh) : o.holds? = sites none none := by
  unfold holds?
  rw [h]

theorem asks?_fresh (h : o.phase = .fresh) : o.asks? = sites none none := by
  unfold asks?
  rw [h]

theorem holds?_waiting (h : o.phase = .waiting c) : o.holds? = sites none none := by
  unfold holds?
  rw [h]

theorem asks?_waiting (h : o.phase = .waiting c) :
    o.asks? = sites (some (o.node, c.subject)) none := by
  unfold asks?
  rw [h]

theorem holds?_round (h : o.phase = .round c r) :
    o.holds? = sites (some (o.node, c.subject)) none := by
  unfold holds?
  rw [h]

theorem asks?_round (h : o.phase = .round c r) : o.asks? = sites none r.asked? := by
  unfold asks?
  rw [h]

/-- An operation holds only the site of its subject at home, and only in its rounds. -/
theorem of_holds? (h : o.holds? visiting = some site) :
    ∃ c r, o.phase = .round c r ∧ visiting = false ∧ site = (o.node, c.subject) := by
  cases hphase : o.phase with
  | round c r =>
    rw [holds?_round hphase] at h
    cases visiting with
    | false => exact ⟨c, r, rfl, rfl, (Option.some.inj h).symm⟩
    | true => cases h
  | fresh | waiting _ | storing _ _ | ended _ | abandoned =>
    unfold holds? at h
    rw [hphase] at h
    cases visiting <;> cases h

/-- An operation waits for a site at home before its rounds, and for that of its visit in them. -/
theorem of_asks? (h : o.asks? visiting = some site) :
    (∃ c, o.phase = .waiting c ∧ visiting = false ∧ site = (o.node, c.subject)) ∨
      ∃ c r, o.phase = .round c r ∧ visiting = true ∧ r.asked? = some site := by
  cases hphase : o.phase with
  | waiting c =>
    rw [asks?_waiting hphase] at h
    cases visiting with
    | false => exact .inl ⟨c, rfl, rfl, (Option.some.inj h).symm⟩
    | true => cases h
  | round c r =>
    rw [asks?_round hphase] at h
    cases visiting with
    | false => cases h
    | true => exact .inr ⟨c, r, rfl, rfl, h⟩
  | fresh | storing _ _ | ended _ | abandoned =>
    unfold asks? at h
    rw [hphase] at h
    cases visiting <;> cases h

end Operation

namespace Traffic

/-! ## Claimants -/

/-- The site of a claimant, by what is known of the sites of operations. -/
def siteOf (f : Operation → Bool → Option Site) (ops : List Operation) (who : Claimant) :
    Option Site :=
  (ops[who.operation]?).bind (f · who.visiting)

/-- The site that a claimant holds. -/
abbrev holding (ops : List Operation) : Claimant → Option Site := siteOf Operation.holds? ops

/-- The site that a claimant waits for. -/
abbrev pending (ops : List Operation) : Claimant → Option Site := siteOf Operation.asks? ops

/-- A function of claimants that says one thing of an operation and another of all others. -/
def withOwn (id : Nat) (own : Bool → Option Site) (others : Claimant → Option Site) :
    Claimant → Option Site :=
  fun who => if who.operation = id then own who.visiting else others who

section

variable (f : Operation → Bool → Option Site) {ops : List Operation} {id : Nat} {o : Operation}

theorem withOwn_self (own : Bool → Option Site) (others : Claimant → Option Site)
    (visiting : Bool) : withOwn id own others ⟨id, visiting⟩ = own visiting := if_pos rfl

theorem assign_withOwn (own : Bool → Option Site) (others : Claimant → Option Site)
    (visiting : Bool) (x : Option Site) :
    assign (withOwn id own others) ⟨id, visiting⟩ x =
      withOwn id (assign own visiting x) others := by
  funext ⟨j, b⟩
  unfold assign withOwn
  by_cases hj : j = id
  · subst hj
    by_cases hb : b = visiting
    · simp [hb]
    · simp [hb]
  · simp [hj]

theorem siteOf_self (hop : ops[id]? = some o) (visiting : Bool) :
    siteOf f ops ⟨id, visiting⟩ = f o visiting := by
  unfold siteOf
  rw [hop]
  rfl

theorem withOwn_siteOf (hop : ops[id]? = some o) :
    withOwn id (f o) (siteOf f ops) = siteOf f ops := by
  funext ⟨j, b⟩
  unfold withOwn siteOf
  by_cases hj : j = id
  · subst hj
    simp [hop]
  · simp [hj]

/-- When an operation enters another phase, all others are as before. -/
theorem siteOf_modify (hop : ops[id]? = some o) (p : Phase) :
    siteOf f (ops.modify id fun o => { o with phase := p }) =
      withOwn id (f { o with phase := p }) (siteOf f ops) := by
  funext ⟨j, b⟩
  unfold withOwn siteOf
  rw [List.getElem?_modify]
  by_cases hj : j = id
  · subst hj
    simp [hop]
  · simp [hj, Ne.symm hj]

/-- An operation that has no sites yet changes nothing when it is started. -/
theorem siteOf_append (ops : List Operation) {o : Operation} (ho : f o = sites none none) :
    siteOf f (ops ++ [o]) = siteOf f ops := by
  funext ⟨j, b⟩
  unfold siteOf
  rcases Nat.lt_trichotomy j ops.length with hlt | heq | hgt
  · rw [List.getElem?_append_left hlt]
  · subst heq
    simp only [List.getElem?_concat_length, List.getElem?_eq_none (Nat.le_refl _), Option.bind_some,
      ho]
    cases b <;> rfl
  · rw [List.getElem?_eq_none (by simpa using Nat.succ_le_of_lt hgt),
      List.getElem?_eq_none (Nat.le_of_lt hgt)]

theorem of_getElem?_modify (hop : ops[id]? = some o) {p : Phase} {j : Nat} {o' : Operation}
    (h : (ops.modify id fun o => { o with phase := p })[j]? = some o') :
    (j = id ∧ o' = { o with phase := p }) ∨ (j ≠ id ∧ ops[j]? = some o') := by
  by_cases hj : j = id
  · subst hj
    rw [List.getElem?_modify_eq, hop] at h
    exact .inl ⟨rfl, (Option.some.inj h).symm⟩
  · rw [List.getElem?_modify_ne _ _ (Ne.symm hj)] at h
    exact .inr ⟨hj, h⟩

theorem getElem?_enter_self {t u : Traffic} (hops : u.operations = t.operations)
    (hop : t.operations[id]? = some o) (p : Phase) :
    (u.enter id p).operations[id]? = some { o with phase := p } := by
  show (u.operations.modify id fun o => { o with phase := p })[id]? = _
  rw [hops, List.getElem?_modify_eq, hop]
  rfl

/-- An operation that has entered a phase is in it. -/
theorem eq_of_getElem?_modify (hop : ops[id]? = some o) {p : Phase} {o' : Operation}
    (h : (ops.modify id fun o => { o with phase := p })[id]? = some o') :
    o' = { o with phase := p } := by
  rcases of_getElem?_modify hop h with ⟨-, rfl⟩ | ⟨hne, -⟩
  · rfl
  · exact absurd rfl hne

end

/-! ## The lock table during a step -/

/-- No other operation holds a site. -/
def FreeFor (t : Traffic) (id : Nat) (site : Site) : Prop :=
  ∀ who, who.operation ≠ id → holding t.operations who ≠ some site

/-- A lock table follows the phases of all operations but one, of which the sites `own` are held and
the sites `wants` waited for. -/
def TracksWith (t : Traffic) (id : Nat) (own wants : Bool → Option Site)
    (locks : LockTable Site Claimant) : Prop :=
  locks.Tracks (withOwn id own (holding t.operations)) (withOwn id wants (pending t.operations))

variable {t : Traffic} {id : Nat} {own wants : Bool → Option Site} {locks : LockTable Site Claimant}
  {b : Bool} {site : Site}

theorem freeFor_of_forall (h : ∀ who, withOwn id own (holding t.operations) who ≠ some site) :
    t.FreeFor id site := by
  intro who hwho
  rw [← show withOwn id own (holding t.operations) who = holding t.operations who from if_neg hwho]
  exact h who

/-- The operation asks for a site, and holds it from then on or waits for it. -/
theorem TracksWith.ask (h : t.TracksWith id own wants locks) (hown : own b = none)
    (hwants : wants b = none) (site : Site) :
    ((locks.ask site ⟨id, b⟩).2 = true ∧ t.FreeFor id site ∧
      t.TracksWith id (assign own b (some site)) wants (locks.ask site ⟨id, b⟩).1) ∨
    ((locks.ask site ⟨id, b⟩).2 = false ∧
      t.TracksWith id own (assign wants b (some site)) (locks.ask site ⟨id, b⟩).1) := by
  unfold TracksWith at *
  rw [← assign_withOwn, ← assign_withOwn]
  rcases LockTable.Tracks.ask h (i := ⟨id, b⟩) ((withOwn_self ..).trans hown)
    ((withOwn_self ..).trans hwants) site with ⟨hgot, hfree, hlocks⟩ | ⟨hgot, hlocks⟩
  · exact .inl ⟨hgot, freeFor_of_forall hfree, hlocks⟩
  · exact .inr ⟨hgot, hlocks⟩

/-- The operation picks up a site that it was handed. -/
theorem TracksWith.pickUp (h : t.TracksWith id own wants locks) (hown : own b = none)
    (hhanded : locks.isHanded site ⟨id, b⟩ = true) :
    t.FreeFor id site ∧ t.TracksWith id (assign own b (some site))
      (assign wants b none) (locks.pickUp site ⟨id, b⟩) := by
  unfold TracksWith at *
  rw [← assign_withOwn, ← assign_withOwn]
  obtain ⟨-, hfree, hlocks⟩ :=
    LockTable.Tracks.pickUp h (i := ⟨id, b⟩) ((withOwn_self ..).trans hown) hhanded
  exact ⟨freeFor_of_forall hfree, hlocks⟩

/-- The operation gives a site back. -/
theorem TracksWith.release (h : t.TracksWith id own wants locks) (hown : own b = some site) :
    t.TracksWith id (assign own b none) wants (locks.release site ⟨id, b⟩) := by
  unfold TracksWith at *
  rw [← assign_withOwn]
  exact LockTable.Tracks.release h ((withOwn_self ..).trans hown)

/-- The operation leaves the line of a site; another claimant holds the site or was handed it. -/
theorem TracksWith.leave (h : t.TracksWith id own wants locks) (hown : own b = none)
    (hwants : wants b = some site) (hhanded : locks.isHanded site ⟨id, b⟩ = false) :
    t.TracksWith id own (assign wants b none) (locks.leave site ⟨id, b⟩) ∧
      ∃ who, who ≠ ⟨id, b⟩ ∧ (withOwn id own (holding t.operations) who = some site ∨
        (withOwn id wants (pending t.operations) who = some site ∧
          locks.isHanded site who = true)) := by
  unfold TracksWith at *
  rw [← assign_withOwn]
  exact LockTable.Tracks.leave h ((withOwn_self ..).trans hown) ((withOwn_self ..).trans hwants)
    hhanded

end Traffic

end CloudRoster
