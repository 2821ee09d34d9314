import CloudRoster.Proofs.Node.Claims
import CloudRoster.Proofs.Node.Pair

/-!
# Two nodes come together

Operations on two connected nodes run at the same time, in any order of their steps. During an
operation the nodes may hold different values, and two operations that need each other's site wait
until a round runs out of time and leaves its message undelivered. What makes the nodes equal again
is then another operation on the same subject that has not ended: one that has committed its change
at home and still tells the other node, or one that waits and will have something to tell
(`Operation.Carries`).

The invariant `Converging` says that there is such an operation whenever the nodes differ
(`Converging.agreed`). A round that runs out of time leaves such an operation behind, with one
exception: its site at the other node may have been handed to a removal of a value that is no longer
there, which has nothing to tell (`Strands`).
-/

namespace CloudRoster

open Cache (LockTable)

namespace Operation

/-- An operation on one of two nodes is about a change at home that it tells the other node. -/
def Sound (o : Operation) : Prop :=
  o.node < 2 ∧ match o.phase with
    | .fresh => o.task.Local
    | .waiting c => c.Local
    | .round c r => c.Local ∧ ∃ action later name deadline stage, c.Tells action later ∧
        stage ≠ .committed ∧ r = .telling o.node c action later name deadline stage
    | .ended _ => True
    | .storing _ _ | .abandoned => False

/-- Whether an operation has something about a subject to tell the other node: it is under way, or
it waits with a value or with the removal of a value that its node holds. -/
def Carries (w : World) (s : (k : Kind) × k.Key) (o : Operation) : Prop :=
  match o.phase with
  | .round c _ => c.subject = s
  | .waiting c => c.subject = s ∧ (c.action = .update ∨ (w.valueAt (o.node, s)).isSome = true)
  | _ => False

variable {o : Operation} {c : Change} {r : Round} {w : World} {s : (k : Kind) × k.Key}

theorem not_carries_fresh (hphase : o.phase = .fresh) : ¬ o.Carries w s := by
  unfold Carries
  rw [hphase]
  exact id

theorem carries_waiting (hphase : o.phase = .waiting c) : o.Carries w s ↔
    c.subject = s ∧ (c.action = .update ∨ (w.valueAt (o.node, s)).isSome = true) := by
  unfold Carries
  rw [hphase]

theorem carries_round (hphase : o.phase = .round c r) : o.Carries w s ↔ c.subject = s := by
  unfold Carries
  rw [hphase]

theorem eq_subject_of_carries (hphase : o.phase = .round c r) :
    ∀ s, o.Carries w s → s = c.subject :=
  fun _ hcarries => ((carries_round hphase).1 hcarries).symm

/-- `Carries` depends on what the nodes hold of the subject only. -/
theorem carries_congr (o : Operation) {w w' : World} {s : (k : Kind) × k.Key}
    (h : ∀ i, w.valueAt (i, s) = w'.valueAt (i, s)) : o.Carries w s ↔ o.Carries w' s := by
  unfold Carries
  simp only [h]

end Operation

namespace Traffic

variable {id : Nat} {o : Operation}

/-! ## The invariant -/

/-- Both nodes hold the same value of a subject, or none. -/
def Agree (w : World) (s : (k : Kind) × k.Key) : Prop := w.valueAt (0, s) = w.valueAt (1, s)

/-- It does not matter in which order the nodes are named. -/
theorem agree_iff_other {w : World} {i : Nat} {s : (k : Kind) × k.Key} (hi : i < 2) :
    Agree w s ↔ w.valueAt (1 - i, s) = w.valueAt (i, s) := by
  unfold Agree
  rcases Nat.le_one_iff_eq_zero_or_eq_one.1 (Nat.le_of_lt_succ hi) with rfl | rfl
  · exact eq_comm
  · exact Iff.rfl

/-- Two nodes and the operations on them: every site has at most one holder, which has put the value
there that it tells the other node; and where the nodes differ, an operation carries the subject. -/
structure Converging (t : Traffic) : Prop where
  pair : t.world.Pair
  sound : ∀ (id : Nat) (o : Operation), t.operations[id]? = some o → o.Sound
  tracks : t.locks.Tracks (holding t.operations) (pending t.operations)
  own : ∀ (id : Nat) (o : Operation) (c : Change) (r : Round), t.operations[id]? = some o →
    o.phase = .round c r → t.world.valueAt (o.node, c.subject) = c.left
  agreed : ∀ s : (k : Kind) × k.Key, s.1.Unguarded → Agree t.world s ∨
    ∃ (id : Nat) (o : Operation), t.operations[id]? = some o ∧ o.Carries t.world s

/-- An operation in a round has its value at home if the change of the round has. -/
theorem own_of_round {w : World} {node : Nat} {c : Change} {r : Round}
    (h : w.valueAt (node, c.subject) = c.left) (c' : Change) (r' : Round)
    (heq : Phase.round c r = .round c' r') : w.valueAt (node, c'.subject) = c'.left := by
  cases heq
  exact h

/-- An operation enters another phase. Values have changed only of its own subject, where no other
operation holds the site. -/
theorem Converging.enter {t : Traffic} (h : t.Converging) (hop : t.operations[id]? = some o)
    {w : World} {locks : LockTable Site Claimant} {journal : List Note} {p : Phase}
    {s : (k : Kind) × k.Key} (hpair : w.Pair) (hsound : ({ o with phase := p } : Operation).Sound)
    (hsubject : ∀ s', o.Carries t.world s' → s' = s)
    (hworld : ∀ site, w.valueAt site = t.world.valueAt site ∨
      (site.2 = s ∧ t.FreeFor id site))
    (hlocks : t.TracksWith id ({ o with phase := p } : Operation).holds?
      ({ o with phase := p } : Operation).asks? locks)
    (hown : ∀ c r, p = .round c r → w.valueAt (o.node, c.subject) = c.left)
    (hagreed : Agree w s ∨ ({ o with phase := p } : Operation).Carries w s ∨
      ∃ (j : Nat) (o' : Operation), j ≠ id ∧ t.operations[j]? = some o' ∧ o'.Carries w s) :
    (Traffic.enter { t with world := w, locks := locks, journal := journal } id p).Converging := by
  -- every part of the invariant is about this operation, which has entered its phase, or about
  -- another one, which is as before
  have hself : (t.operations.modify id fun o => { o with phase := p })[id]? =
      some { o with phase := p } := by
    rw [List.getElem?_modify_eq, hop]
    rfl
  have hother : ∀ j, j ≠ id →
      (t.operations.modify id fun o => { o with phase := p })[j]? = t.operations[j]? :=
    fun j hj => List.getElem?_modify_ne _ _ (Ne.symm hj)
  refine ⟨hpair, ?_, ?_, ?_, ?_⟩
  · intro j o' ho'
    rcases of_getElem?_modify hop ho' with ⟨rfl, rfl⟩ | ⟨hj, ho'⟩
    · exact hsound
    · exact h.sound j o' ho'
  · show locks.Tracks (siteOf _ (t.operations.modify id _)) (siteOf _ (t.operations.modify id _))
    rw [siteOf_modify _ hop, siteOf_modify _ hop]
    exact hlocks
  · intro j o' c r ho' hphase
    rcases of_getElem?_modify hop ho' with ⟨rfl, rfl⟩ | ⟨hj, ho'⟩
    · exact hown c r hphase
    · show w.valueAt (o'.node, c.subject) = c.left
      rcases hworld (o'.node, c.subject) with hsame | ⟨-, hfree⟩
      · rw [hsame]
        exact h.own j o' c r ho' hphase
      · -- the other operation holds the site
        refine absurd ?_ (hfree ⟨j, false⟩ hj)
        simp only [siteOf, ho', Option.bind_some, Operation.holds?_round hphase, sites]
  · intro s' hs'
    by_cases hss' : s' = s
    · subst hss'
      rcases hagreed with hagree | hcarries | ⟨j, o', hj, ho', hcarries⟩
      · exact .inl hagree
      · exact .inr ⟨id, _, hself, hcarries⟩
      · exact .inr ⟨j, o', (hother j hj).trans ho', hcarries⟩
    · -- another subject: its values and those who carry it are as before
      have hsame : ∀ i, w.valueAt (i, s') = t.world.valueAt (i, s') := by
        intro i
        rcases hworld (i, s') with hsame | ⟨he, -⟩
        · exact hsame
        · exact absurd he hss'
      rcases h.agreed s' hs' with hagree | ⟨j, o', ho', hcarries⟩
      · left
        show w.valueAt (0, s') = w.valueAt (1, s')
        rw [hsame, hsame]
        exact hagree
      · right
        have hj : j ≠ id := by
          rintro rfl
          rw [hop] at ho'
          cases ho'
          exact hss' (hsubject s' hcarries)
        refine ⟨j, o', (hother j hj).trans ho', ?_⟩
        exact (o'.carries_congr hsame).2 hcarries

/-- Where the nodes differ and one operation does not carry the subject, another one does. -/
theorem Converging.others {t : Traffic} (h : t.Converging) (hop : t.operations[id]? = some o)
    {s : (k : Kind) × k.Key} (hkind : s.1.Unguarded) (hcarries : ¬ o.Carries t.world s) {w : World}
    (hsame : ∀ i, w.valueAt (i, s) = t.world.valueAt (i, s)) :
    Agree w s ∨ ∃ (j : Nat) (o' : Operation),
      j ≠ id ∧ t.operations[j]? = some o' ∧ o'.Carries w s := by
  rcases h.agreed s hkind with hagree | ⟨j, o', ho', hcarries'⟩
  · left
    show w.valueAt (0, s) = w.valueAt (1, s)
    rw [hsame, hsame]
    exact hagree
  · right
    refine ⟨j, o', ?_, ho', (o'.carries_congr hsame).2 hcarries'⟩
    rintro rfl
    rw [hop] at ho'
    cases ho'
    exact hcarries hcarries'

/-- The locks follow the phase of an operation as well as those of the others. -/
theorem Converging.tracksWith {t : Traffic} (h : t.Converging) (hop : t.operations[id]? = some o) :
    t.TracksWith id o.holds? o.asks? t.locks := by
  unfold TracksWith
  rw [withOwn_siteOf _ hop, withOwn_siteOf _ hop]
  exact h.tracks

/-! ## The steps at home -/

/-- An operation that has its site, and waits for nothing, gives the site back and ends. -/
theorem Converging.finish {t : Traffic} (h : t.Converging) (hop : t.operations[id]? = some o)
    {w : World} {locks : LockTable Site Claimant} {journal : List Note} {c : Change}
    (result : Except SyncError Unit) (hpair : w.Pair)
    (hsubject : ∀ s', o.Carries t.world s' → s' = c.subject)
    (hworld : ∀ site, w.valueAt site = t.world.valueAt site ∨
      (site.2 = c.subject ∧ t.FreeFor id site))
    (hlocks : t.TracksWith id (sites (some (o.node, c.subject)) none) (sites none none) locks)
    (hagreed : Agree w c.subject ∨ ∃ (j : Nat) (o' : Operation),
      j ≠ id ∧ t.operations[j]? = some o' ∧ o'.Carries w c.subject) :
    (Traffic.finish { t with world := w, locks := locks, journal := journal } id o c
      result).Converging := by
  have hreleased := hlocks.release (b := false) rfl
  rw [assign_home] at hreleased
  have hsound : ({ o with phase := .ended (o.task.outcome result) } : Operation).Sound :=
    ⟨(h.sound id o hop).1, trivial⟩
  exact h.enter hop hpair hsound hsubject hworld hreleased (fun c r e => by cases e)
    (hagreed.imp_right .inr)

/-- An operation that has just got its site carries out its change. -/
theorem Converging.carryOut {t : Traffic} (h : t.Converging) (hop : t.operations[id]? = some o)
    {c : Change} (hphase : o.phase = .fresh ∨ o.phase = .waiting c) (hlocal : c.Local)
    {locks : LockTable Site Claimant} (journal : List Note)
    (hlocks : t.TracksWith id (sites (some (o.node, c.subject)) none) (sites none none) locks)
    (hfree : t.FreeFor id (o.node, c.subject)) :
    (Traffic.carryOut { t with locks := locks, journal := journal } id o c).Converging := by
  have ho := (h.sound id o hop).1
  obtain ⟨w, journal', hpair, hself, hothers, hends⟩ :=
    carryOut_eq (t := { t with locks := locks, journal := journal }) h.pair ho id hlocal
  have hsubject : ∀ s', o.Carries t.world s' → s' = c.subject := by
    intro s' hcarries
    rcases hphase with hphase | hphase
    · exact absurd hcarries (Operation.not_carries_fresh hphase)
    · exact ((Operation.carries_waiting hphase).1 hcarries).1.symm
  have hworld : ∀ site, w.valueAt site = t.world.valueAt site ∨
      (site.2 = c.subject ∧ t.FreeFor id site) := by
    intro site
    by_cases hsite : site = (o.node, c.subject)
    · subst hsite
      exact .inr ⟨rfl, hfree⟩
    · exact .inl (hothers site hsite)
  rcases hends with ⟨hdelete, hnone, heq⟩ | ⟨action, later, name, deadline, htells, heq⟩
  · -- there was nothing to remove, so nothing has changed
    have hsame : ∀ i, w.valueAt (i, c.subject) = t.world.valueAt (i, c.subject) := by
      intro i
      by_cases hi : i = o.node
      · subst hi
        rw [hself, hnone]
        unfold Change.left
        rw [hdelete]
        rfl
      · exact hothers (i, c.subject) fun e => hi (Prod.mk.inj e).1
    rw [heq]
    refine h.finish hop (.ok ()) hpair hsubject hworld hlocks (h.others hop hlocal.kind ?_ hsame)
    rcases hphase with hphase | hphase
    · exact Operation.not_carries_fresh hphase
    · rw [Operation.carries_waiting hphase]
      rintro ⟨-, hupdate | hsome⟩
      · rw [hdelete] at hupdate
        cases hupdate
      · rw [show t.world.valueAt (o.node, c.subject) = none from hnone] at hsome
        cases hsome
  · -- the other node will be told
    let p : Phase := .round c (.telling o.node c action later name deadline .coming)
    have hsound : ({ o with phase := p } : Operation).Sound :=
      ⟨ho, hlocal, action, later, name, deadline, .coming, htells, nofun, rfl⟩
    rw [heq]
    exact h.enter hop hpair hsound hsubject hworld hlocks (own_of_round hself) (.inr (.inl rfl))

/-- An operation that begins its change gets its site and carries the change out, or waits. -/
theorem Converging.request {t : Traffic} (h : t.Converging) (hop : t.operations[id]? = some o)
    (hphase : o.phase = .fresh) {c : Change} (hlocal : c.Local) :
    (t.request id o c).Converging := by
  have hlocks := h.tracksWith hop
  rw [Operation.holds?_fresh hphase, Operation.asks?_fresh hphase] at hlocks
  unfold Traffic.request
  rcases hlocks.ask (b := false) rfl rfl (o.node, c.subject) with
    ⟨hgot, hfree, hlocks⟩ | ⟨hgot, hlocks⟩
  · rw [assign_home] at hlocks
    simp only [claim, hgot]
    exact h.carryOut hop (.inl hphase) hlocal _ hlocks hfree
  · rw [assign_home] at hlocks
    simp only [claim, hgot]
    have hsound : ({ o with phase := .waiting c } : Operation).Sound :=
      ⟨(h.sound id o hop).1, hlocal⟩
    have hnot : ∀ s, ¬ o.Carries t.world s := fun s => Operation.not_carries_fresh hphase
    have hagreed := h.others hop hlocal.kind (hnot c.subject) fun _ => rfl
    exact h.enter hop h.pair hsound (fun s' hs' => absurd hs' (hnot s')) (fun _ => .inl rfl) hlocks
      (fun _ _ e => by cases e) (hagreed.imp_right .inr)

/-- An operation that was handed its site goes on. -/
theorem Converging.goOn {t : Traffic} (h : t.Converging) (hop : t.operations[id]? = some o)
    {c : Change} (hphase : o.phase = .waiting c)
    (hhanded : t.locks.isHanded (o.node, c.subject) ⟨id, false⟩ = true) :
    ((t.pickUp (o.node, c.subject) ⟨id, false⟩).carryOut id o c).Converging := by
  have hlocal : c.Local := by
    have hsound := (h.sound id o hop).2
    rw [hphase] at hsound
    exact hsound
  have hlocks := h.tracksWith hop
  rw [Operation.holds?_waiting hphase, Operation.asks?_waiting hphase] at hlocks
  obtain ⟨hfree, hlocks⟩ := hlocks.pickUp (b := false) rfl hhanded
  rw [assign_home, assign_home] at hlocks
  exact h.carryOut hop (.inr hphase) hlocal t.journal hlocks hfree

/-- An operation begins. -/
theorem Converging.begin {t : Traffic} (h : t.Converging) (hop : t.operations[id]? = some o)
    (hphase : o.phase = .fresh) : (t.begin id o).Converging := by
  obtain ⟨ho, htask⟩ := h.sound id o hop
  rw [hphase] at htask
  unfold Traffic.begin
  cases hcase : o.task with
  | change c =>
    rw [hcase] at htask
    exact h.request hop hphase htask
  | message m =>
    rw [hcase] at htask
    exact htask.elim
  | deleteTemplate name =>
    dsimp only
    cases (t.world[o.node]?).bind (·.lists.templates.find? (.ofName name)) with
    | some v => exact h.request hop hphase ⟨rfl, .inl rfl⟩
    | none =>
      -- there is no such template, so the operation has nothing to do
      have hlocks := h.tracksWith hop
      rw [Operation.holds?_fresh hphase, Operation.asks?_fresh hphase] at hlocks
      have hnot : ∀ s, ¬ o.Carries t.world s := fun s => Operation.not_carries_fresh hphase
      let s : (k : Kind) × k.Key := ⟨.template, .ofName name⟩
      have hagreed := h.others hop (s := s) (.inl rfl) (hnot s) fun _ => rfl
      have hsound : ({ o with phase := .ended (.result (.ok ())) } : Operation).Sound :=
        ⟨ho, trivial⟩
      exact h.enter hop h.pair hsound (fun s' hs' => absurd hs' (hnot s')) (fun _ => .inl rfl)
        hlocks (fun c r e => by cases e) (hagreed.imp_right .inr)

/-! ## The steps of a visit -/

/-- A visit that has just got its site commits the change at the other node, and its operation goes
on to its end or to the round of the removal. -/
theorem Converging.visited {t : Traffic} (h : t.Converging) (hop : t.operations[id]? = some o)
    {c : Change} {action : Action} {later : List CacheUpdate} {name : String} {deadline : Nat}
    {stage : Stage} (hlocal : c.Local) (htells : c.Tells action later)
    (hphase : o.phase = .round c (.telling o.node c action later name deadline stage))
    {locks : LockTable Site Claimant} (journal : List Note)
    (hlocks : t.TracksWith id (sites (some (o.node, c.subject)) (some (1 - o.node, c.subject)))
      (sites none none) locks)
    (hfree : t.FreeFor id (1 - o.node, c.subject)) :
    let (t', visited) := Traffic.commitVisit { t with locks := locks, journal := journal } id
      (.other o.node c action name stage)
    (t'.afterVisit id o c (.telling o.node c action later name deadline stage) [] ⟨1, 0, []⟩ name
      visited).Converging := by
  have ho := (h.sound id o hop).1
  have hne : (o.node, c.subject) ≠ (1 - o.node, c.subject) := by
    intro e
    have := (Prod.mk.inj e).1
    omega
  obtain ⟨w, journal', hpair, hother, hothers, heq⟩ :=
    commitVisit_eq (t := { t with locks := locks, journal := journal }) h.pair ho id hlocal action
      name stage
  rw [heq]
  have hself : w.valueAt (o.node, c.subject) = c.left := by
    rw [hothers _ hne]
    exact h.own id o c _ hop hphase
  have hsubject := Operation.eq_subject_of_carries (w := t.world) hphase
  have hworld : ∀ site, w.valueAt site = t.world.valueAt site ∨
      (site.2 = c.subject ∧ t.FreeFor id site) := by
    intro site
    by_cases hsite : site = (1 - o.node, c.subject)
    · subst hsite
      exact .inr ⟨rfl, hfree⟩
    · exact .inl (hothers site hsite)
  have hreleased := hlocks.release (b := true) rfl
  rw [assign_visit] at hreleased
  let t' : Traffic := { t with
    world := w
    journal := journal'
    locks := locks.release (1 - o.node, c.subject) ⟨id, true⟩ }
  show (t'.afterVisit id o c _ [] ⟨1, 0, []⟩ name (.inl .ack)).Converging
  rcases afterVisit_ack (t := t') hpair ho id htells name deadline stage with
    ⟨haction, hafter⟩ | ⟨hdelete, w', journal'', name', deadline', hpair', hsame, hafter⟩
  · rw [hafter]
    refine h.finish hop (.ok ()) hpair hsubject hworld hreleased (.inl ?_)
    -- both nodes hold what the change leaves behind
    refine (agree_iff_other ho).2 ?_
    rw [hself, hother, haction]
    rfl
  · rw [hafter]
    let p : Phase := .round c (.telling o.node c .delete [] name' deadline' .coming)
    have hsound : ({ o with phase := p } : Operation).Sound :=
      ⟨ho, hlocal, .delete, [], name', deadline', .coming, .inl ⟨hdelete.symm, rfl⟩, nofun, rfl⟩
    have hself' : w'.valueAt (o.node, c.subject) = c.left := (hsame _).trans hself
    have hworld' : ∀ site, w'.valueAt site = t.world.valueAt site ∨
        (site.2 = c.subject ∧ t.FreeFor id site) := by
      intro site
      rw [hsame]
      exact hworld site
    exact h.enter hop hpair' hsound hsubject hworld' hreleased (own_of_round hself')
      (.inr (.inl rfl))

/-- The visit of a round asks for its site, or looks whether it was handed it. -/
theorem Converging.lookRound {t : Traffic} (h : t.Converging) (hop : t.operations[id]? = some o)
    {c : Change} {r : Round} (hphase : o.phase = .round c r) : (t.poll id o).Converging := by
  obtain ⟨ho, hround⟩ := h.sound id o hop
  rw [hphase] at hround
  obtain ⟨hlocal, action, later, name, deadline, stage, htells, hstage, rfl⟩ := hround
  have hlocks := h.tracksWith hop
  rw [Operation.holds?_round hphase, Operation.asks?_round hphase] at hlocks
  unfold Traffic.poll
  rw [hphase]
  cases stage with
  | committed => exact absurd rfl hstage
  | coming =>
    show (match t.askVisit id (.other o.node c action name .coming) with
      | (t, visited) => t.afterVisit id o c (.telling o.node c action later name deadline .coming)
          [] ⟨1, 0, []⟩ name visited).Converging
    have hsite : (Visit.other o.node c action name .coming).site = (1 - o.node, c.subject) := rfl
    unfold Traffic.askVisit
    rw [hsite]
    rcases hlocks.ask (b := true) rfl rfl (1 - o.node, c.subject) with
      ⟨hgot, hfree, hlocks⟩ | ⟨hgot, hlocks⟩
    · rw [assign_visit] at hlocks
      simp only [claim, hgot]
      exact h.visited hop hlocal htells hphase _ hlocks hfree
    · rw [assign_visit] at hlocks
      simp only [claim, hgot]
      let p : Phase := .round c (.telling o.node c action later name deadline .asked)
      have hsound : ({ o with phase := p } : Operation).Sound :=
        ⟨ho, hlocal, action, later, name, deadline, .asked, htells, nofun, rfl⟩
      have hsubject := Operation.eq_subject_of_carries (w := t.world) hphase
      have hself := h.own id o c _ hop hphase
      exact h.enter hop h.pair hsound hsubject (fun _ => .inl rfl) hlocks (own_of_round hself)
        (.inr (.inl rfl))
  | asked =>
    show (if t.locks.isHanded (1 - o.node, c.subject) ⟨id, true⟩ = true then
        match (t.pickUp (1 - o.node, c.subject) ⟨id, true⟩).commitVisit id
            (.other o.node c action name .asked) with
        | (t, visited) => t.afterVisit id o c (.telling o.node c action later name deadline .asked)
            [] ⟨1, 0, []⟩ name visited
      else t).Converging
    split
    · rename_i hhanded
      obtain ⟨hfree, hlocks⟩ := hlocks.pickUp (b := true) rfl hhanded
      rw [assign_visit, assign_visit] at hlocks
      exact h.visited hop hlocal htells hphase t.journal hlocks hfree
    · exact h

/-- An operation looks whether it can go on. -/
theorem Converging.poll {t : Traffic} (h : t.Converging) (hop : t.operations[id]? = some o) :
    (t.poll id o).Converging := by
  cases hphase : o.phase with
  | fresh =>
    have hbegin := h.begin hop hphase
    unfold Traffic.poll
    rw [hphase]
    exact hbegin
  | waiting c =>
    unfold Traffic.poll
    rw [hphase]
    dsimp only
    split
    · rename_i hhanded
      exact h.goOn hop hphase hhanded
    · exact h
  | round c r => exact h.lookRound hop hphase
  | storing c result | ended outcome | abandoned =>
    unfold Traffic.poll
    rw [hphase]
    exact h

/-! ## The end of a round's time -/

/-- A round runs out of time while its site at the other node was handed to the removal of a value
that is no longer there, and nobody else has anything to tell of it. -/
def Strands (t : Traffic) (id : Nat) : Prop :=
  ∃ (o : Operation) (c : Change) (r : Round) (j : Nat) (o' : Operation) (c' : Change),
    t.operations[id]? = some o ∧ o.phase = .round c r ∧ r.deadline ≤ t.clock ∧
    t.operations[j]? = some o' ∧ o'.phase = .waiting c' ∧ c'.action = .delete ∧
    r.asked? = some (o'.node, c'.subject) ∧
    t.locks.isHanded (o'.node, c'.subject) ⟨j, false⟩ = true ∧
    t.world.valueAt (o'.node, c'.subject) = none ∧
    (t.world.valueAt (o.node, c.subject)).isSome = true ∧
    ∀ (i : Nat) (other : Operation), i ≠ id → t.operations[i]? = some other →
      ¬ other.Carries t.world c.subject

/-- The operation that holds the other node's site of a round, or was handed it, carries the
subject, unless it removes a value that is no longer there. -/
theorem Converging.rival {t : Traffic} (h : t.Converging) (hop : t.operations[id]? = some o)
    {c : Change} {r : Round} (hphase : o.phase = .round c r) {who : Claimant}
    (hwho : who ≠ ⟨id, true⟩)
    (hrival : holding t.operations who = some (1 - o.node, c.subject) ∨
      (pending t.operations who = some (1 - o.node, c.subject) ∧
        t.locks.isHanded (1 - o.node, c.subject) who = true)) :
    ∃ o', who.operation ≠ id ∧ t.operations[who.operation]? = some o' ∧
      (o'.Carries t.world c.subject ∨
        ∃ c', who.visiting = false ∧ o'.phase = .waiting c' ∧ c'.action = .delete ∧
          (o'.node, c'.subject) = (1 - o.node, c.subject) ∧
          t.locks.isHanded (1 - o.node, c.subject) who = true ∧
          t.world.valueAt (1 - o.node, c.subject) = none) := by
  have ho := (h.sound id o hop).1
  obtain ⟨j, visiting⟩ := who
  rcases hrival with hholds | ⟨hasks, hhanded⟩
  · -- a holder is in a round of the same subject on the other node
    obtain ⟨o', ho', hholds⟩ := Option.bind_eq_some_iff.1 hholds
    obtain ⟨c', r', hphase', -, hsite⟩ := Operation.of_holds? hholds
    obtain ⟨hnode, hsubject⟩ := Prod.mk.inj hsite
    refine ⟨o', ?_, ho', .inl ((Operation.carries_round hphase').2 hsubject.symm)⟩
    rintro rfl
    rw [hop] at ho'
    cases ho'
    omega
  · obtain ⟨o', ho', hasks⟩ := Option.bind_eq_some_iff.1 hasks
    rcases Operation.of_asks? hasks with ⟨c', hphase', rfl, hsite⟩ | ⟨c', r', hphase', rfl, hasked⟩
    · obtain ⟨hnode, hsubject⟩ := Prod.mk.inj hsite
      refine ⟨o', ?_, ho', ?_⟩
      · rintro rfl
        rw [hop] at ho'
        cases ho'
        omega
      · -- it waits at home: an update will be told, and a removal if there is something to remove
        rw [Operation.carries_waiting hphase']
        cases haction : c'.action with
        | update => exact .inl ⟨hsubject.symm, .inl rfl⟩
        | delete =>
          cases hvalue : t.world.valueAt (1 - o.node, c.subject) with
          | some v =>
            left
            refine ⟨hsubject.symm, .inr ?_⟩
            rw [← hnode, hvalue]
            rfl
          | none => exact .inr ⟨c', rfl, hphase', haction, hsite.symm, hhanded, rfl⟩
    · -- it would be a round of the same subject on the same node
      exfalso
      obtain ⟨ho'node, hround⟩ := h.sound j o' ho'
      rw [hphase'] at hround
      obtain ⟨-, action, later, name, deadline, stage, -, -, rfl⟩ := hround
      have hsite : (1 - o'.node, c'.subject) = (1 - o.node, c.subject) := by
        unfold Round.asked? Round.telling at hasked
        dsimp only at hasked
        split at hasked
        · exact Option.some.inj hasked
        · cases hasked
      obtain ⟨hnode, hsubject⟩ := Prod.mk.inj hsite
      have hmine : holding t.operations ⟨id, false⟩ = some (o.node, c.subject) :=
        (siteOf_self _ hop false).trans (congrFun (Operation.holds?_round hphase) false)
      have htheirs : holding t.operations ⟨j, false⟩ = some (o'.node, c'.subject) :=
        (siteOf_self _ ho' false).trans (congrFun (Operation.holds?_round hphase') false)
      rw [hsubject, show o'.node = o.node by omega] at htheirs
      have hsame := h.tracks.holder_unique hmine htheirs
      cases hsame
      exact hwho rfl

/-- `expire` ends a round, unless what it waits for is there. If that does not strand its change,
another operation carries the subject. -/
theorem Converging.expire {t : Traffic} (h : t.Converging) (hop : t.operations[id]? = some o)
    (hstrands : ¬ t.Strands id) : (t.expire id o).Converging := by
  cases hphase : o.phase with
  | fresh | waiting _ | storing _ _ | ended _ | abandoned =>
    unfold Traffic.expire
    rw [hphase]
    exact h
  | round c r =>
    obtain ⟨ho, hround⟩ := h.sound id o hop
    rw [hphase] at hround
    obtain ⟨hlocal, action, later, name, deadline, stage, htells, hstage, rfl⟩ := hround
    rcases expire_telling t id hstage hphase with heq | ⟨rfl, htime, haway⟩
    · rw [heq]
      exact h
    rw [expire_asked h.pair ho hphase htime haway]
    have hlocks := h.tracksWith hop
    rw [Operation.holds?_round hphase, Operation.asks?_round hphase] at hlocks
    -- another operation has kept the visit waiting for its site
    obtain ⟨hlocks, ⟨j, visiting⟩, hwho, hrival⟩ := hlocks.leave (b := true) rfl rfl haway
    rw [assign_visit] at hlocks
    rw [← Operation.holds?_round hphase, ← Operation.asks?_round hphase, withOwn_siteOf _ hop,
      withOwn_siteOf _ hop] at hrival
    obtain ⟨o', hj, ho', hcase⟩ := h.rival hop hphase hwho hrival
    have hsubject := Operation.eq_subject_of_carries (w := t.world) hphase
    refine h.finish hop (.error .timeout) h.pair hsubject (fun _ => .inl rfl) hlocks ?_
    rcases hcase with hcarries | ⟨c', rfl, hphase', hdelete, hsite, hgiven, hgone⟩
    · exact .inr ⟨j, o', hj, ho', hcarries⟩
    · by_cases hothers : ∃ (j : Nat) (o' : Operation),
          j ≠ id ∧ t.operations[j]? = some o' ∧ o'.Carries t.world c.subject
      · exact .inr hothers
      · -- no operation is left that would tell the other node, so it must not lack the value
        left
        refine (agree_iff_other ho).2 ?_
        cases hvalue : t.world.valueAt (o.node, c.subject) with
        | none => exact hgone
        | some v =>
          refine absurd ⟨o, c, _, j, o', c', hop, hphase, htime, ho', hphase', hdelete, ?_, ?_, ?_,
            ?_, ?_⟩ hstrands
          · rw [hsite]
            rfl
          · rw [hsite]
            exact hgiven
          · rw [hsite]
            exact hgone
          · rw [hvalue]
            rfl
          · intro i other hi hother hcarries
            exact hothers ⟨i, other, hi, hother, hcarries⟩

/-- `expire` of a round that strands its change leaves the nodes different, and no operation that
carries the subject. -/
theorem Converging.expire_of_strands {t : Traffic} (h : t.Converging) (hstrands : t.Strands id) :
    ∃ s : (k : Kind) × k.Key, s.1.Unguarded ∧ ¬ Agree (t.step (.expire id)).world s ∧
      ∀ (i : Nat) (o : Operation), (t.step (.expire id)).operations[i]? = some o →
        ¬ o.Carries (t.step (.expire id)).world s := by
  obtain ⟨o, c, r, j, o', c', hop, hphase, htime, ho', hphase', -, hasked, hgiven, hgone, hkept,
    hothers⟩ := hstrands
  obtain ⟨ho, hround⟩ := h.sound id o hop
  rw [hphase] at hround
  obtain ⟨hlocal, action, later, name, deadline, stage, -, -, rfl⟩ := hround
  have hstage : stage = .asked := by
    cases stage with
    | asked => rfl
    | coming | committed => cases hasked
  subst hstage
  have hsite : (1 - o.node, c.subject) = (o'.node, c'.subject) := Option.some.inj hasked
  rw [← hsite] at hgiven hgone
  -- the site was handed to the removal, so it was not handed to the visit
  have haway : t.locks.isHanded (1 - o.node, c.subject) ⟨id, true⟩ = false := by
    rw [Bool.eq_false_iff]
    intro hmine
    have hsame := Cache.LockTable.isHanded_unique hgiven hmine
    cases hsame
  have hstep : t.step (.expire id) =
      (t.leave (1 - o.node, c.subject) ⟨id, true⟩).finish id o c (.error .timeout) := by
    show (t.operations[id]?).elim t (t.expire id) = _
    rw [hop]
    exact expire_asked h.pair ho hphase htime haway
  rw [hstep]
  refine ⟨c.subject, hlocal.kind, ?_, ?_⟩
  · intro hagree
    have hsame : t.world.valueAt (1 - o.node, c.subject) = t.world.valueAt (o.node, c.subject) :=
      (agree_iff_other ho).1 hagree
    rw [← hsame, hgone] at hkept
    cases hkept
  · intro i other hother
    show ¬ other.Carries t.world c.subject
    rcases of_getElem?_modify hop hother with ⟨-, rfl⟩ | ⟨hi, hother⟩
    · exact fun hcarries => hcarries
    · exact hothers i other hi hother

/-- No outcome comes from outside, as every round is a visit. -/
theorem Converging.answer {t : Traffic} (h : t.Converging) (hop : t.operations[id]? = some o)
    (outcome : Except SyncError Report) : (t.answer id o outcome).Converging := by
  unfold Traffic.answer
  split
  · rename_i c message deadline later hphase
    have hround := (h.sound id o hop).2
    rw [hphase] at hround
    obtain ⟨-, action, later', name, deadline', stage, -, -, hr⟩ := hround
    cases hr
  · exact h

/-- No operation waits for a store. -/
theorem Converging.persist {t : Traffic} (h : t.Converging) (hop : t.operations[id]? = some o) :
    (t.persist id o).Converging := by
  have hsound := (h.sound id o hop).2
  unfold Traffic.persist
  cases hphase : o.phase with
  | fresh | waiting _ | ended _ | abandoned => exact h
  | storing c result =>
    rw [hphase] at hsound
    exact hsound.elim
  | round c r =>
    rw [hphase] at hsound
    obtain ⟨-, action, later, name, deadline, stage, -, hstage, rfl⟩ := hsound
    show (if stage = .committed then _ else t).Converging
    rw [if_neg hstage]
    exact h

end Traffic

end CloudRoster
