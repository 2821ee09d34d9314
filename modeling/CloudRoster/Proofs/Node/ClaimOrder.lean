import CloudRoster.Proofs.Cache.WaitingLine
import CloudRoster.Proofs.Node.Journal
import CloudRoster.Proofs.Node.Moves

/-!
# The order of claims

The lock table always agrees with where the claimants stand (`Locked`): `holder?` of a site is the
one claimant with `Standing.has?` of it, and its `line` are the claimants with `Standing.asks?` of
it, each once. And the line is fair (`Fair`): the committers at a site, followed by the claimant
that has it uncommitted and by the line, are a sublist of the askers in the journal.
-/

namespace CloudRoster

open Cache (LockTable)
open Function (update update_self update_of_ne update_apply)

/-! ## Claims as the claimants stand -/

/-- The lock table is as the claimants stand. -/
structure Locked (locks : LockTable Site Claimant) (standing : Claimant → Standing) : Prop where
  served : locks.Served
  holder : ∀ s who, locks.holder? s = some who ↔ (standing who).has? = some s
  line : ∀ s who, who ∈ locks.line s ↔ (standing who).asks? = some s
  nodup : ∀ s, (locks.line s).Nodup

namespace Locked

variable {locks locks' : LockTable Site Claimant} {standing : Claimant → Standing} {who : Claimant}
  {next : Standing} {s : Site}

theorem empty : Locked .empty fun _ => .away where
  served := LockTable.served_empty
  holder s who := by
    rw [LockTable.holder?_empty]
    exact ⟨nofun, nofun⟩
  line s who := by
    rw [LockTable.line_empty]
    exact ⟨nofun, nofun⟩
  nodup s := by
    rw [LockTable.line_empty]
    exact List.nodup_nil

/-- At most one claimant has a site. -/
theorem unique (h : Locked locks standing) {i j : Claimant} (hi : (standing i).has? = some s)
    (hj : (standing j).has? = some s) : i = j :=
  Option.some.inj (((h.holder s i).2 hi).symm.trans ((h.holder s j).2 hj))

/-- A move of a claimant that updates the table for itself only keeps `Locked`. -/
theorem move (h : Locked locks standing) (hserved : locks'.Served)
    (hholder : ∀ s, locks'.holder? s = some who ↔ next.has? = some s)
    (hholders : ∀ s i, i ≠ who → (locks'.holder? s = some i ↔ locks.holder? s = some i))
    (hline : ∀ s, who ∈ locks'.line s ↔ next.asks? = some s)
    (hlines : ∀ s i, i ≠ who → (i ∈ locks'.line s ↔ i ∈ locks.line s))
    (hnodup : ∀ s, (locks'.line s).Nodup) : Locked locks' (update standing who next) where
  served := hserved
  holder s i := by
    by_cases hi : i = who
    · subst hi
      rw [update_self]
      exact hholder s
    · rw [update_of_ne hi]
      exact (hholders s i hi).trans (h.holder s i)
  line s i := by
    by_cases hi : i = who
    · subst hi
      rw [update_self]
      exact hline s
    · rw [update_of_ne hi]
      exact (hlines s i hi).trans (h.line s i)
  nodup := hnodup

/-- A claimant whose site stays, or that has and waits for none, leaves the table as it is. -/
theorem keep (h : Locked locks standing) (hhas : next.has? = (standing who).has?)
    (hasks : next.asks? = (standing who).asks?) : Locked locks (update standing who next) :=
  h.move h.served (fun s => by rw [hhas]; exact h.holder s who) (fun _ _ _ => .rfl)
    (fun s => by rw [hasks]; exact h.line s who) (fun _ _ _ => .rfl) h.nodup

/-- A claimant that has nothing holds nothing. -/
theorem holder_ne (h : Locked locks standing) (hhas : (standing who).has? = none) (s : Site) :
    locks.holder? s ≠ some who := by
  intro hholder
  rw [(h.holder s who).1 hholder] at hhas
  cases hhas

theorem not_mem_line (h : Locked locks standing) (hasks : (standing who).asks? = none) (s : Site) :
    who ∉ locks.line s := by
  intro hmem
  rw [(h.line s who).1 hmem] at hasks
  cases hasks

theorem take (h : Locked locks standing) (haway : standing who = .away)
    (hgot : (locks.ask s who).2 = true) :
    Locked (locks.ask s who).1 (update standing who (.got s)) := by
  obtain ⟨hnone, -, hserved, hholder, hline⟩ := LockTable.ask_eq_true hgot h.served
  have hhas : ∀ site, locks.holder? site ≠ some who := h.holder_ne (by rw [haway]; rfl)
  have hmem : ∀ site, who ∉ locks.line site := h.not_mem_line (by rw [haway]; rfl)
  refine h.move hserved (fun site => ?_) (fun site i hi => ?_) (fun site => ?_) (fun site i _ => ?_)
    fun site => ?_
  · rw [hholder, update_apply]
    split
    · simp [Standing.has?, *]
    · simp [Standing.has?, hhas site, Ne.symm ‹_›]
  · rw [hholder, update_apply]
    split
    · subst site
      simp [hnone, Ne.symm hi]
    · rfl
  · rw [hline]
    exact ⟨fun hin => absurd hin (hmem site), nofun⟩
  · rw [hline]
  · rw [hline]
    exact h.nodup site

theorem queue (h : Locked locks standing) (haway : standing who = .away)
    (hgot : (locks.ask s who).2 = false) :
    Locked (locks.ask s who).1 (update standing who (.asks s)) := by
  obtain ⟨-, hserved, hholder, hline⟩ := LockTable.ask_eq_false hgot h.served
  have hhas : ∀ site, locks.holder? site ≠ some who := h.holder_ne (by rw [haway]; rfl)
  have hmem : ∀ site, who ∉ locks.line site := h.not_mem_line (by rw [haway]; rfl)
  refine h.move hserved (fun site => ?_) (fun site i _ => ?_) (fun site => ?_) (fun site i hi => ?_)
    fun site => ?_
  · rw [hholder]
    exact ⟨fun hsome => absurd hsome (hhas site), nofun⟩
  · rw [hholder]
  · rw [hline, update_apply]
    split
    · simp [Standing.asks?, *]
    · simp [Standing.asks?, hmem site, Ne.symm ‹_›]
  · rw [hline, update_apply]
    split
    · subst site
      simp [hi]
    · rfl
  · rw [hline, update_apply]
    split
    · refine List.nodup_append.2 ⟨h.nodup s, by simp, ?_⟩
      rintro i hi j hj rfl
      rw [List.mem_singleton.1 hj] at hi
      exact hmem s hi
    · exact h.nodup site

theorem pickUp (h : Locked locks standing) (hasks : standing who = .asks s)
    (hhanded : locks.isHanded s who = true) :
    Locked (locks.pickUp s who) (update standing who (.got s)) := by
  obtain ⟨hnone, -⟩ := (LockTable.isHanded_iff h.served).1 hhanded
  obtain ⟨rest, hfirst, hserved, hholder, hline⟩ := LockTable.pickUp_of_isHanded hhanded h.served
  have hhas : ∀ site, locks.holder? site ≠ some who := h.holder_ne (by rw [hasks]; rfl)
  have hnodup := h.nodup s
  rw [hfirst, List.nodup_cons] at hnodup
  refine h.move hserved (fun site => ?_) (fun site i hi => ?_) (fun site => ?_)
    (fun site i hi => ?_)
    fun site => ?_
  · rw [hholder, update_apply]
    split
    · simp [Standing.has?, *]
    · simp [Standing.has?, hhas site, Ne.symm ‹_›]
  · rw [hholder, update_apply]
    split
    · subst site
      simp [hnone, Ne.symm hi]
    · rfl
  · rw [hline, update_apply]
    split
    · exact ⟨fun hin => absurd hin hnodup.1, nofun⟩
    · rw [h.line, hasks]
      simp [Standing.asks?, Ne.symm ‹_›]
  · rw [hline, update_apply]
    split
    · subst site
      rw [hfirst]
      simp [hi]
    · rfl
  · rw [hline, update_apply]
    split
    · exact hnodup.2
    · exact h.nodup site

theorem leave (h : Locked locks standing) (hasks : standing who = .asks s)
    (hhas : next.has? = none) (hnext : next.asks? = none) :
    Locked (locks.leave s who) (update standing who next) := by
  obtain ⟨hserved, hholder, hline⟩ := LockTable.leave_eq h.served s who
  have hnothing : ∀ site, locks.holder? site ≠ some who := h.holder_ne (by rw [hasks]; rfl)
  refine h.move hserved (fun site => ?_) (fun site i _ => ?_) (fun site => ?_) (fun site i hi => ?_)
    fun site => ?_
  · rw [hholder, hhas]
    exact ⟨fun hsome => absurd hsome (hnothing site), nofun⟩
  · rw [hholder]
  · rw [hline, hnext, update_apply]
    split
    · exact ⟨fun hin => absurd hin (h.nodup s).not_mem_erase, nofun⟩
    · rw [h.line, hasks]
      simp [Standing.asks?, Ne.symm ‹_›]
  · rw [hline, update_apply]
    split
    · subst site
      exact List.mem_erase_of_ne hi
    · rfl
  · rw [hline, update_apply]
    split
    · exact (h.nodup s).erase who
    · exact h.nodup site

theorem release (h : Locked locks standing) (hhas : (standing who).has? = some s)
    (hasks : (standing who).asks? = none) (hnext : next.has? = none)
    (hnextAsks : next.asks? = none) :
    Locked (locks.release s who) (update standing who next) := by
  have hheld := (h.holder s who).2 hhas
  obtain ⟨hserved, hholder, hline⟩ := LockTable.release_of_holder hheld h.served
  refine h.move hserved (fun site => ?_) (fun site i hi => ?_) (fun site => ?_) (fun site i _ => ?_)
    fun site => ?_
  · rw [hholder, hnext, update_apply]
    split
    · exact ⟨nofun, nofun⟩
    · rw [h.holder, hhas]
      simp [Ne.symm ‹_›]
  · rw [hholder, update_apply]
    split
    · subst site
      simp [hheld, Ne.symm hi]
    · rfl
  · rw [hline, hnextAsks]
    exact ⟨fun hin => absurd hin (h.not_mem_line hasks site), nofun⟩
  · rw [hline]
  · rw [hline]
    exact h.nodup site

end Locked

/-- A claimant at its end has nothing and waits for nothing. -/
theorem Claimant.rest_free (who : Claimant) (st : Standing) (hhas : st.has? = none)
    (hasks : st.asks? = none) : (who.rest st).has? = none ∧ (who.rest st).asks? = none := by
  unfold Claimant.rest
  split
  · exact ⟨rfl, rfl⟩
  · exact ⟨hhas, hasks⟩

variable {who : Claimant} {o : Operation} {x y : Scene}

/-- Every move keeps `Locked`. -/
theorem Locked.of_move (h : Locked x.traffic.locks x.standing) (hmove : Move who o x y) :
    Locked y.traffic.locks y.standing := by
  cases hmove with
  | take haway hgot => exact h.take haway hgot
  | queue haway hgot => exact h.queue haway hgot
  | pickUp hasks hhanded => exact h.pickUp hasks hhanded
  | leave hasks =>
    obtain ⟨hhas, hnext⟩ := who.rest_free .out rfl rfl
    exact h.leave hasks hhas hnext
  | refuse hgot =>
    obtain ⟨hhas, hnext⟩ := who.rest_free .out rfl rfl
    exact h.release (by rw [hgot]; rfl) (by rw [hgot]; rfl) hhas hnext
  | commit hgot => exact h.keep (by rw [hgot]; rfl) (by rw [hgot]; rfl)
  | hand _ hworks => exact h.keep (by rw [hworks]; rfl) (by rw [hworks]; rfl)
  | @release i c later hworks =>
    obtain ⟨hhas, hnext⟩ := who.rest_free (.done i c later) rfl rfl
    exact h.release (by rw [hworks]; rfl) (by rw [hworks]; rfl) hhas hnext
  | skip _ haway => exact h.keep (by rw [haway]; rfl) (by rw [haway]; rfl)
  | store => exact h

/-! ## The order of commits -/

/-- The committers at a site, the claimant that has it uncommitted, and the line asked for it in
that order. -/
structure Fair (locks : LockTable Site Claimant) (journal : Journal)
    (standing : Claimant → Standing) : Prop where
  /-- Next is the line. -/
  line : ∀ s, (journal.committers s ++ locks.line s).Sublist (journal.askers s)
  /-- The claimant that has the site and has not committed yet stands before the line. -/
  got : ∀ s i, standing i = .got s →
    (journal.committers s ++ i :: locks.line s).Sublist (journal.askers s)

/-- After a move into another standing than `got`, a claimant in `got` was in it before. -/
theorem got_of_update {standing : Claimant → Standing} {next : Standing}
    {s : Site} {i : Claimant} (h : update standing who next i = .got s)
    (hnext : ∀ s, next ≠ .got s) : i ≠ who ∧ standing i = .got s := by
  by_cases hi : i = who
  · subst hi
    rw [update_self] at h
    exact absurd h (hnext s)
  · rw [update_of_ne hi] at h
    exact ⟨hi, h⟩

theorem Claimant.rest_ne_got (who : Claimant) {st : Standing} (h : ∀ s, st ≠ .got s) (s : Site) :
    who.rest st ≠ .got s := by
  unfold Claimant.rest
  split
  · exact nofun
  · exact h s

namespace Fair

variable {locks locks' : LockTable Site Claimant} {journal : Journal}
  {standing : Claimant → Standing} {next : Standing} {s : Site}

theorem empty : Fair .empty [] fun _ => .away where
  line _ := .slnil
  got := nofun

/-- A note that is no commit, and lines that only become shorter, keep `Fair` if no claimant comes
to `got`. -/
theorem mono (h : Fair locks journal standing) {x : Note}
    (hx : ∀ s, Journal.committers s [x] = [])
    (hline : ∀ s, (locks'.line s).Sublist (locks.line s)) {standing' : Claimant → Standing}
    (hgot : ∀ s i, standing' i = .got s → standing i = .got s) :
    Fair locks' (journal ++ [x]) standing' where
  line s := by
    rw [Journal.committers_append, Journal.askers_append, hx, List.append_nil]
    exact (((List.Sublist.refl _).append (hline s)).trans (h.line s)).trans
      (List.sublist_append_left ..)
  got s i hi := by
    rw [Journal.committers_append, Journal.askers_append, hx, List.append_nil]
    exact (((List.Sublist.refl _).append ((hline s).cons_cons i)).trans
      (h.got s i (hgot s i hi))).trans (List.sublist_append_left ..)

/-- The same without a note. -/
theorem mono_silent (h : Fair locks journal standing)
    (hline : ∀ s, (locks'.line s).Sublist (locks.line s)) {standing' : Claimant → Standing}
    (hgot : ∀ s i, standing' i = .got s → standing i = .got s) :
    Fair locks' journal standing' where
  line s := ((List.Sublist.refl _).append (hline s)).trans (h.line s)
  got s i hi := ((List.Sublist.refl _).append ((hline s).cons_cons i)).trans
    (h.got s i (hgot s i hi))

theorem take (h : Fair locks journal standing) (hlocked : Locked locks standing)
    (hgot : (locks.ask s who).2 = true) :
    Fair (locks.ask s who).1 (journal ++ [.asked s who]) (update standing who (.got s)) := by
  obtain ⟨-, hempty, -, -, hline⟩ := LockTable.ask_eq_true hgot hlocked.served
  have hjournal : ∀ site, Journal.committers site [.asked s who] = [] := fun _ => rfl
  refine ⟨fun site => ?_, fun site i hi => ?_⟩
  · rw [Journal.committers_append, Journal.askers_append, hjournal, List.append_nil, hline]
    exact (h.line site).trans (List.sublist_append_left ..)
  · rw [Journal.committers_append, Journal.askers_append, hjournal, List.append_nil, hline]
    by_cases hwho : i = who
    · -- the line is empty, so the claimant is right behind the committers
      subst hwho
      rw [update_self] at hi
      cases hi
      have hbefore := h.line s
      rw [hempty, List.append_nil] at hbefore
      rw [hempty, Journal.askers_asked]
      exact hbefore.append (List.Sublist.refl _)
    · rw [update_of_ne hwho] at hi
      exact (h.got site i hi).trans (List.sublist_append_left ..)

theorem queue (h : Fair locks journal standing) (hlocked : Locked locks standing)
    (hgot : (locks.ask s who).2 = false) :
    Fair (locks.ask s who).1 (journal ++ [.asked s who]) (update standing who (.asks s)) := by
  obtain ⟨-, -, -, hline⟩ := LockTable.ask_eq_false hgot hlocked.served
  have hjournal : ∀ site, Journal.committers site [.asked s who] = [] := fun _ => rfl
  -- the line and those who asked become longer by the same claimant
  have hlonger : ∀ site front, (front ++ locks.line site).Sublist (journal.askers site) →
      (front ++ (locks.ask s who).1.line site).Sublist
        (journal.askers site ++ Journal.askers site [.asked s who]) := by
    intro site front hfront
    rw [hline, update_apply]
    split
    · subst site
      rw [Journal.askers_asked, ← List.append_assoc]
      exact hfront.append (List.Sublist.refl _)
    · exact hfront.trans (List.sublist_append_left ..)
  refine ⟨fun site => ?_, fun site i hi => ?_⟩
  · rw [Journal.committers_append, Journal.askers_append, hjournal, List.append_nil]
    exact hlonger site _ (h.line site)
  · have hbefore := h.got site i (got_of_update hi fun _ => nofun).2
    rw [Journal.committers_append, Journal.askers_append, hjournal, List.append_nil,
      List.append_cons]
    rw [List.append_cons] at hbefore
    exact hlonger site _ hbefore

theorem pickUp (h : Fair locks journal standing) (hlocked : Locked locks standing)
    (hhanded : locks.isHanded s who = true) :
    Fair (locks.pickUp s who) journal (update standing who (.got s)) := by
  obtain ⟨rest, hfirst, -, -, hline⟩ := LockTable.pickUp_of_isHanded hhanded hlocked.served
  have hshorter : ∀ site, ((locks.pickUp s who).line site).Sublist (locks.line site) := by
    intro site
    rw [hline, update_apply]
    split
    · subst site
      rw [hfirst]
      exact List.sublist_cons_self ..
    · exact List.Sublist.refl _
  refine ⟨fun site => ((List.Sublist.refl _).append (hshorter site)).trans (h.line site),
    fun site i hi => ?_⟩
  by_cases hwho : i = who
  · -- the first of the line comes right behind those who committed
    subst hwho
    rw [update_self] at hi
    cases hi
    have hbefore := h.line s
    rw [hfirst] at hbefore
    rw [hline, update_self]
    exact hbefore
  · rw [update_of_ne hwho] at hi
    exact ((List.Sublist.refl _).append ((hshorter site).cons_cons i)).trans (h.got site i hi)

theorem commit (h : Fair locks journal standing) (hlocked : Locked locks standing)
    (hgot : standing who = .got s) (c : Change) (hnext : ∀ s, next ≠ .got s) :
    Fair locks (journal ++ [.committed s who c]) (update standing who next) := by
  have hjournal : ∀ site, Journal.askers site [.committed s who c] = [] := fun _ => rfl
  refine ⟨fun site => ?_, fun site i hi => ?_⟩
  · rw [Journal.committers_append, Journal.askers_append, hjournal, List.append_nil]
    by_cases hsite : s = site
    · subst hsite
      rw [Journal.committers_committed, ← List.append_cons]
      exact h.got s who hgot
    · rw [Journal.committers_committed_of_ne hsite, List.append_nil]
      exact h.line site
  · obtain ⟨hne, hi⟩ := got_of_update hi hnext
    -- no other claimant has the site of the commit
    have hsite : s ≠ site := by
      rintro rfl
      exact hne (hlocked.unique (by rw [hi]; rfl) (by rw [hgot]; rfl))
    rw [Journal.committers_append, Journal.askers_append, hjournal,
      Journal.committers_committed_of_ne hsite, List.append_nil, List.append_nil]
    exact h.got site i hi

end Fair

/-- Every move keeps `Fair`. -/
theorem Fair.of_move (h : Fair x.traffic.locks x.traffic.journal x.standing)
    (hlocked : Locked x.traffic.locks x.standing) (hmove : Move who o x y) :
    Fair y.traffic.locks y.traffic.journal y.standing := by
  have hsame : ∀ s, (x.traffic.locks.line s).Sublist (x.traffic.locks.line s) :=
    fun _ => List.Sublist.refl _
  -- `release` leaves the line of its site as it is
  have hrelease : ∀ {site : Site}, (x.standing who).has? = some site → ∀ s,
      ((x.traffic.locks.release site who).line s).Sublist (x.traffic.locks.line s) := by
    intro site hhas s
    obtain ⟨-, -, hline⟩ :=
      LockTable.release_of_holder ((hlocked.holder site who).2 hhas) hlocked.served
    simp only [hline, List.Sublist.refl]
  cases hmove with
  | take _ hgot => exact h.take hlocked hgot
  | queue _ hgot => exact h.queue hlocked hgot
  | pickUp _ hhanded => exact h.pickUp hlocked hhanded
  | @leave site hasks =>
    refine h.mono_silent (fun s => ?_) fun s i hi =>
      (got_of_update hi (who.rest_ne_got fun _ => nofun)).2
    show ((x.traffic.locks.leave site who).line s).Sublist _
    rw [(LockTable.leave_eq hlocked.served site who).2.2, update_apply]
    split
    · subst s
      exact List.erase_sublist
    · exact List.Sublist.refl _
  | refuse hgot =>
    exact h.mono_silent (hrelease (by rw [hgot]; rfl))
      fun s i hi => (got_of_update hi (who.rest_ne_got fun _ => nofun)).2
  | commit hgot => exact h.commit hlocked hgot _ fun _ => nofun
  | hand => exact h.mono (fun _ => rfl) hsame fun s i hi => (got_of_update hi fun _ => nofun).2
  | release hworks =>
    exact h.mono_silent (hrelease (by rw [hworks]; rfl))
      fun s i hi => (got_of_update hi (who.rest_ne_got fun _ => nofun)).2
  | skip => exact h.mono_silent hsame fun s i hi => (got_of_update hi fun _ => nofun).2
  | store => exact h

end CloudRoster
