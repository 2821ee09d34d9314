import CloudRoster.Cloud.Template

/-!
# Edited lists of names

The changes staged against a template are edits of its two lists of names: a name is put at the end
in place of every other spelling of it, or taken out in every spelling. Step by step that moves
names around; in the end it comes to this. The entries that no edit mentions stay as and where they
are. Behind them stand the names whose last mention added them, each spelled as it was then, in the
order of these last mentions. So a name that was mentioned stands there at most once, even if the
list held several spellings of it before.
-/

namespace CloudRoster

namespace Text

/-- Texts are the same up to the case of ASCII letters if they are equal in small ones. -/
theorem sameIgnoringAsciiCase_iff {s t : String} :
    sameIgnoringAsciiCase s t = true ↔ asciiLower s = asciiLower t := by
  simp [sameIgnoringAsciiCase, asciiLower, String.ofList_inj]

theorem sameIgnoringAsciiCase_refl (s : String) : sameIgnoringAsciiCase s s = true :=
  sameIgnoringAsciiCase_iff.mpr rfl

end Text

open Text (sameIgnoringAsciiCase sameIgnoringAsciiCase_iff sameIgnoringAsciiCase_refl)

namespace Template

/-- An edit of a list of names. -/
inductive NameEdit where
  | add (name : String)
  | remove (name : String)
  deriving Repr, DecidableEq

namespace NameEdit

/-- The name that an edit is about. -/
def name : NameEdit → String
  | add name | remove name => name

/-- The name that an edit puts into the list. -/
def added : NameEdit → List String
  | add name => [name]
  | remove _ => []

/-- Whether an edit is about a name, whatever the case of its ASCII letters. -/
def mentions (e : NameEdit) (name : String) : Bool := sameIgnoringAsciiCase name e.name

/-- The names behind an edit. -/
def applyTo (names : List String) : NameEdit → List String
  | add name => addName names name
  | remove name => removeName names name

/-- The names behind edits, made one after another. -/
def applyAll (names : List String) (edits : List NameEdit) : List String :=
  edits.foldl (fun names e => e.applyTo names) names

/-! ## The closed form -/

/-- The names whose last mention added them, as they were spelled then, in the order of these last
mentions. -/
def lastAdded : List NameEdit → List String
  | [] => []
  | e :: later =>
    if later.any (·.mentions e.name) then lastAdded later else e.added ++ lastAdded later

/-- What edits make of a list: the entries that none of them mentions, and the names added last. -/
def outcome (names : List String) (edits : List NameEdit) : List String :=
  names.filter (fun name => !edits.any (·.mentions name)) ++ lastAdded edits

variable {e : NameEdit} {edits later : List NameEdit} {names : List String} {name other : String}

theorem applyTo_eq (names : List String) (e : NameEdit) :
    e.applyTo names = names.filter (fun name => !e.mentions name) ++ e.added := by
  cases e with
  | add added => rfl
  | remove removed => exact (List.append_nil _).symm

/-- An edit before others: it counts as far as these do not mention its name. -/
theorem outcome_applyTo (names : List String) (e : NameEdit) (later : List NameEdit) :
    outcome (e.applyTo names) later = outcome names (e :: later) := by
  have hkept : (names.filter fun name => !e.mentions name).filter
        (fun name => !later.any (·.mentions name)) =
      names.filter fun name => !(e :: later).any (·.mentions name) := by
    rw [List.filter_filter]
    apply List.filter_congr
    intro name _
    rw [List.any_cons, Bool.not_or, Bool.and_comm]
  have hput : e.added.filter (fun name => !later.any (·.mentions name)) ++ lastAdded later =
      lastAdded (e :: later) := by
    rw [lastAdded]
    cases e with
    | add added =>
      cases hmentioned : later.any (·.mentions added) <;>
        simp [NameEdit.added, NameEdit.name, hmentioned]
    | remove removed => simp [NameEdit.added]
  rw [applyTo_eq, outcome, outcome, List.filter_append, hkept, List.append_assoc, hput]

/-- Edits one after another come to the closed form. -/
theorem applyAll_eq_outcome (names : List String) (edits : List NameEdit) :
    applyAll names edits = outcome names edits := by
  induction edits generalizing names with
  | nil =>
    have hkept : names.filter (fun name => !([] : List NameEdit).any (·.mentions name)) = names :=
      List.filter_eq_self.mpr fun _ _ => rfl
    rw [applyAll, List.foldl_nil, outcome, lastAdded, hkept, List.append_nil]
  | cons e later ih => rw [applyAll, List.foldl_cons, ← applyAll, ih, outcome_applyTo]

/-! ## What stands in it -/

/-- A name is added last exactly if some edit adds it, in that spelling, and none behind it is about
the name. -/
theorem mem_lastAdded_iff :
    name ∈ lastAdded edits ↔ ∃ before later,
      edits = before ++ .add name :: later ∧ later.any (·.mentions name) = false := by
  induction edits with
  | nil => simp [lastAdded]
  | cons e edits ih =>
    rw [lastAdded]
    constructor
    · intro hlisted
      have hbehind (hlisted : name ∈ lastAdded edits) : ∃ before later,
          e :: edits = before ++ .add name :: later ∧ later.any (·.mentions name) = false := by
        obtain ⟨before, later, rfl, hlast⟩ := ih.mp hlisted
        exact ⟨e :: before, later, rfl, hlast⟩
      split at hlisted
      · exact hbehind hlisted
      · next hlast =>
        rcases List.mem_append.mp hlisted with hhere | hlisted
        · cases e with
          | add added =>
            obtain rfl := List.mem_singleton.mp hhere
            exact ⟨[], edits, rfl, Bool.eq_false_iff.mpr hlast⟩
          | remove removed => cases hhere
        · exact hbehind hlisted
    · rintro ⟨before, later, hsplit, hlast⟩
      cases before with
      | nil =>
        obtain ⟨rfl, rfl⟩ := List.cons.inj hsplit
        simp only [NameEdit.name, hlast, NameEdit.added]
        exact List.mem_append_left _ (List.mem_singleton.mpr rfl)
      | cons first before =>
        obtain ⟨rfl, rfl⟩ := List.cons.inj hsplit
        have hlisted := ih.mpr ⟨before, later, rfl, hlast⟩
        split
        · exact hlisted
        · exact List.mem_append_right _ hlisted

theorem any_mentions_of_mem_lastAdded (h : name ∈ lastAdded edits) :
    edits.any (·.mentions name) = true := by
  obtain ⟨before, later, rfl, -⟩ := mem_lastAdded_iff.mp h
  apply List.any_eq_true.mpr
  exact ⟨.add name, by simp, sameIgnoringAsciiCase_refl name⟩

/-- Mentions do not depend on the case of ASCII letters. -/
theorem mentions_congr (h : sameIgnoringAsciiCase name other = true) (e : NameEdit) :
    e.mentions name = e.mentions other := by
  rw [Bool.eq_iff_iff, mentions, mentions, sameIgnoringAsciiCase_iff, sameIgnoringAsciiCase_iff,
    sameIgnoringAsciiCase_iff.mp h]

/-- No name is added last in two spellings. -/
theorem countP_lastAdded_le (edits : List NameEdit) (name : String) :
    (lastAdded edits).countP (sameIgnoringAsciiCase · name) ≤ 1 := by
  induction edits with
  | nil => simp [lastAdded]
  | cons e later ih =>
    rw [lastAdded]
    split
    · exact ih
    · next hlast =>
      cases e with
      | remove removed => simpa [added] using ih
      | add added =>
        by_cases hhere : sameIgnoringAsciiCase added name = true
        · -- the spelling at the front is the only one, since no later edit mentions the name
          have hnone : (lastAdded later).countP (sameIgnoringAsciiCase · name) = 0 := by
            rw [List.countP_eq_zero]
            intro other hlisted hsame
            apply hlast
            have hmentioned := any_mentions_of_mem_lastAdded hlisted
            have hspelled : sameIgnoringAsciiCase added other = true := by
              rw [sameIgnoringAsciiCase_iff] at hhere hsame ⊢
              rw [hhere, hsame]
            simpa only [NameEdit.name, mentions_congr hspelled] using hmentioned
          simp [NameEdit.added, hhere, hnone]
        · simpa [NameEdit.added, List.countP_cons, hhere] using ih

/-- A name that was mentioned stands in the closed form at most once. -/
theorem countP_outcome_le (h : edits.any (·.mentions name) = true) (names : List String) :
    (outcome names edits).countP (sameIgnoringAsciiCase · name) ≤ 1 := by
  have hnone : (names.filter fun name => !edits.any (·.mentions name)).countP
      (sameIgnoringAsciiCase · name) = 0 := by
    rw [List.countP_eq_zero]
    intro other hlisted hsame
    have hunmentioned := (List.mem_filter.mp hlisted).2
    simp only [mentions_congr hsame, h] at hunmentioned
    cases hunmentioned
  rw [outcome, List.countP_append, hnone, Nat.zero_add]
  exact countP_lastAdded_le edits name

/-- Edits that are made once more change nothing. -/
theorem applyAll_applyAll (names : List String) (edits : List NameEdit) :
    applyAll (applyAll names edits) edits = applyAll names edits := by
  have hdropped : (lastAdded edits).filter (fun name => !edits.any (·.mentions name)) = [] := by
    rw [List.filter_eq_nil_iff]
    intro name hlisted
    simp [any_mentions_of_mem_lastAdded hlisted]
  have hkept := List.filter_filter (p := fun name => !edits.any (·.mentions name))
    (q := fun name => !edits.any (·.mentions name)) (l := names)
  simp only [Bool.and_self] at hkept
  rw [applyAll_eq_outcome, applyAll_eq_outcome, outcome, outcome, List.filter_append, hdropped,
    List.append_nil, hkept]

end NameEdit

/-! ## Edits of a template -/

/-- What a change does to the list of inherited templates. -/
def Edit.inherited? : Edit → Option NameEdit
  | addInherited name => some (.add name)
  | removeInherited name => some (.remove name)
  | addModule _ | removeModule _ => none

/-- What a change does to the list of modules. -/
def Edit.module? : Edit → Option NameEdit
  | addModule name => some (.add name)
  | removeModule name => some (.remove name)
  | addInherited _ | removeInherited _ => none

namespace Updater

/-- A list of names behind changes is the list before them, edited. -/
theorem names_foldl_stage {names : Updater → List String} {edit? : Edit → Option NameEdit}
    (hstep : ∀ u e, names (u.stage e) = (edit? e).elim (names u) (·.applyTo (names u)))
    (u : Updater) (edits : List Edit) :
    names (edits.foldl stage u) = NameEdit.applyAll (names u) (edits.filterMap edit?) := by
  induction edits generalizing u with
  | nil => rfl
  | cons e edits ih =>
    rw [List.foldl_cons, ih, hstep, List.filterMap_cons]
    cases edit? e <;> rfl

theorem inherited_foldl_stage (u : Updater) (edits : List Edit) :
    (edits.foldl stage u).inherited =
      NameEdit.applyAll u.inherited (edits.filterMap Edit.inherited?) :=
  names_foldl_stage (fun u e => by cases e <;> rfl) u edits

theorem modules_foldl_stage (u : Updater) (edits : List Edit) :
    (edits.foldl stage u).modules = NameEdit.applyAll u.modules (edits.filterMap Edit.module?) :=
  names_foldl_stage (fun u e => by cases e <;> rfl) u edits

theorem baseline_foldl_stage (u : Updater) (edits : List Edit) :
    (edits.foldl stage u).baseline = u.baseline := by
  induction edits generalizing u with
  | nil => rfl
  | cons e edits ih =>
    rw [List.foldl_cons, ih]
    cases e <;> rfl

end Updater

/-- The template with the edits made in its two lists. -/
def edited (t : Template) (edits : List Edit) : Template :=
  { t with
    inheritedTemplateNames :=
      NameEdit.applyAll t.inheritedTemplateNames (edits.filterMap Edit.inherited?)
    moduleNamesToCopy := NameEdit.applyAll t.moduleNamesToCopy (edits.filterMap Edit.module?) }

theorem merge_foldl_stage (t : Template) (edits : List Edit) :
    (edits.foldl Updater.stage t.updater).merge = t.edited edits := by
  rw [Updater.merge, Updater.baseline_foldl_stage, Updater.inherited_foldl_stage,
    Updater.modules_foldl_stage]
  rfl

/-- Template edits in closed form: whatever is added and removed, in whatever order and spelling,
each list is made of its entries that no edit of this list mentions, followed by the names that were
last added to it. A name that an edit mentions stands there at most once. -/
theorem edits_in_closed_form (t : Template) (edits : List Edit) :
    let merged := (edits.foldl Updater.stage t.updater).merge
    let inherited := edits.filterMap Edit.inherited?
    let modules := edits.filterMap Edit.module?
    merged.name = t.name ∧
      merged.inheritedTemplateNames =
        t.inheritedTemplateNames.filter (fun name => !inherited.any (·.mentions name)) ++
          NameEdit.lastAdded inherited ∧
      merged.moduleNamesToCopy =
        t.moduleNamesToCopy.filter (fun name => !modules.any (·.mentions name)) ++
          NameEdit.lastAdded modules ∧
      (∀ name, inherited.any (·.mentions name) = true →
        merged.inheritedTemplateNames.countP (sameIgnoringAsciiCase · name) ≤ 1) ∧
      ∀ name, modules.any (·.mentions name) = true →
        merged.moduleNamesToCopy.countP (sameIgnoringAsciiCase · name) ≤ 1 := by
  intro merged inherited modules
  have hmade : merged = t.edited edits := t.merge_foldl_stage edits
  have hinheritedEdited : merged.inheritedTemplateNames =
      NameEdit.outcome t.inheritedTemplateNames inherited := by
    rw [hmade]
    exact NameEdit.applyAll_eq_outcome ..
  have hmodulesEdited : merged.moduleNamesToCopy =
      NameEdit.outcome t.moduleNamesToCopy modules := by
    rw [hmade]
    exact NameEdit.applyAll_eq_outcome ..
  have hnamed : merged.name = t.name := by
    rw [hmade]
    rfl
  refine ⟨hnamed, hinheritedEdited, hmodulesEdited, ?_, ?_⟩
  · intro name hmentioned
    rw [hinheritedEdited]
    exact NameEdit.countP_outcome_le hmentioned t.inheritedTemplateNames
  · intro name hmentioned
    rw [hmodulesEdited]
    exact NameEdit.countP_outcome_le hmentioned t.moduleNamesToCopy

/-- Two spellings of a name in the list before, one of them added again behind another name and
removed and added once more in a third spelling: it stands there once, as spelled last. -/
theorem edits_in_closed_form_respelled :
    let t : Template := ⟨"Bedwars", ["Base", "Root", "BASE"], ["Chat"]⟩
    let edits : List Edit := [.addInherited "base", .addInherited "Maps", .removeModule "CHAT",
      .removeInherited "Base", .addInherited "bAsE"]
    (edits.foldl Updater.stage t.updater).merge = ⟨"Bedwars", ["Root", "Maps", "bAsE"], []⟩ ∧
      (edits.foldl Updater.stage t.updater).merge.inheritedTemplateNames.countP
        (sameIgnoringAsciiCase · "BaSe") ≤ 1 := by
  intro t edits
  refine ⟨by decide, ?_⟩
  exact (edits_in_closed_form t edits).2.2.2.1 "BaSe" (by decide)

end Template

end CloudRoster
