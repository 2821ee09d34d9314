import CloudRoster.Cloud.Kind
import CloudRoster.Proofs.Cloud.NameEdits
import Mathlib.Data.List.Induction

/-!
# Staged changes and the value they are merged into

Changes are staged one after another against a value, and merged into a whole value at the end. What
the merged value is can be said without the staging: every field that was concerned by a change is
as the last one left it, and every other field is as before. The two lists of a template are edited
and not set; their closed form is in the module on edited lists of names.

What a value is known by is no field that can be staged, so the key of a value never changes. To
stage the same changes once more changes nothing.
-/

namespace CloudRoster

/-- What the last change that concerns something makes of it. -/
def lastOf {E α : Type} (concern : E → Option α) (edits : List E) : Option α :=
  (edits.filterMap concern).getLast?

section Slots

variable {U E α : Type} {stage : U → E → U} {slot : U → Option α}
  {concern : E → Option α}

/-- A slot that a change sets exactly if it concerns it holds what the last such change made of
it. -/
theorem slot_foldl (hset : ∀ u e, slot (stage u e) = (concern e).or (slot u)) (u : U)
    (edits : List E) : slot (edits.foldl stage u) = (lastOf concern edits).or (slot u) := by
  induction edits using List.reverseRecOn with
  | nil => rfl
  | append_singleton edits e ih =>
    rw [List.foldl_append, List.foldl_cons, List.foldl_nil, hset, ih, lastOf, lastOf,
      List.filterMap_append, List.getLast?_append, Option.or_assoc, List.filterMap_cons]
    cases concern e <;> rfl

/-- To set what is set already changes nothing. -/
theorem getD_getD_self (o : Option α) (before : α) : o.getD (o.getD before) = o.getD before := by
  cases o <;> rfl

end Slots

/-! ## What is made of a value -/

/-- The player with the changes made. -/
def Player.edited (p : Player) (edits : List Player.Edit) : Player :=
  { p with
    displayName := (lastOf (fun
      | .displayName name => some name
      | _ => none) edits).getD p.displayName
    proxyName := (lastOf (fun
      | .proxy name => some name
      | _ => none) edits).getD p.proxyName
    serverName := (lastOf (fun
      | .connectTo server => some (some server)
      | .server name => some name
      | _ => none) edits).getD p.serverName
    connectState := (lastOf (fun
      | .connectTo _ => some .connecting
      | .connectState state => some state
      | _ => none) edits).getD p.connectState
    onlineTimeMs := (lastOf (fun
      | .onlineTime millis => some millis
      | _ => none) edits).getD p.onlineTimeMs }

/-- The group with the changes made. Only a lobby has a priority that changes. -/
def Group.edited (g : Group) (edits : List Group.Edit) : Group :=
  { g with
    templateName := (lastOf (fun
      | .templateName name => some name
      | _ => none) edits).getD g.templateName
    maxMemoryMb := (lastOf (fun
      | .maxMemory mb => some mb
      | _ => none) edits).getD g.maxMemoryMb
    minOnlineCount := (lastOf (fun
      | .minOnlineCount count => some count
      | _ => none) edits).getD g.minOnlineCount
    maxOnlineCount := (lastOf (fun
      | .maxOnlineCount count => some count
      | _ => none) edits).getD g.maxOnlineCount
    maxPlayers := (lastOf (fun
      | .maxPlayers players => some players
      | _ => none) edits).getD g.maxPlayers
    maintenance := (lastOf (fun
      | .maintenance on => some on
      | _ => none) edits).getD g.maintenance
    priority :=
      if g.groupType = .lobby then
        (lastOf (fun
          | .priority value => some value
          | _ => none) edits).getD g.priority
      else g.priority
    permission := (lastOf (fun
      | .permission name => some name
      | _ => none) edits).getD g.permission }

/-- The wrapper with the changes made. -/
def Wrapper.edited (w : Wrapper) (edits : List Wrapper.Edit) : Wrapper :=
  { w with
    maxMemoryMb := (lastOf (fun
      | .maxMemory mb => some mb
      | _ => none) edits).getD w.maxMemoryMb
    usedMemoryMb := (lastOf (fun
      | .usedMemory mb => some mb
      | _ => none) edits).getD w.usedMemoryMb
    maxStartingServices := (lastOf (fun
      | .maxStartingServices count => some count
      | _ => none) edits).getD w.maxStartingServices
    authenticated := (lastOf (fun
      | .authenticated on => some on
      | _ => none) edits).getD w.authenticated
    templatesReady := (lastOf (fun
      | .templatesReady on => some on
      | _ => none) edits).getD w.templatesReady }

/-- The service with the changes made. -/
def Service.edited (s : Service) (edits : List Service.Edit) : Service :=
  { s with
    wrapperName := (lastOf (fun
      | .wrapper name => some name
      | _ => none) edits).getD s.wrapperName
    state := (lastOf (fun
      | .state value => some value
      | _ => none) edits).getD s.state
    onlineCount := (lastOf (fun
      | .onlineCount count => some count
      | _ => none) edits).getD s.onlineCount
    maxPlayers := (lastOf (fun
      | .maxPlayers players => some players
      | _ => none) edits).getD s.maxPlayers
    usedMemoryMb := (lastOf (fun
      | .usedMemory mb => some mb
      | _ => none) edits).getD s.usedMemoryMb
    authenticated := (lastOf (fun
      | .authenticated on => some on
      | _ => none) edits).getD s.authenticated }

namespace Kind

/-- A value with changes staged one after another. -/
def staged (k : Kind) (v : k.Val) (edits : List k.Edit) : k.Updater :=
  edits.foldl k.stage (k.updater v)

/-- The value with the changes made. -/
def edited : (k : Kind) → k.Val → List k.Edit → k.Val
  | player => Player.edited
  | group => Group.edited
  | template => Template.edited
  | wrapper => Wrapper.edited
  | service => Service.edited

/-! ## Single changes -/

variable {k : Kind}

theorem baseline_stage (u : k.Updater) (e : k.Edit) : k.baseline (k.stage u e) = k.baseline u := by
  cases k <;> cases e <;> rfl

/-- With a change staged there are changes. -/
theorem hasChanges_stage (u : k.Updater) (e : k.Edit) : k.hasChanges (k.stage u e) = true := by
  cases k with
  | player => cases e <;> simp [hasChanges, stage, Player.Updater.hasChanges, Player.Updater.stage]
  | group => cases e <;> simp [hasChanges, stage, Group.Updater.hasChanges, Group.Updater.stage]
  | template =>
    cases e <;> simp [hasChanges, stage, Template.Updater.hasChanges, Template.Updater.stage]
  | wrapper =>
    cases e <;> simp [hasChanges, stage, Wrapper.Updater.hasChanges, Wrapper.Updater.stage]
  | service =>
    cases e <;> simp [hasChanges, stage, Service.Updater.hasChanges, Service.Updater.stage]

/-! ## All changes -/

theorem baseline_staged (v : k.Val) (edits : List k.Edit) : k.baseline (k.staged v edits) = v := by
  induction edits using List.reverseRecOn with
  | nil => cases k <;> rfl
  | append_singleton edits e ih =>
    rw [staged, List.foldl_append, List.foldl_cons, List.foldl_nil, baseline_stage]
    exact ih

theorem hasChanges_staged (v : k.Val) (edits : List k.Edit) :
    k.hasChanges (k.staged v edits) = true ↔ edits ≠ [] := by
  cases edits using List.reverseRecOn with
  | nil => cases k <;> simp [staged, hasChanges, updater] <;> rfl
  | append_singleton edits e =>
    rw [staged, List.foldl_append, List.foldl_cons, List.foldl_nil]
    simp [hasChanges_stage]

/-- Whatever is staged is made of the value. -/
theorem merge_staged (v : k.Val) (edits : List k.Edit) :
    k.merge (k.staged v edits) = k.edited v edits := by
  have hfield {α : Type} {slot : k.Updater → Option α} {concern : k.Edit → Option α}
      (hset : ∀ u e, slot (k.stage u e) = (concern e).or (slot u))
      (hfresh : slot (k.updater v) = none) (before : α) :
      (slot (k.staged v edits)).getD before = (lastOf concern edits).getD before := by
    rw [staged, slot_foldl hset, hfresh, Option.or_none]
  have hbaseline := baseline_staged v edits
  cases k with
  | player =>
    change Player.Updater.baseline _ = v at hbaseline
    simp only [merge, Player.Updater.merge, edited, Player.edited, hbaseline, Player.mk.injEq,
      true_and]
    refine ⟨?_, ?_, ?_, ?_, ?_⟩ <;> exact hfield (fun u e => by cases e <;> rfl) rfl _
  | group =>
    change Group.Updater.baseline _ = v at hbaseline
    simp only [merge, Group.Updater.merge, edited, Group.edited, hbaseline, Group.mk.injEq,
      true_and]
    refine ⟨?_, ?_, ?_, ?_, ?_, ?_, ?_, ?_⟩
    case refine_7 =>
      -- the priority, which only counts for a lobby
      exact congrArg (if v.groupType = .lobby then · else v.priority)
        (hfield (fun u e => by cases e <;> rfl) rfl _)
    all_goals exact hfield (fun u e => by cases e <;> rfl) rfl _
  | template => exact Template.merge_foldl_stage v edits
  | wrapper =>
    change Wrapper.Updater.baseline _ = v at hbaseline
    simp only [merge, Wrapper.Updater.merge, edited, Wrapper.edited, hbaseline, Wrapper.mk.injEq,
      true_and]
    refine ⟨?_, ?_, ?_, ?_, ?_⟩ <;> exact hfield (fun u e => by cases e <;> rfl) rfl _
  | service =>
    change Service.Updater.baseline _ = v at hbaseline
    simp only [merge, Service.Updater.merge, edited, Service.edited, hbaseline, Service.mk.injEq,
      true_and]
    refine ⟨?_, ?_, ?_, ?_, ?_, ?_⟩ <;> exact hfield (fun u e => by cases e <;> rfl) rfl _

/-- What a value is known by is not changed. -/
theorem key_edited (v : k.Val) (edits : List k.Edit) : k.key (k.edited v edits) = k.key v := by
  cases k <;> rfl

theorem edited_nil (v : k.Val) : k.edited v [] = v := by
  cases k with
  | group => exact congrArg ({ v with priority := · }) (ite_self _)
  | _ => rfl

/-- The same changes made once more change nothing. -/
theorem edited_edited (v : k.Val) (edits : List k.Edit) :
    k.edited (k.edited v edits) edits = k.edited v edits := by
  cases k with
  | player => simp only [edited, Player.edited, getD_getD_self]
  | group =>
    simp only [edited, Group.edited, getD_getD_self]
    split
    · rw [getD_getD_self]
    · rfl
  | template => simp only [edited, Template.edited, Template.NameEdit.applyAll_applyAll]
  | wrapper => simp only [edited, Wrapper.edited, getD_getD_self]
  | service => simp only [edited, Service.edited, getD_getD_self]

end Kind

/-- Updaters change exactly what was staged. For every kind of value, every value and all changes
staged against it one after another: merged, the value is as the last changes of its fields leave it
and as before elsewhere, and has the key it had; there are changes exactly if any was staged, and
without one the value is merged as it is; the same changes staged against the merged value change
nothing more. The server of a player is the same in the staged changes and when they are merged. -/
theorem updaters_change_what_is_staged :
    (∀ (k : Kind) (v : k.Val) (edits : List k.Edit),
      let merged := k.merge (k.staged v edits)
      merged = k.edited v edits ∧ k.key merged = k.key v ∧
        (k.hasChanges (k.staged v edits) = true ↔ edits ≠ []) ∧ k.merge (k.updater v) = v ∧
        k.merge (k.staged merged edits) = merged) ∧
      ∀ (p : Player) (edits : List Player.Edit),
        (edits.foldl Player.Updater.stage p.updater).connectedServer =
          (edits.foldl Player.Updater.stage p.updater).merge.serverName := by
  refine ⟨?_, ?_⟩
  · intro k v edits merged
    have hmade : merged = k.edited v edits := Kind.merge_staged v edits
    refine ⟨hmade, ?_, Kind.hasChanges_staged v edits, ?_, ?_⟩
    · rw [hmade, Kind.key_edited]
    · exact (Kind.merge_staged v []).trans (Kind.edited_nil v)
    · rw [Kind.merge_staged, hmade, Kind.edited_edited]
  · intro p edits
    rfl

/-- The way to a server sets the server and the state over what was staged for each before. -/
example :
    let edits : List Player.Edit := [.server none, .connectState .connected, .connectTo "Lobby-1"]
    ∀ p : Player, p.edited edits =
      { p with serverName := some "Lobby-1", connectState := .connecting } :=
  fun _ => rfl

end CloudRoster
