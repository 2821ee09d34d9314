import CloudRoster.Node.Start
import CloudRoster.Proofs.Storage.Filing
import CloudRoster.Proofs.Storage.Loading
import CloudRoster.Proofs.Storage.Refusals

/-!
# Where a store acts

A store acts on the file of a key or on nothing at all. The name of that file has no separator and
is no way up, so whatever directory the store is opened on, the file stands directly in it; and it
has the extension by which loading finds it. Everything else in the directory stays as it is. Files
of two keys are not the same.
-/

namespace CloudRoster.Storage

/-! ## Names in paths -/

namespace FileTree

/-- A name with no separator is one step. -/
theorem stepsOf_of_not_mem {name : String} (h : '/' ∉ name.toList) :
    stepsOf name = [stepOf name] := by
  unfold stepsOf
  rw [List.splitOn_eq_singleton h, List.map_singleton, String.ofList_toList]

theorem stepsOf_append_separator (dir name : String) :
    stepsOf (dir ++ "/" ++ name) = stepsOf dir ++ stepsOf name := by
  have hchars : (dir ++ "/" ++ name).toList = dir.toList ++ '/' :: name.toList := by simp
  unfold stepsOf
  rw [hchars, List.splitOn_append_cons_self, List.map_append]

theorem follow_append (make : Bool) (t : FileTree) (place : Path) (xs ys : List Step) :
    follow make t place (xs ++ ys) =
      match follow make t place xs with
      | (t, some place) => follow make t place ys
      | (t, none) => (t, none) := by
  fun_induction follow make t place xs with
  | case1 t place => rfl
  | case2 t place steps cs hat ih => simp only [List.cons_append, follow, hat, ih]
  | case3 t place steps cs hat ih => simp only [List.cons_append, follow, hat, ih]
  | case4 t place steps cs hat name hlong => simp only [List.cons_append, follow, hat, if_pos hlong]
  | case5 t place steps cs hat name hlong hsome ih =>
    simp only [List.cons_append, follow, hat, if_neg hlong, if_pos hsome, ih]
  | case6 t place steps cs hat name hlong hnone hmake ih =>
    simp only [List.cons_append, follow, hat, if_neg hlong, if_neg hnone, if_pos hmake, ih]
  | case7 t place steps cs hat name hlong hnone hmake =>
    simp only [List.cons_append, follow, hat, if_neg hlong, if_neg hnone, if_neg hmake]
  | case8 t place step steps hat =>
    have hend : ∀ rest, follow make t place (step :: rest) = (t, none) := by
      intro rest
      rw [follow]
      split
      · exact absurd ‹_› (hat _)
      · rfl
    rw [List.cons_append, hend]

/-- Staying before a step into a directory makes no difference. -/
theorem follow_stay_into (make : Bool) (t : FileTree) (place : Path) (name : String) :
    follow make t place [.stay, .into name] = follow make t place [.into name] := by
  cases hat : t.at? place.reverse with
  | none => simp only [follow, hat]
  | some found => cases found <;> simp only [follow, hat]

theorem follow_concat_stay_into (make : Bool) (t : FileTree) (place : Path) (steps : List Step)
    (name : String) : follow make t place (steps ++ [.stay] ++ [.into name]) =
      follow make t place (steps ++ [.into name]) := by
  rw [List.append_assoc, follow_append, follow_append]
  split
  · exact follow_stay_into ..
  · rfl

/-- A name with no separator that is joined to a path is one more step into what the path leads
to. -/
theorem follow_joinPath (make : Bool) (t : FileTree) (place : Path) (dir : String) {name : String}
    (hseparator : '/' ∉ name.toList) (hstep : stepOf name = .into name) :
    follow make t place (stepsOf (joinPath dir name)) =
      follow make t place (stepsOf dir ++ [.into name]) := by
  have hname : stepsOf name = [.into name] := by rw [stepsOf_of_not_mem hseparator, hstep]
  have hempty : stepsOf "" = [.stay] := by decide
  unfold joinPath
  split
  · rename_i hdir
    rw [Bool.or_eq_true, decide_eq_true_eq] at hdir
    rcases hdir with rfl | hend
    · rw [String.empty_append, hname, hempty]
      exact (follow_concat_stay_into make t place [] name).symm
    · have hsuffix : "/".toList <:+ dir.toList := by
        simpa using String.Slice.endsWith_string_iff.1 hend
      obtain ⟨front, hfront⟩ := hsuffix
      obtain rfl : dir = String.ofList front ++ "/" :=
        String.toList_inj.1 (by simpa using hfront.symm)
      have hslash := stepsOf_append_separator (String.ofList front) ""
      rw [String.append_empty, hempty] at hslash
      rw [stepsOf_append_separator, hname, hslash, follow_concat_stay_into]
  · rw [stepsOf_append_separator, hname]

end FileTree

open FileTree (follow stepsOf stepOf)

/-- A name for a file of a store. Joined to the path of any directory it is one step into that
directory, and loading the directory looks at it. -/
structure IsFileName (name : String) : Prop where
  direct : ∀ make t place dir, follow make t place (stepsOf (joinPath dir name)) =
    follow make t place (stepsOf dir ++ [.into name])
  lookedAt : Directory.extension? name = some "json"

/-- The name of the file of a key has no separator, and it is longer than the names of the steps
that lead elsewhere. -/
theorem isFileName_of_fileName {k : Kind} {key : k.Key} {name : String}
    (h : fileName (k.keyText key) = .ok name) : IsFileName name := by
  obtain ⟨hname, hkey⟩ := fileName_ok h
  have hseparator : '/' ∉ (k.keyText key).toList := by
    intro hmem
    simp [fileName, hmem] at h
  have hchars : name.toList = (k.keyText key).toList ++ ".json".toList := by
    simp [hname, fileOf]
  have hstep : stepOf name = .into name := by
    have hlong : 5 < name.toList.length := by
      have := List.length_pos_iff.2 hkey
      rw [hchars, List.length_append]
      exact Nat.lt_add_of_pos_left this
    unfold stepOf
    split
    · exact absurd hlong (by decide)
    · exact absurd hlong (by decide)
    · exact absurd hlong (by decide)
    · rfl
  refine ⟨fun make t place dir => FileTree.follow_joinPath make t place dir ?_ hstep, ?_⟩
  · rw [hchars, List.mem_append]
    rintro (hmem | hmem)
    · exact hseparator hmem
    · exact absurd hmem (by decide)
  · rw [hname]
    exact extension?_fileOf hkey

/-! ## One order -/

/-- The name of the file that orders about a value act on, unless they are refused. -/
def target? (k : Kind) (v : k.Val) : Option String := (fileName (k.keyText (k.key v))).toOption

/-- How an order about a value acts on the file of a name and on nothing else. -/
structure ActsOn (name : String) (k : Kind) (order : Order) (v : k.Val) (d d' : Directory)
    (result : Except SyncError Unit) : Prop where
  isFileName : IsFileName name
  path : d'.path = d.path
  present : d'.present = d.present
  others : d'.entries.filter (·.1 ≠ name) = d.entries.filter (·.1 ≠ name)
  /-- The order is carried out, or nothing has changed. -/
  left : result = .ok () → d.present = true → d'.find? name = order.leaves ⟨k, v⟩
  /-- A value that was saved is there when the directory is loaded. -/
  loaded : result = .ok () → order = .save → ∀ loaded, d'.load k = .ok loaded → v ∈ loaded.values
  failed : ∀ e, result = .error e → d' = d ∧ ∃ reason, e = .persistence reason

namespace Directory

variable {d d' : Directory} {k : Kind}

theorem filter_insert (d : Directory) (name : String) (e : Entry) :
    (d.insert name e).entries.filter (·.1 ≠ name) = d.entries.filter (·.1 ≠ name) := by
  simp [insert]

theorem filter_erase (d : Directory) (name : String) :
    (d.erase name).entries.filter (·.1 ≠ name) = d.entries.filter (·.1 ≠ name) := by
  simp [erase]

theorem Loaded.mem_add {v : k.Val} {rest : Loaded k} (h : v ∈ rest.values) (name text : String) :
    v ∈ (rest.add name text).values := by
  unfold Loaded.add
  split
  · exact List.mem_cons_of_mem _ h
  · exact h

theorem Loaded.mem_add_self {v : k.Val} {text : String} (h : k.codec.decode text = .ok v)
    (name : String) (rest : Loaded k) : v ∈ (rest.add name text).values := by
  unfold Loaded.add
  rw [h]
  exact List.mem_cons_self

/-- The value of a file is among those that are loaded, whatever else stands in the directory. -/
theorem mem_values_of_stored {v : k.Val} {name : String} {entries : List (String × Entry)}
    {loaded : Loaded k} (hname : extension? name = some "json")
    (hmem : (name, stored k v) ∈ entries) (h : loadEntries k entries = .ok loaded) :
    v ∈ loaded.values := by
  induction entries generalizing loaded with
  | nil => cases hmem
  | cons head entries ih =>
    obtain ⟨other, entry⟩ := head
    by_cases hother : extension? other = some "json"
    · cases htext : Entry.text entry with
      | error e =>
        rw [loadEntries_cons_of_no_text k _ hother htext] at h
        cases h
      | ok text =>
        rw [loadEntries_cons_of_text k _ hother htext] at h
        cases hrest : loadEntries k entries with
        | error e =>
          rw [hrest] at h
          cases h
        | ok rest =>
          rw [hrest] at h
          obtain rfl : rest.add other text = loaded := Except.ok.inj h
          rcases List.mem_cons.1 hmem with heq | hmem
          · obtain ⟨-, rfl⟩ := Prod.mk.inj heq
            obtain rfl : _ = text := Except.ok.inj ((text_stored k v).symm.trans htext)
            exact Loaded.mem_add_self (k.faithful_codec.decode_indented v) other rest
          · exact Loaded.mem_add (ih hmem hrest) other text
    · rw [loadEntries_cons_of_extension_ne k _ hother] at h
      rcases List.mem_cons.1 hmem with heq | hmem
      · exact absurd ((Prod.mk.inj heq).1 ▸ hname) hother
      · exact ih hmem h

/-- A value that has been saved is loaded from then on. -/
theorem mem_values_of_save {v : k.Val} (h : d.save k v = .ok d') {loaded : Loaded k}
    (hload : d'.load k = .ok loaded) : v ∈ loaded.values := by
  obtain ⟨hname, rfl⟩ := save_eq h
  have hfound := mem_of_find? (d.find?_insert_self (fileOf k (k.key v)) (stored k v))
  unfold load at hload
  split at hload
  · cases hload
  · split at hload
    · rename_i hentries
      cases hload
      exact mem_values_of_stored (isFileName_of_fileName hname).lookedAt hfound hentries
    · cases hload

end Directory

section

variable {d : Directory} {journal : List (Order × Value)} {k : Kind} {v : k.Val} {order : Order}

theorem obey_of_refused (h : target? k v = none) :
    ∃ reason, d.obey k v order = .error (.persistence reason) := by
  unfold target? at h
  cases hname : fileName (k.keyText (k.key v)) with
  | ok name =>
    rw [hname] at h
    cases h
  | error e =>
    have hobey : d.obey k v order = .error e := by
      cases order <;> simp only [Directory.obey, Directory.save, Directory.discard, hname] <;> rfl
    obtain ⟨reason, rfl⟩ := Directory.obey_error hobey
    exact ⟨reason, hobey⟩

theorem fileName_of_target {name : String} (h : target? k v = some name) :
    fileName (k.keyText (k.key v)) = .ok name := by
  unfold target? at h
  cases hname : fileName (k.keyText (k.key v)) with
  | error e =>
    rw [hname] at h
    cases h
  | ok name' =>
    rw [hname] at h
    exact congrArg Except.ok (Option.some.inj h)

theorem actsOn_of_ok {d' : Directory} {name : String} (hname : target? k v = some name)
    (h : d.obey k v order = .ok d') : ActsOn name k order v d d' (.ok ()) := by
  have hok := fileName_of_target hname
  obtain ⟨rfl, -⟩ := fileName_ok hok
  have hfile := isFileName_of_fileName hok
  cases order with
  | save =>
    obtain ⟨-, rfl⟩ := Directory.save_eq h
    exact {
      isFileName := hfile
      path := rfl
      present := rfl
      others := d.filter_insert ..
      left := fun _ _ => d.find?_insert_self ..
      loaded := fun _ _ _ hload => Directory.mem_values_of_save h hload
      failed := fun _ he => nomatch he }
  | remove =>
    by_cases hpresent : d.present = true
    · obtain ⟨-, rfl⟩ := Directory.discard_eq hpresent h
      exact {
        isFileName := hfile
        path := rfl
        present := rfl
        others := d.filter_erase ..
        left := fun _ _ => d.find?_erase_self _
        loaded := fun _ he => nomatch he
        failed := fun _ he => nomatch he }
    · have hdiscard := (Directory.removable_of_discard h).discard
      rw [if_neg hpresent] at hdiscard
      obtain rfl : d = d' := Except.ok.inj (hdiscard.symm.trans h)
      exact {
        isFileName := hfile
        path := rfl
        present := rfl
        others := rfl
        left := fun _ h => absurd h hpresent
        loaded := fun _ he => nomatch he
        failed := fun _ he => nomatch he }

theorem actsOn_of_error {name : String} {e : SyncError} (hname : target? k v = some name)
    (h : d.obey k v order = .error e) : ActsOn name k order v d d (.error e) where
  isFileName := isFileName_of_fileName (fileName_of_target hname)
  path := rfl
  present := rfl
  others := rfl
  left he := nomatch he
  loaded he := nomatch he
  failed _ he := ⟨rfl, Except.error.inj he ▸ Directory.obey_error h⟩

/-- The files of two values are the same just when the values have the same key. -/
theorem target?_eq_iff {u v : k.Val} (h : (target? k u).isSome = true) :
    target? k u = target? k v ↔ k.key u = k.key v := by
  obtain ⟨name, hname⟩ := Option.isSome_iff_exists.1 h
  constructor
  · intro heq
    have hu := (fileName_ok (fileName_of_target hname)).1
    have hv := (fileName_ok (fileName_of_target (heq ▸ hname))).1
    exact fileOf_injective k (hu.symm.trans hv)
  · intro hkey
    simp only [target?, hkey]

theorem joinPath_injective (dir : String) : Function.Injective (joinPath dir) := by
  intro a b h
  unfold joinPath at h
  apply String.toList_inj.1
  have hchars := congrArg String.toList h
  split at hchars <;> simpa using hchars

end

/-- Told to save or remove a value, a store on a directory refuses, and nothing changes, or it acts
on one file that stands directly in its directory and is looked at by loading. Two values have the
same file just when they have the same key. -/
theorem store_confined (k : Kind) :
    (∀ (d : Directory) (journal : List (Order × Value)) (order : Order) (v : k.Val),
      ∃ d', ((⟨some d, journal⟩ : Store).obey order ⟨k, v⟩).1.directory = some d' ∧
        match target? k v with
        | none => d' = d ∧ ∃ reason,
            ((⟨some d, journal⟩ : Store).obey order ⟨k, v⟩).2 = .error (.persistence reason)
        | some name =>
            ActsOn name k order v d d' ((⟨some d, journal⟩ : Store).obey order ⟨k, v⟩).2) ∧
    ∀ (dir : String) (u v : k.Val), (target? k u).isSome = true →
      ((target? k u).map (joinPath dir) = (target? k v).map (joinPath dir) ↔
        k.key u = k.key v) := by
  refine ⟨fun d journal order v => ?_, fun dir u v h => ?_⟩
  · unfold Store.obey
    cases hobey : d.obey k v order with
    | error e =>
      simp only [hobey]
      refine ⟨d, rfl, ?_⟩
      split
      · rename_i hnone
        obtain ⟨reason, hrefused⟩ := obey_of_refused hnone
        exact ⟨rfl, reason, congrArg Except.error (Except.error.inj (hobey.symm.trans hrefused))⟩
      · rename_i hname
        exact actsOn_of_error hname hobey
    | ok d' =>
      simp only [hobey]
      refine ⟨d', rfl, ?_⟩
      split
      · rename_i hnone
        obtain ⟨reason, hrefused⟩ := obey_of_refused hnone
        exact nomatch hobey.symm.trans hrefused
      · rename_i hname
        exact actsOn_of_ok hname hobey
  · rw [(Option.map_injective (joinPath_injective dir)).eq_iff]
    exact target?_eq_iff h

/-- Names that lead out of the directory are refused. Two spellings of a name that looks like that
of a file have one file. -/
theorem store_confined_hostile :
    target? .template ⟨"../escape", [], []⟩ = none ∧ target? .template ⟨"..", [], []⟩ = none ∧
      target? .template ⟨"Lobby.json", [], []⟩ = some "lobby.json.json" ∧
      (target? .template ⟨"Lobby.json", [], []⟩).map (joinPath "templates") =
        (target? .template ⟨"LOBBY.JSON", [], []⟩).map (joinPath "templates") := by
  have hfile : target? .template ⟨"Lobby.json", [], []⟩ = some "lobby.json.json" := by
    decide +kernel
  refine ⟨by decide +kernel, by decide +kernel, hfile, ?_⟩
  refine ((store_confined .template).2 "templates" _ _ ?_).2 (by decide +kernel)
  rw [hfile]
  rfl

end CloudRoster.Storage
