import CloudRoster.Cache.Entries

/-!
# What the operations on entries do

Each operation is described by what it does to the value of every key and to the keys themselves.
Entries are *tidy* if every value stands under its own key and no key stands twice; all operations
keep them so.
-/

namespace CloudRoster.Cache.Entries

variable {K V : Type} [DecidableEq K]

/-! ## The value of a key after a change -/

theorem find?_eq_none_iff {es : Entries K V} {key : K} : es.find? key = none ↔ key ∉ es.keys := by
  induction es with
  | nil => simp [find?, keys]
  | cons e es ih =>
    obtain ⟨k, v⟩ := e
    by_cases h : k = key
    · simp [find?, keys, h]
    · simp only [find?, if_neg h, ih, keys, List.map_cons, List.mem_cons, not_or]
      exact ⟨fun hn => ⟨fun e => h e.symm, hn⟩, fun hn => hn.2⟩

theorem find?_push (es : Entries K V) (key : K) (v : V) (x : K) :
    (es.push key v).find? x = (es.find? x).or (if key = x then some v else none) := by
  induction es with
  | nil => simp [push, find?]
  | cons e es ih =>
    obtain ⟨k, old⟩ := e
    by_cases h : k = x
    · simp [push, find?, h]
    · simpa [push, find?, h] using ih

theorem find?_replace_self {es : Entries K V} {key : K} (h : (es.find? key).isSome) (v : V) :
    (es.replace key v).find? key = some v := by
  induction es with
  | nil => simp [find?] at h
  | cons e es ih =>
    obtain ⟨k, old⟩ := e
    by_cases hk : k = key
    · simp [replace, find?, hk]
    · simp only [find?, if_neg hk] at h
      simpa [replace, find?, hk] using ih h

theorem find?_replace_of_ne (es : Entries K V) {key x : K} (h : x ≠ key) (v : V) :
    (es.replace key v).find? x = es.find? x := by
  induction es with
  | nil => rfl
  | cons e es ih =>
    obtain ⟨k, old⟩ := e
    by_cases hk : k = key
    · have hx : k ≠ x := fun e => h (e.symm.trans hk)
      simp only [replace, if_pos hk, find?, if_neg hx]
    · by_cases hx : k = x
      · simp only [replace, if_neg hk, find?, if_pos hx]
      · simpa only [replace, if_neg hk, find?, if_neg hx] using ih

theorem find?_erase_of_ne (es : Entries K V) {key x : K} (h : x ≠ key) :
    (es.erase key).find? x = es.find? x := by
  induction es with
  | nil => rfl
  | cons e es ih =>
    obtain ⟨k, old⟩ := e
    by_cases hk : k = key
    · have hx : k ≠ x := fun e => h (e.symm.trans hk)
      simp only [erase, if_pos hk, find?, if_neg hx]
    · by_cases hx : k = x
      · simp only [erase, if_neg hk, find?, if_pos hx]
      · simpa only [erase, if_neg hk, find?, if_neg hx] using ih

theorem find?_erase_self {es : Entries K V} (h : es.keys.Nodup) (key : K) :
    (es.erase key).find? key = none := by
  induction es with
  | nil => rfl
  | cons e es ih =>
    obtain ⟨k, old⟩ := e
    obtain ⟨hmem, hnodup⟩ := List.nodup_cons.1 h
    by_cases hk : k = key
    · simp only [erase, if_pos hk]
      exact find?_eq_none_iff.2 (hk ▸ hmem)
    · simpa only [erase, if_neg hk, find?] using ih hnodup

/-- Taking away a key that is not there changes nothing. -/
theorem erase_of_find?_eq_none {es : Entries K V} {key : K} (h : es.find? key = none) :
    es.erase key = es := by
  induction es with
  | nil => rfl
  | cons e es ih =>
    obtain ⟨k, old⟩ := e
    by_cases hk : k = key
    · simp [find?, hk] at h
    · simp only [find?, if_neg hk] at h
      simp only [erase, if_neg hk, ih h]

/-- A value that was put in the place of another is taken away like the other. -/
theorem erase_replace (es : Entries K V) (key : K) (v : V) :
    (es.replace key v).erase key = es.erase key := by
  induction es with
  | nil => rfl
  | cons e es ih =>
    obtain ⟨k, old⟩ := e
    by_cases hk : k = key
    · simp [replace, erase, hk]
    · simpa [replace, erase, hk] using ih

/-! ## The keys after a change -/

omit [DecidableEq K] in
theorem keys_push (es : Entries K V) (key : K) (v : V) :
    (es.push key v).keys = es.keys ++ [key] := by
  simp [push, keys]

theorem keys_replace (es : Entries K V) (key : K) (v : V) : (es.replace key v).keys = es.keys := by
  induction es with
  | nil => rfl
  | cons e es ih =>
    obtain ⟨k, old⟩ := e
    by_cases hk : k = key
    · simp [replace, keys, hk]
    · simpa [replace, keys, hk] using ih

theorem erase_sublist (es : Entries K V) (key : K) : (es.erase key).Sublist es := by
  induction es with
  | nil => exact List.Sublist.refl _
  | cons e es ih =>
    obtain ⟨k, old⟩ := e
    by_cases hk : k = key
    · simpa only [erase, if_pos hk] using List.sublist_cons_self _ _
    · simpa only [erase, if_neg hk] using ih.cons_cons _

/-! ## Tidy entries -/

/-- Every value stands under its own key, and no key stands twice. -/
structure Tidy (identify : V → K) (es : Entries K V) : Prop where
  keyed : ∀ e ∈ es, e.1 = identify e.2
  nodup : es.keys.Nodup

variable {identify : V → K}

omit [DecidableEq K] in
theorem tidy_nil : Tidy identify ([] : Entries K V) := ⟨by simp, List.nodup_nil⟩

omit [DecidableEq K] in
theorem tidy_singleton (v : V) : Tidy identify [(identify v, v)] :=
  ⟨by simp, by simp [keys]⟩

omit [DecidableEq K] in
theorem Tidy.map_values {es : Entries K V} (h : Tidy identify es) :
    es.values.map identify = es.keys := by
  unfold values keys
  rw [List.map_map]
  exact List.map_congr_left fun e he => (h.keyed e he).symm

omit [DecidableEq K] in
theorem Tidy.nodup_values {es : Entries K V} (h : Tidy identify es) :
    (es.values.map identify).Nodup := h.map_values ▸ h.nodup

theorem Tidy.push {es : Entries K V} (h : Tidy identify es) {v : V}
    (hv : es.find? (identify v) = none) : Tidy identify (es.push (identify v) v) := by
  refine ⟨?_, ?_⟩
  · intro e he
    rcases List.mem_append.1 he with he | he
    · exact h.keyed e he
    · rw [List.mem_singleton.1 he]
  · rw [keys_push]
    refine List.nodup_append.2 ⟨h.nodup, by simp, ?_⟩
    intro a ha b hb hab
    rw [hab, List.mem_singleton.1 hb] at ha
    exact find?_eq_none_iff.1 hv ha

theorem Tidy.replace {es : Entries K V} (h : Tidy identify es) (v : V) :
    Tidy identify (es.replace (identify v) v) := by
  refine ⟨?_, by rw [keys_replace]; exact h.nodup⟩
  -- the entries behind are tidy in half only, so the induction is on their keys alone
  have hkeyed := h.keyed
  clear h
  induction es with
  | nil => exact hkeyed
  | cons e es ih =>
    obtain ⟨k, old⟩ := e
    have hes : ∀ e ∈ es, e.1 = identify e.2 := fun e he => hkeyed e (List.mem_cons_of_mem _ he)
    by_cases hk : k = identify v
    · simp only [Entries.replace, if_pos hk]
      intro e he
      rcases List.mem_cons.1 he with rfl | he
      · exact hk
      · exact hes e he
    · simp only [Entries.replace, if_neg hk]
      intro e he
      rcases List.mem_cons.1 he with rfl | he
      · exact hkeyed _ List.mem_cons_self
      · exact ih hes e he

theorem Tidy.erase {es : Entries K V} (h : Tidy identify es) (key : K) :
    Tidy identify (es.erase key) :=
  ⟨fun e he => h.keyed e ((erase_sublist es key).subset he),
    h.nodup.sublist ((erase_sublist es key).map _)⟩

end CloudRoster.Cache.Entries
