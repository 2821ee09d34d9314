import CloudRoster.Proofs.Cache.OrderedMap

/-!
# Entries that take in values

Values that come one after another are put among the entries: each in the place of the entry of its
key, or behind all others. Values of different keys that were all taken in stand under their keys,
what was there before under other keys stays, and taking them in once more changes nothing.
-/

namespace CloudRoster.Cache

/-- Among values of different keys each is found under its own key. -/
theorem OrderedMap.get?_of_mem {K V : Type} [DecidableEq K] {identify : V → K} {vs : List V}
    (h : (vs.map identify).Nodup) {v : V} (hv : v ∈ vs) :
    get? identify vs (identify v) = some v := by
  induction vs with
  | nil => cases hv
  | cons u vs ih =>
    obtain ⟨hmem, hnodup⟩ := List.nodup_cons.1 h
    rcases List.mem_cons.1 hv with rfl | hv
    · simp [get?]
    · have hne : identify u ≠ identify v := fun heq => hmem (heq ▸ List.mem_map_of_mem hv)
      simpa [get?, hne] using ih hnodup hv

namespace Entries

open OrderedMap (get? get?_eq_none_iff)

variable {K V : Type} [DecidableEq K] {identify : V → K}

/-- The entries with a value, in the place of the entry of its key or behind all others. -/
def put (identify : V → K) (es : Entries K V) (v : V) : Entries K V :=
  if (es.find? (identify v)).isSome then es.replace (identify v) v else es.push (identify v) v

/-- The entries with values that come one after another. -/
def absorb (identify : V → K) (es : Entries K V) (vs : List V) : Entries K V :=
  vs.foldl (put identify) es

/-! ## One value -/

theorem mem_keys_iff {es : Entries K V} {key : K} : key ∈ es.keys ↔ (es.find? key).isSome := by
  rw [Option.isSome_iff_ne_none, ne_eq, find?_eq_none_iff, Decidable.not_not]

theorem find?_put (es : Entries K V) (v : V) (key : K) :
    (es.put identify v).find? key = if key = identify v then some v else es.find? key := by
  unfold put
  by_cases hkey : key = identify v
  · subst hkey
    rw [if_pos rfl]
    split
    · rename_i hfind
      exact find?_replace_self hfind v
    · rename_i hfind
      rw [find?_push, if_pos rfl, Option.not_isSome_iff_eq_none.1 hfind]
      rfl
  · rw [if_neg hkey]
    split
    · exact find?_replace_of_ne es hkey v
    · rw [find?_push, if_neg (Ne.symm hkey), Option.or_none]

theorem keys_put (es : Entries K V) (v : V) : (es.put identify v).keys =
    if identify v ∈ es.keys then es.keys else es.keys ++ [identify v] := by
  unfold put
  by_cases hmem : identify v ∈ es.keys
  · rw [if_pos hmem, if_pos (mem_keys_iff.1 hmem), keys_replace]
  · rw [if_neg hmem, if_neg (fun hfind => hmem (mem_keys_iff.2 hfind)), keys_push]

theorem replace_of_find? {es : Entries K V} {key : K} {v : V} (h : es.find? key = some v) :
    es.replace key v = es := by
  induction es with
  | nil => rfl
  | cons e es ih =>
    obtain ⟨k, old⟩ := e
    by_cases hk : k = key
    · simp only [find?, if_pos hk, Option.some.injEq] at h
      simp only [replace, if_pos hk, h]
    · simp only [find?, if_neg hk] at h
      simp only [replace, if_neg hk, ih h]

/-- A value that is there already changes nothing. -/
theorem put_of_find? {es : Entries K V} {v : V} (h : es.find? (identify v) = some v) :
    es.put identify v = es := by
  unfold put
  rw [h]
  exact replace_of_find? h

/-! ## Values one after another -/

/-- What stands under a key is the value of that key that was taken in, or else what stood there. -/
theorem find?_absorb {vs : List V} (h : (vs.map identify).Nodup) (es : Entries K V) (key : K) :
    (es.absorb identify vs).find? key = (get? identify vs key).or (es.find? key) := by
  induction vs generalizing es with
  | nil => rfl
  | cons v vs ih =>
    obtain ⟨hmem, hnodup⟩ := List.nodup_cons.1 h
    show ((es.put identify v).absorb identify vs).find? key = _
    rw [ih hnodup, find?_put]
    by_cases hkey : key = identify v
    · -- no later value has this key
      subst hkey
      rw [get?_eq_none_iff.2 hmem, if_pos rfl]
      simp [get?]
    · rw [if_neg hkey]
      simp [get?, Ne.symm hkey]

/-- The keys stay where they are, and those that are new stand behind them in the order of their
values. -/
theorem keys_absorb {vs : List V} (h : (vs.map identify).Nodup) (es : Entries K V) :
    (es.absorb identify vs).keys = es.keys ++ (vs.map identify).filter (· ∉ es.keys) := by
  induction vs generalizing es with
  | nil => exact (List.append_nil _).symm
  | cons v vs ih =>
    obtain ⟨hmem, hnodup⟩ := List.nodup_cons.1 h
    show ((es.put identify v).absorb identify vs).keys = _
    rw [ih hnodup, keys_put, List.map_cons]
    by_cases hold : identify v ∈ es.keys
    · rw [if_pos hold, List.filter_cons_of_neg (by simpa using hold)]
    · -- the key that has just come is none of the later ones
      have hlater : (vs.map identify).filter (· ∉ es.keys ++ [identify v]) =
          (vs.map identify).filter (· ∉ es.keys) := by
        refine List.filter_congr fun key hkey => ?_
        have hne : key ≠ identify v := fun heq => hmem (heq ▸ hkey)
        simp [hne]
      rw [if_neg hold, hlater, List.filter_cons_of_pos (by simpa using hold), List.append_assoc]
      rfl

/-- Values whose keys are all new stand behind the entries. -/
theorem absorb_of_new {vs : List V} (h : (vs.map identify).Nodup) {es : Entries K V}
    (hnew : ∀ v ∈ vs, identify v ∉ es.keys) :
    es.absorb identify vs = es ++ keyedBy identify vs := by
  induction vs generalizing es with
  | nil => exact (List.append_nil _).symm
  | cons v vs ih =>
    obtain ⟨hmem, hnodup⟩ := List.nodup_cons.1 h
    have hput : es.put identify v = es ++ [(identify v, v)] := by
      unfold put
      exact if_neg fun hfind => hnew v List.mem_cons_self (mem_keys_iff.2 hfind)
    show (es.put identify v).absorb identify vs = _
    rw [hput, ih hnodup, List.append_assoc]
    · rfl
    · intro u hu hin
      have hkeys : Entries.keys (es ++ [(identify v, v)]) = es.keys ++ [identify v] :=
        keys_push es (identify v) v
      rw [hkeys, List.mem_append, List.mem_singleton] at hin
      rcases hin with hin | hin
      · exact hnew u (List.mem_cons_of_mem v hu) hin
      · exact hmem (hin ▸ List.mem_map_of_mem hu)

/-- Values that are all there change nothing. -/
theorem absorb_of_same {vs : List V} {es : Entries K V}
    (h : ∀ v ∈ vs, es.find? (identify v) = some v) : es.absorb identify vs = es := by
  induction vs with
  | nil => rfl
  | cons v vs ih =>
    show (es.put identify v).absorb identify vs = es
    rw [put_of_find? (h v List.mem_cons_self)]
    exact ih fun u hu => h u (List.mem_cons_of_mem v hu)

/-! ## The values of tidy entries -/

variable {source : Entries K V}

theorem Tidy.get?_values (h : Tidy identify source) (key : K) :
    get? identify source.values key = source.find? key := by
  have hfind : (keyedBy identify source.values).find? key = get? identify source.values key :=
    find?_keyedBy _ _
  rw [← hfind, ← h.eq_keyedBy]

/-- Tidy entries are what becomes of their values from nothing. -/
theorem Tidy.absorb_nil (h : Tidy identify source) :
    absorb identify [] source.values = source := by
  rw [absorb_of_new h.nodup_values (fun v _ => List.not_mem_nil), List.nil_append]
  exact h.eq_keyedBy.symm

/-- Taking in the values of tidy entries a second time changes nothing. -/
theorem Tidy.absorb_absorb (h : Tidy identify source) (es : Entries K V) :
    (es.absorb identify source.values).absorb identify source.values =
      es.absorb identify source.values := by
  refine absorb_of_same fun v hv => ?_
  rw [find?_absorb h.nodup_values, OrderedMap.get?_of_mem h.nodup_values hv]
  rfl

end Entries

end CloudRoster.Cache
