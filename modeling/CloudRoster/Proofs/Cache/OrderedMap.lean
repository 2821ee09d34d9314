import CloudRoster.Proofs.Cache.Entries

/-!
# Values as an ordered map

The plainest form of an ordered map is the list of its values, told apart by what identifies them.
Putting a value replaces the one it is identified with where that stands, or goes to the end;
removing one leaves the others in their order. Tidy entries are such a list with the keys written
out, and each operation on them is the plain one.
-/

namespace CloudRoster.Cache

variable {K V : Type} [DecidableEq K] (identify : V → K)

namespace OrderedMap

/-- The value of a key. -/
def get? (vs : List V) (key : K) : Option V := vs.find? fun u => identify u = key

/-- The values with one more, or with another one in its place. -/
def put (vs : List V) (v : V) : List V :=
  if (get? identify vs (identify v)).isSome then
    vs.map fun u => if identify u = identify v then v else u
  else vs ++ [v]

/-- The values without that of a key. -/
def remove (vs : List V) (key : K) : List V := vs.filter fun u => identify u ≠ key

variable {identify}

theorem get?_eq_none_iff {vs : List V} {key : K} :
    get? identify vs key = none ↔ key ∉ vs.map identify := by
  simp [get?, List.find?_eq_none]

theorem mem_of_get?_eq_some {vs : List V} {key : K} {u : V} (h : get? identify vs key = some u) :
    key ∈ vs.map identify := by
  have hkey : identify u = key := by simpa using List.find?_some h
  exact hkey ▸ List.mem_map_of_mem (List.mem_of_find?_eq_some h)

/-- Replacing a value by one of the same key keeps all keys where they are. -/
theorem map_identify_replace (vs : List V) (v : V) :
    (vs.map fun u => if identify u = identify v then v else u).map identify = vs.map identify := by
  rw [List.map_map]
  refine List.map_congr_left fun u _ => ?_
  by_cases h : identify u = identify v
  · simp [h]
  · simp [h]

theorem nodup_put {vs : List V} (h : (vs.map identify).Nodup) (v : V) :
    ((put identify vs v).map identify).Nodup := by
  unfold put
  split
  · rw [map_identify_replace]
    exact h
  · rename_i hv
    have hmem : identify v ∉ vs.map identify := get?_eq_none_iff.1 (by simpa using hv)
    rw [List.map_append]
    refine List.nodup_append.2 ⟨h, by simp, ?_⟩
    intro a ha b hb hab
    rw [hab, List.mem_singleton.1 hb] at ha
    exact hmem ha

theorem nodup_remove {vs : List V} (h : (vs.map identify).Nodup) (key : K) :
    ((remove identify vs key).map identify).Nodup :=
  h.sublist (List.filter_sublist.map _)

/-- Removing what is not there changes nothing. -/
theorem remove_of_get?_eq_none {vs : List V} {key : K} (h : get? identify vs key = none) :
    remove identify vs key = vs := by
  refine List.filter_eq_self.2 fun u hu => ?_
  have hne : identify u ≠ key := fun e => get?_eq_none_iff.1 h (e ▸ List.mem_map_of_mem hu)
  simpa using hne

/-- What was put in the place of a value is removed like the value. -/
theorem remove_replace (vs : List V) (v : V) :
    remove identify (vs.map fun u => if identify u = identify v then v else u) (identify v) =
      remove identify vs (identify v) := by
  induction vs with
  | nil => rfl
  | cons u vs ih =>
    unfold remove at ih ⊢
    by_cases hu : identify u = identify v
    · simpa [hu] using ih
    · simpa [hu] using ih

/-! ### What is found -/

/-- What is found has the key that it was looked for with. -/
theorem identify_of_get?_eq_some {vs : List V} {v : V} {key : K}
    (h : get? identify vs key = some v) : identify v = key := by
  simpa using List.find?_some h

/-- What stands where a value was replaced. -/
theorem get?_replace (vs : List V) (v : V) (key : K) :
    get? identify (vs.map fun u => if identify u = identify v then v else u) key =
      (get? identify vs key).map fun u => if identify u = identify v then v else u := by
  have hsame : (fun u => decide (identify u = key)) ∘
      (fun u => if identify u = identify v then v else u) = fun u => decide (identify u = key) := by
    funext u
    by_cases hu : identify u = identify v
    · simp [hu]
    · simp [hu]
  unfold get?
  rw [List.find?_map, hsame]

theorem get?_put_self (vs : List V) (v : V) :
    get? identify (put identify vs v) (identify v) = some v := by
  unfold put
  cases hget : get? identify vs (identify v) with
  | none =>
    have hfind : vs.find? (fun u => decide (identify u = identify v)) = none := hget
    simp [get?, List.find?_append, hfind]
  | some u =>
    have hu : identify u = identify v := identify_of_get?_eq_some hget
    simp [get?_replace, hget, hu]

theorem get?_put_of_ne (vs : List V) {v : V} {key : K} (h : key ≠ identify v) :
    get? identify (put identify vs v) key = get? identify vs key := by
  unfold put
  split
  · rw [get?_replace]
    cases hget : get? identify vs key with
    | none => rfl
    | some u =>
      have hu : identify u = key := identify_of_get?_eq_some hget
      simp [hu, h]
  · simp [get?, List.find?_append, Ne.symm h]

theorem get?_remove_self (vs : List V) (key : K) :
    get? identify (remove identify vs key) key = none := by
  rw [get?_eq_none_iff]
  simp [remove]

theorem get?_remove_of_ne (vs : List V) {key other : K} (h : other ≠ key) :
    get? identify (remove identify vs key) other = get? identify vs other := by
  have hsame : (fun u => !decide (identify u = key) && decide (identify u = other)) =
      fun u => decide (identify u = other) := by
    funext u
    by_cases hu : identify u = other
    · simp [hu, h]
    · simp [hu]
  simp [get?, remove, List.find?_filter, hsame]

end OrderedMap

namespace Entries

open OrderedMap

/-- Values with their keys written out. -/
def keyedBy (vs : List V) : Entries K V := vs.map fun v => (identify v, v)

variable {identify}

omit [DecidableEq K] in
theorem Tidy.eq_keyedBy {es : Entries K V} (h : Tidy identify es) :
    es = keyedBy identify es.values := by
  have hkeyed := h.keyed
  clear h
  induction es with
  | nil => rfl
  | cons e es ih =>
    have he : e = (identify e.2, e.2) := Prod.ext (hkeyed e List.mem_cons_self) rfl
    have hes := ih fun e he => hkeyed e (List.mem_cons_of_mem _ he)
    show e :: es = (identify e.2, e.2) :: keyedBy identify (values es)
    rw [← hes, ← he]

omit [DecidableEq K] in
theorem values_keyedBy (vs : List V) : (keyedBy identify vs).values = vs := by
  simp [keyedBy, values, Function.comp_def]

theorem find?_keyedBy (vs : List V) (key : K) :
    (keyedBy identify vs).find? key = get? identify vs key := by
  induction vs with
  | nil => rfl
  | cons u vs ih =>
    by_cases h : identify u = key
    · simp [keyedBy, find?, get?, h]
    · simpa [keyedBy, find?, get?, h] using ih

omit [DecidableEq K] in
theorem push_keyedBy (vs : List V) (v : V) :
    (keyedBy identify vs).push (identify v) v = keyedBy identify (vs ++ [v]) := by
  simp [keyedBy, push]

theorem replace_keyedBy {vs : List V} (h : (vs.map identify).Nodup) (v : V) :
    (keyedBy identify vs).replace (identify v) v =
      keyedBy identify (vs.map fun u => if identify u = identify v then v else u) := by
  induction vs with
  | nil => rfl
  | cons u vs ih =>
    obtain ⟨hmem, hnodup⟩ := List.nodup_cons.1 h
    by_cases hu : identify u = identify v
    · -- no later value has this key, so the map changes nothing behind the first one
      have hrest : (vs.map fun w => if identify w = identify v then v else w) = vs := by
        refine (List.map_congr_left fun w hw => ?_).trans (List.map_id vs)
        have hne : identify w ≠ identify v := fun e => hmem (hu ▸ e ▸ List.mem_map_of_mem hw)
        simp [hne]
      show replace ((identify u, u) :: keyedBy identify vs) (identify v) v = _
      rw [List.map_cons, hrest, if_pos hu]
      simp [replace, keyedBy, hu]
    · show replace ((identify u, u) :: keyedBy identify vs) (identify v) v = _
      rw [List.map_cons, if_neg hu]
      simp only [replace, if_neg hu, ih hnodup]
      rfl

theorem erase_keyedBy {vs : List V} (h : (vs.map identify).Nodup) (key : K) :
    (keyedBy identify vs).erase key = keyedBy identify (remove identify vs key) := by
  induction vs with
  | nil => rfl
  | cons u vs ih =>
    obtain ⟨hmem, hnodup⟩ := List.nodup_cons.1 h
    by_cases hu : identify u = key
    · -- the key stands only here, so the filter takes nothing else away
      have hrest : remove identify vs key = vs := by
        refine List.filter_eq_self.2 fun w hw => ?_
        have hne : identify w ≠ key := fun e => hmem (hu ▸ e ▸ List.mem_map_of_mem hw)
        simpa using hne
      have hcons : remove identify (u :: vs) key = remove identify vs key := by
        simp [remove, hu]
      rw [hcons, hrest]
      simp [keyedBy, erase, hu]
    · have hcons : remove identify (u :: vs) key = u :: remove identify vs key := by
        simp [remove, hu]
      rw [hcons]
      show erase ((identify u, u) :: keyedBy identify vs) key = _
      simp only [erase, if_neg hu, ih hnodup]
      rfl

end Entries

end CloudRoster.Cache
