import CloudRoster.Json.Value

/-!
# Canonical values

Of all ways to write the members of an object, the canonical one has them in the order of their
keys, and each key once, with the value that was written last.
-/

namespace CloudRoster.Json

/-- Members without those that another member of the same key follows. -/
def lastOfEach : List (String × Json) → List (String × Json)
  | [] => []
  | m :: ms => if ms.any (·.1 = m.1) then lastOfEach ms else m :: lastOfEach ms

theorem mem_of_mem_lastOfEach {m : String × Json} {ms : List (String × Json)}
    (h : m ∈ lastOfEach ms) : m ∈ ms := by
  induction ms with
  | nil => exact h
  | cons n ms ih =>
    simp only [lastOfEach] at h
    split at h
    · exact List.mem_cons_of_mem n (ih h)
    · rcases List.mem_cons.1 h with rfl | h
      · exact List.mem_cons_self
      · exact List.mem_cons_of_mem n (ih h)

/-- No key is repeated. -/
theorem nodup_lastOfEach (ms : List (String × Json)) : ((lastOfEach ms).map (·.1)).Nodup := by
  induction ms with
  | nil => exact List.nodup_nil
  | cons m ms ih =>
    simp only [lastOfEach]
    split
    · exact ih
    · next h =>
      rw [List.map_cons, List.nodup_cons]
      refine ⟨fun hm => h ?_, ih⟩
      obtain ⟨n, hn, e⟩ := List.mem_map.1 hm
      exact List.any_eq_true.2 ⟨n, mem_of_mem_lastOfEach hn, by simp [e]⟩

mutual

/-- The value with the members of all its objects in canonical order. -/
def canonical : Json → Json
  | .list items => .list (canonicalItems items)
  | .map members => .map ((lastOfEach (canonicalMembers members)).mergeSort fun a b => !(b.1 < a.1))
  | v => v

/-- The items of an array, each in canonical order. -/
def canonicalItems : List Json → List Json
  | [] => []
  | item :: items => canonical item :: canonicalItems items

/-- The members of an object, their values in canonical order. -/
def canonicalMembers : List (String × Json) → List (String × Json)
  | [] => []
  | (key, value) :: members => (key, canonical value) :: canonicalMembers members

end

end CloudRoster.Json
