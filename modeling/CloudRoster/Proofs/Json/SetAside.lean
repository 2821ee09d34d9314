import CloudRoster.Proofs.Json.Rows

/-!
# Values that are set aside

A value whose type is not known yet is read as a JSON value of any type, which gives up at a depth.
A value that is not nested that far is set aside as it is. What a codec writes is nested as far as
its type says: scalars not at all, a list or a record once more than what it holds.
-/

namespace CloudRoster.Json

mutual

/-- At most so many containers of a value are inside each other. -/
def Fits : Nat → Json → Prop
  | _, .null | _, .boolean _ | _, .number _ | _, .text _ => True
  | 0, .list _ | 0, .map _ => False
  | n + 1, .list items => FitsItems n items
  | n + 1, .map members => FitsMembers n members

/-- All items fit. -/
def FitsItems : Nat → List Json → Prop
  | _, [] => True
  | n, item :: items => Fits n item ∧ FitsItems n items

/-- The values of all members fit. -/
def FitsMembers : Nat → List (String × Json) → Prop
  | _, [] => True
  | n, (_, value) :: members => Fits n value ∧ FitsMembers n members

end

mutual

/-- A value that fits is read as itself. -/
theorem value_draft {n depth : Nat} (hn : n < depth) :
    (j : Json) → Fits n j → j.draft.value depth = .ok j
  | .null, _ => rfl
  | .boolean _, _ => rfl
  | .number _, _ => rfl
  | .text _, _ => rfl
  | .list items, h => by
    obtain ⟨m, rfl⟩ : ∃ m, n = m + 1 := by
      cases n with
      | zero => simp [Fits] at h
      | succ m => exact ⟨m, rfl⟩
    have hitems : valueItems (depth - 1) (draftItems items) = .ok items :=
      valueItems_draftItems (n := m) (by omega) items (by simpa [Fits] using h)
    simp only [draft, Draft.value, if_neg (show ¬ depth ≤ 1 by omega), hitems]
    rfl
  | .map members, h => by
    obtain ⟨m, rfl⟩ : ∃ m, n = m + 1 := by
      cases n with
      | zero => simp [Fits] at h
      | succ m => exact ⟨m, rfl⟩
    have hmembers : valueMembers (depth - 1) (draftMembers members) = .ok members :=
      valueMembers_draftMembers (n := m) (by omega) members (by simpa [Fits] using h)
    simp only [draft, Draft.value, if_neg (show ¬ depth ≤ 1 by omega), hmembers]
    rfl

theorem valueItems_draftItems {n depth : Nat} (hn : n < depth) :
    (items : List Json) → FitsItems n items → valueItems depth (draftItems items) = .ok items
  | [], _ => rfl
  | item :: items, h => by
    have hfits : Fits n item ∧ FitsItems n items := by simpa [FitsItems] using h
    simp only [draftItems, valueItems, value_draft hn item hfits.1,
      valueItems_draftItems hn items hfits.2]
    rfl

theorem valueMembers_draftMembers {n depth : Nat} (hn : n < depth) :
    (members : List (String × Json)) → FitsMembers n members →
    valueMembers depth (draftMembers members) = .ok members
  | [], _ => rfl
  | (key, value) :: members, h => by
    have hfits : Fits n value ∧ FitsMembers n members := by simpa [FitsMembers] using h
    simp only [draftMembers, valueMembers, value_draft hn value hfits.1,
      valueMembers_draftMembers hn members hfits.2]
    rfl

end

/-! ## What codecs write -/

theorem fits_text (n : Nat) (s : String) : Fits n (.text s) := by simp [Fits]

theorem fits_number (n : Nat) (x : Number) : Fits n (.number x) := by simp [Fits]

theorem fitsItems_of_forall {n : Nat} :
    {items : List Json} → (∀ item ∈ items, Fits n item) → FitsItems n items
  | [], _ => by simp [FitsItems]
  | item :: items, h => by
    rw [FitsItems]
    exact ⟨h item List.mem_cons_self,
      fitsItems_of_forall fun j hj => h j (List.mem_cons_of_mem _ hj)⟩

namespace Codec

/-- What a codec writes is nested at most so far. -/
def Within {α : Type} (n : Nat) (c : Codec α) : Prop := ∀ a, Fits n (c.write a)

variable {α : Type} {c : Codec α} {n : Nat}

theorem within_text : text.Within n := fun s => fits_text n s

theorem within_boolean : boolean.Within n := fun _ => by simp [boolean, Fits]

theorem within_uint16 : uint16.Within n := fun _ => fits_number n _

theorem within_uint32 : uint32.Within n := fun _ => fits_number n _

theorem within_int32 : int32.Within n := fun _ => fits_number n _

theorem within_int64 : int64.Within n := fun _ => fits_number n _

theorem within_enumeration (names : List (String × α)) (name : α → String) :
    (enumeration names name).Within n := fun a => fits_text n (name a)

theorem Within.option (h : c.Within n) : (option c).Within n := fun o => by
  cases o with
  | none => simp [Codec.option, Fits]
  | some a => exact h a

theorem Within.list (h : c.Within n) : (list c).Within (n + 1) := fun items => by
  show Fits (n + 1) (.list (items.map c.write))
  rw [Fits]
  refine fitsItems_of_forall fun j hj => ?_
  obtain ⟨a, -, rfl⟩ := List.mem_map.1 hj
  exact h a

end Codec

theorem Row.fitsMembers_write {n : Nat} : (fs : List Field) → (∀ f ∈ fs, f.codec.Within n) →
    (row : Row fs) → FitsMembers n (write fs row)
  | [], _, () => by simp [write, FitsMembers]
  | f :: fs, h, (v, row) => by
    rw [write, FitsMembers]
    exact ⟨h f List.mem_cons_self v,
      fitsMembers_write fs (fun g hg => h g (List.mem_cons_of_mem _ hg)) row⟩

/-- The object of a row is nested once more than what its fields hold. -/
theorem Row.fits_write {n : Nat} {fs : List Field} (h : ∀ f ∈ fs, f.codec.Within n)
    (row : Row fs) : Fits (n + 1) (.map (write fs row)) := by
  rw [Fits]
  exact fitsMembers_write fs h row

theorem Record.within_codec {α : Type} {r : Record α} {n : Nat}
    (h : ∀ f ∈ r.fields, f.codec.Within n) : r.codec.Within (n + 1) :=
  fun a => Row.fits_write h (r.toRow a)

end CloudRoster.Json
