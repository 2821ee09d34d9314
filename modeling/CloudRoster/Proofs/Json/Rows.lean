import CloudRoster.Json.Record
import CloudRoster.Proofs.Json.Faithful

/-!
# Records that are read back

A record is read member by member, and what counts of the members of an object is what stands under
the name of each field (`named`); members under other names are skipped. So the law of reading is
stated for the slots that are filled so far: those whose names are done hold the values of the row,
and the others none. The order of the members plays no part in it, nor does what is skipped.

An object is read as a row if it has each field at most once, with the value of the row, and the
values of those that are missing are what stands for them (`Row.Told.readMap?_eq`). Of whatever
object is read, no field stands in it twice, and something stands for those that are missing
(`Row.once_of_readMap?`).
-/

namespace CloudRoster.Json

/-- The values that stand under a name, in order. -/
def named (name : String) : List (Key × Draft) → List Draft
  | [] => []
  | (key, d) :: members => if key = .text name then d :: named name members else named name members

section named

variable {name : String} {d : Draft} {members : List (Key × Draft)}

theorem named_cons_self : named name ((.text name, d) :: members) = d :: named name members :=
  if_pos rfl

theorem named_cons_of_ne {key : String} (h : key ≠ name) :
    named name ((.text key, d) :: members) = named name members :=
  if_neg fun e => h (Key.text.inj e)

theorem mem_named : (.text name, d) ∈ members ↔ d ∈ named name members := by
  induction members with
  | nil => simp [named]
  | cons m members ih =>
    obtain ⟨key, e⟩ := m
    by_cases h : key = .text name
    · rw [h, named_cons_self]
      simp [ih]
    · simp [named, h, Ne.symm h, ih]

end named

theorem draftMembers_eq_map : (members : List (String × Json)) →
    draftMembers members = members.map fun m => (.text m.1, m.2.draft)
  | [] => rfl
  | _ :: members => congrArg _ (draftMembers_eq_map members)

/-- A name that none of the fields has is not the name of one of them. -/
theorem Field.ne_name_of_mem {name : String} {fs : List Field} (hname : name ∉ fs.map (·.name))
    {f : Field} (hf : f ∈ fs) : name ≠ f.name := by
  rintro rfl
  exact hname (List.mem_map_of_mem hf)

namespace Row

/-- A property of the value of each field. -/
def Forall (P : (f : Field) → f.Val → Prop) : (fs : List Field) → Row fs → Prop
  | [], () => True
  | f :: fs, (v, row) => P f v ∧ Forall P fs row

theorem Forall.imp {P Q : (f : Field) → f.Val → Prop} : (fs : List Field) → (row : Row fs) →
    (∀ f ∈ fs, ∀ v, P f v → Q f v) → Forall P fs row → Forall Q fs row
  | [], (), _, _ => trivial
  | f :: fs, (v, row), h, hrow => ⟨h f List.mem_cons_self v hrow.1,
    Forall.imp fs row (fun g hg => h g (List.mem_cons_of_mem _ hg)) hrow.2⟩

/-- The field of a name has the property, and its value is written under the name. -/
theorem exists_of_forall {P : (f : Field) → f.Val → Prop} {name : String} : (fs : List Field) →
    (row : Row fs) → Forall P fs row → name ∈ fs.map (·.name) →
    ∃ (f : Field) (v : f.Val), f.name = name ∧ P f v ∧ (name, f.codec.write v) ∈ write fs row
  | f :: fs, (v, row), h, hname => by
    rcases List.mem_cons.1 hname with rfl | hname
    · exact ⟨f, v, rfl, h.1, List.mem_cons_self⟩
    · obtain ⟨g, w, hg, hP, hmem⟩ := exists_of_forall fs row h.2 hname
      exact ⟨g, w, hg, hP, List.mem_cons_of_mem _ hmem⟩

theorem names_write : (fs : List Field) → (row : Row fs) →
    (write fs row).map (·.1) = fs.map (·.name)
  | [], () => rfl
  | f :: fs, (v, row) => by simp [write, names_write fs row]

theorem plain_write : (fs : List Field) → (∀ f ∈ fs, f.codec.Faithful) → (row : Row fs) →
    PlainMembers (write fs row)
  | [], _, () => trivial
  | f :: fs, h, (v, row) => ⟨(h f List.mem_cons_self).plain v,
    plain_write fs (fun g hg => h g (List.mem_cons_of_mem _ hg)) row⟩

/-- A member that a reader of a row passes: it has the value of a field under its name, or another
name and a value that can be skipped. -/
inductive Suits {fs : List Field} (row : Row fs) : Key × Draft → Prop
  | field {name : String} {value : Json} (hmem : (name, value) ∈ write fs row) :
    Suits row (.text name, value.draft)
  | other {name : String} {d : Draft} (hunknown : name ∉ fs.map (·.name))
    (hskip : d.skip = .ok ()) :
    Suits row (.text name, d)

end Row

namespace Slots

/-! ## Filling slots -/

/-- The slots of a row of which some names are done. -/
def filled : (fs : List Field) → Row fs → (String → Bool) → Slots fs
  | [], (), _ => ()
  | f :: fs, (v, row), done => (if done f.name then some v else none, filled fs row done)

/-- Only the names of the fields count. -/
theorem filled_congr {done done' : String → Bool} : (fs : List Field) → (row : Row fs) →
    (∀ f ∈ fs, done f.name = done' f.name) → filled fs row done = filled fs row done'
  | [], (), _ => rfl
  | f :: fs, (v, row), h => by
    simp only [filled, h f List.mem_cons_self,
      filled_congr fs row fun g hg => h g (List.mem_cons_of_mem _ hg)]

theorem filled_none : (fs : List Field) → (row : Row fs) →
    filled fs row (fun _ => false) = empty fs
  | [], () => rfl
  | f :: fs, (v, row) => by
    simp only [filled, empty, filled_none fs row]
    rfl

/-- Fields that are not done get what stands for them. -/
theorem complete_filled {done : String → Bool} : (fs : List Field) → (row : Row fs) →
    Row.Forall (fun f v => done f.name = true ∨ f.absent = some v) fs row →
    complete fs (filled fs row done) = .ok row
  | [], (), _ => rfl
  | f :: fs, (v, row), h => by
    have hslot : (if done f.name then some v else none).or f.absent = some v := by
      rcases h.1 with hdone | habsent
      · rw [if_pos hdone]
        rfl
      · cases done f.name <;> simp [habsent]
    simp only [filled, complete, hslot, complete_filled fs row h.2]
    rfl

/-- A name that is not done names no field that has its value. -/
theorem vacant?_filled {done : String → Bool} {key : String} (hkey : done key = false) :
    (fs : List Field) → (row : Row fs) → vacant? fs (filled fs row done) key ≠ some false
  | [], () => by simp [vacant?]
  | f :: fs, (v, row) => by
    by_cases h : f.name = key
    · simp [vacant?, filled, h, hkey]
    · simpa [vacant?, filled, h] using vacant?_filled hkey fs row

theorem vacant?_of_notMem {key : String} : (fs : List Field) → (slots : Slots fs) →
    key ∉ fs.map (·.name) → vacant? fs slots key = none
  | [], (), _ => rfl
  | f :: fs, (slot, slots), h => by
    have hne : f.name ≠ key := fun e => h (e ▸ List.mem_cons_self)
    rw [vacant?, if_neg hne]
    exact vacant?_of_notMem fs slots fun hin => h (List.mem_cons_of_mem _ hin)

/-- Reading a member of a row fills the slot of its field with the value of the row. -/
theorem fill_filled (medium : Medium) (done : String → Bool) {key : String} {value : Json} :
    (fs : List Field) → (∀ f ∈ fs, f.codec.Faithful) → (fs.map (·.name)).Nodup → (row : Row fs) →
    (key, value) ∈ Row.write fs row →
    fill medium fs (filled fs row done) key value.draft =
      .ok (filled fs row fun s => done s || s = key)
  | [], _, _, (), hmem => by simp [Row.write] at hmem
  | f :: fs, hfaithful, hnodup, (v, row), hmem => by
    obtain ⟨hname, hnodup⟩ := List.nodup_cons.1 hnodup
    rcases List.mem_cons.1 hmem with heq | hmem
    · -- the member is that of the first field; as names differ, the other slots do not see it
      obtain ⟨rfl, rfl⟩ := Prod.mk.inj heq
      have hread := (hfaithful f List.mem_cons_self).read_draft medium v
      have hothers : filled fs row done = filled fs row fun s => done s || s = f.name := by
        refine filled_congr fs row fun g hg => ?_
        simp [(Field.ne_name_of_mem hname hg).symm]
      simp only [fill, filled, hread, ← hothers]
      simp [Except.map]
    · -- the member is that of a later field
      have hkey : f.name ≠ key := by
        intro e
        have hin : key ∈ (Row.write fs row).map (·.1) := List.mem_map_of_mem hmem
        rw [Row.names_write, ← e] at hin
        exact hname hin
      have ih := fill_filled medium done fs
        (fun g hg => hfaithful g (List.mem_cons_of_mem _ hg)) hnodup row hmem
      simp only [fill, filled, if_neg hkey, ih]
      simp [Except.map, hkey]

/-- The value of a name that is not of a field is skipped. -/
theorem fill_of_notMem (medium : Medium) {key : String} {d : Draft} (hskip : d.skip = .ok ()) :
    (fs : List Field) → (slots : Slots fs) → key ∉ fs.map (·.name) →
    fill medium fs slots key d = .ok slots
  | [], (), _ => hskip
  | f :: fs, (slot, slots), h => by
    have hne : f.name ≠ key := fun e => h (e ▸ List.mem_cons_self)
    rw [fill, if_neg hne, fill_of_notMem medium hskip fs slots fun hin =>
      h (List.mem_cons_of_mem _ hin)]
    rfl

/-- A member whose name has no value yet is read into its slot. -/
theorem fillAll_cons {medium : Medium} {fs : List Field} {slots : Slots fs} {name : String}
    (hfree : vacant? fs slots name ≠ some false) (d : Draft) (members : List (Key × Draft)) :
    fillAll medium fs slots ((.text name, d) :: members) =
      (fill medium fs slots name d).bind fun slots => fillAll medium fs slots members := by
  have hcheck : checkKey fs slots (.text name) = .ok () := by
    show (if vacant? fs slots name = some false then _ else _) = _
    rw [if_neg hfree]
    rfl
  rw [fillAll, hcheck]
  rfl

/-- Reading a member that suits a row does what is left to do of its name. -/
theorem fillAll_cons_filled (medium : Medium) {fs : List Field}
    (hfaithful : ∀ f ∈ fs, f.codec.Faithful) (hnodup : (fs.map (·.name)).Nodup) {row : Row fs}
    {key : Key} {d : Draft} (hsuits : row.Suits (key, d)) {done : String → Bool}
    (hfree : ∀ name, key = .text name → name ∈ fs.map (·.name) → done name = false)
    (members : List (Key × Draft)) :
    fillAll medium fs (filled fs row done) ((key, d) :: members) =
      fillAll medium fs (filled fs row fun s => done s || key = .text s) members := by
  cases hsuits with
  | @field name value hmem =>
    have hname : name ∈ fs.map (·.name) := by
      rw [← Row.names_write fs row]
      exact List.mem_map_of_mem hmem
    have hfill := fill_filled medium done fs hfaithful hnodup row hmem
    have hdone : (fun s => done s || decide (Key.text name = .text s)) =
        fun s => done s || s = name := by
      funext s
      simp [eq_comm]
    rw [fillAll_cons (vacant?_filled (hfree name rfl hname) fs row), hfill, hdone]
    rfl
  | @other name d hunknown hskip =>
    have hskip := fill_of_notMem medium hskip fs (filled fs row done) hunknown
    have hvacant := vacant?_of_notMem fs (filled fs row done) hunknown
    have hsame : filled fs row done = filled fs row fun s => done s || Key.text name = .text s :=
      filled_congr fs row fun f hf => by simp [Field.ne_name_of_mem hunknown hf]
    rw [fillAll_cons (by simp [hvacant]), hskip, ← hsame]
    rfl

/-- Reading members that suit a row, in any order, fills the slots of the fields among them, if none
of them comes twice or is done already. -/
theorem fillAll_filled (medium : Medium) {fs : List Field} (hfaithful : ∀ f ∈ fs, f.codec.Faithful)
    (hnodup : (fs.map (·.name)).Nodup) (row : Row fs) {members : List (Key × Draft)}
    (hsuits : ∀ m ∈ members, row.Suits m) (done : String → Bool)
    (honce : ∀ name ∈ fs.map (·.name), (named name members).length + (done name).toNat ≤ 1) :
    fillAll medium fs (filled fs row done) members =
      .ok (filled fs row fun s => done s || named s members ≠ []) := by
  induction members generalizing done with
  | nil => simp [named, fillAll]
  | cons m members ih =>
    obtain ⟨key, d⟩ := m
    have hfree : ∀ name, key = .text name → name ∈ fs.map (·.name) → done name = false := by
      rintro name rfl hname
      have hcount := honce name hname
      rw [named_cons_self, List.length_cons] at hcount
      cases hdone : done name with
      | false => rfl
      | true =>
        rw [hdone, Bool.toNat_true] at hcount
        omega
    -- the key counts as done now instead of as a member
    have hcount : ∀ name ∈ fs.map (·.name),
        (named name members).length + (done name || decide (key = .text name)).toNat ≤ 1 := by
      intro name hname
      have hcount := honce name hname
      by_cases h : key = .text name
      · rw [h, named_cons_self, hfree name h hname] at hcount
        simpa [h, hfree name h hname] using hcount
      · simpa [named, h] using hcount
    rw [fillAll_cons_filled medium hfaithful hnodup (hsuits _ List.mem_cons_self) hfree,
      ih (fun m hm => hsuits m (List.mem_cons_of_mem _ hm)) _ hcount]
    refine congrArg Except.ok (filled_congr fs row fun f _ => ?_)
    by_cases h : key = .text f.name <;> simp [named, h]

end Slots

namespace Row

/-- The members of an object tell a row: every key is a text, each field has its value under its
name or is left out where that value stands for it, and all other values can be skipped. -/
structure Told {fs : List Field} (row : Row fs) (members : List (Key × Draft)) : Prop where
  keys : ∀ m ∈ members, ∃ name, m.1 = .text name
  fields : Forall (fun f v => named f.name members = [(f.codec.write v).draft] ∨
    (named f.name members = [] ∧ f.absent = some v)) fs row
  others : ∀ name d, (.text name, d) ∈ members → name ∉ fs.map (·.name) → d.skip = .ok ()

namespace Told

variable {fs : List Field} {row : Row fs} {members : List (Key × Draft)}

theorem suits (h : row.Told members) : ∀ m ∈ members, row.Suits m := by
  intro ⟨key, d⟩ hm
  obtain ⟨name, rfl⟩ : ∃ name, key = .text name := h.keys _ hm
  by_cases hname : name ∈ fs.map (·.name)
  · obtain ⟨f, v, rfl, htold, hmem⟩ := exists_of_forall fs row h.fields hname
    have hd := mem_named.1 hm
    rcases htold with hone | ⟨hnone, -⟩
    · rw [hone] at hd
      rw [List.mem_singleton.1 hd]
      exact .field hmem
    · rw [hnone] at hd
      cases hd
  · exact .other hname (h.others name d hm hname)

theorem once (h : row.Told members) (name : String) (hname : name ∈ fs.map (·.name)) :
    (named name members).length ≤ 1 := by
  obtain ⟨f, v, rfl, htold, -⟩ := exists_of_forall fs row h.fields hname
  rcases htold with hone | ⟨hnone, -⟩
  · exact Nat.le_of_eq (congrArg List.length hone)
  · rw [hnone]
    exact Nat.zero_le 1

/-- A row that an object tells is read from it. -/
theorem readMap?_eq (hfaithful : ∀ f ∈ fs, f.codec.Faithful) (hnodup : (fs.map (·.name)).Nodup)
    (medium : Medium) (h : row.Told members) :
    readMap? medium fs (.map members) = some (.ok row) := by
  have hfill := Slots.fillAll_filled medium hfaithful hnodup row h.suits (fun _ => false) h.once
  rw [Slots.filled_none] at hfill
  have hcomplete : Slots.complete fs (Slots.filled fs row fun s =>
      false || named s members ≠ []) = .ok row := by
    refine Slots.complete_filled fs row (h.fields.imp fs row fun f _ v htold => ?_)
    rcases htold with hone | ⟨-, habsent⟩
    · exact .inl (by simp [hone])
    · exact .inr habsent
  refine congrArg some ?_
  show (do
    let slots ← Slots.fillAll medium fs (.empty fs) members
    Slots.complete fs slots) = _
  rw [hfill]
  exact hcomplete

end Told

/-- What is written of a row stands under the names of its fields. -/
theorem name_of_mem_written {fs : List Field} {row : Row fs} {m : Key × Draft}
    (h : m ∈ draftMembers (write fs row)) : ∃ name ∈ fs.map (·.name), m.1 = .text name := by
  rw [draftMembers_eq_map] at h
  obtain ⟨⟨name, value⟩, hm, rfl⟩ := List.mem_map.1 h
  exact ⟨name, names_write fs row ▸ List.mem_map_of_mem hm, rfl⟩

/-- What is written of a row has the value of each field once under its name. -/
theorem named_write : (fs : List Field) → (fs.map (·.name)).Nodup → (row : Row fs) →
    Forall (fun f v => named f.name (draftMembers (write fs row)) = [(f.codec.write v).draft])
      fs row
  | [], _, () => trivial
  | f :: fs, hnodup, (v, row) => by
    obtain ⟨hname, hnodup⟩ := List.nodup_cons.1 hnodup
    have hothers : named f.name (draftMembers (write fs row)) = [] := by
      refine List.eq_nil_iff_forall_not_mem.2 fun d hd => ?_
      obtain ⟨name, hin, hkey⟩ := name_of_mem_written (mem_named.2 hd)
      rw [← Key.text.inj hkey] at hin
      exact hname hin
    refine ⟨?_, (named_write fs hnodup row).imp fs row fun g hg w h => ?_⟩
    · show named f.name ((.text f.name, (f.codec.write v).draft) ::
        draftMembers (write fs row)) = _
      rw [named_cons_self, hothers]
    · exact (named_cons_of_ne (Field.ne_name_of_mem hname hg)).trans h

/-- The object that is written of a row tells it. -/
theorem told_write (fs : List Field) (hnodup : (fs.map (·.name)).Nodup) (row : Row fs) :
    row.Told (draftMembers (write fs row)) where
  keys m hm := by
    obtain ⟨name, -, hkey⟩ := name_of_mem_written hm
    exact ⟨name, hkey⟩
  fields := (named_write fs hnodup row).imp fs row fun _ _ _ h => .inl h
  others name d hm hother := by
    obtain ⟨key, hin, hkey⟩ := name_of_mem_written hm
    rw [← Key.text.inj hkey] at hin
    exact absurd hin hother

/-- The object of a row is read back, if the fields have faithful codecs and different names. -/
theorem readMap?_write {fs : List Field} (hfaithful : ∀ f ∈ fs, f.codec.Faithful)
    (hnodup : (fs.map (·.name)).Nodup) (medium : Medium) (row : Row fs) :
    readMap? medium fs (.map (draftMembers (write fs row))) = some (.ok row) :=
  (told_write fs hnodup row).readMap?_eq hfaithful hnodup medium

end Row

namespace Slots

/-! ## What stood in an object that was read -/

theorem vacant?_empty {name : String} : (fs : List Field) → name ∈ fs.map (·.name) →
    vacant? fs (empty fs) name = some true
  | f :: fs, h => by
    by_cases e : f.name = name
    · exact if_pos e
    · have hrest := (List.mem_cons.1 h).resolve_left (Ne.symm e)
      exact (if_neg e).trans (vacant?_empty fs hrest)

/-- Reading a value fills the slot of its name, and of no other. -/
theorem vacant?_fill {medium : Medium} {key : String} {d : Draft} (name : String) :
    (fs : List Field) → {slots slots' : Slots fs} → fill medium fs slots key d = .ok slots' →
    vacant? fs slots' name =
      if name = key then (vacant? fs slots name).map fun _ => false else vacant? fs slots name
  | [], (), (), _ => by simp [vacant?]
  | f :: fs, (slot, slots), final, h => by
    by_cases hkey : f.name = key
    · rw [fill, if_pos hkey] at h
      cases hread : f.codec.read medium d with
      | error e =>
        rw [hread] at h
        cases h
      | ok v =>
        rw [hread] at h
        cases h
        by_cases e : f.name = name
        · simp [vacant?, e, ← hkey]
        · have hne : name ≠ key := fun hn => e (hkey.trans hn.symm)
          simp [vacant?, e, hne]
    · rw [fill, if_neg hkey] at h
      cases hrest : fill medium fs slots key d with
      | error e =>
        rw [hrest] at h
        cases h
      | ok slots' =>
        rw [hrest] at h
        cases h
        by_cases e : f.name = name
        · have hne : name ≠ key := fun hn => hkey (e.trans hn)
          simp [vacant?, e, hne]
        · simpa [vacant?, e] using vacant?_fill name fs hrest

/-- A member that was read has a text as its key, which named no field with a value. -/
theorem fillAll_cons_ok {medium : Medium} {fs : List Field} {slots final : Slots fs} {key : Key}
    {d : Draft} {members : List (Key × Draft)}
    (h : fillAll medium fs slots ((key, d) :: members) = .ok final) :
    ∃ name slots', key = .text name ∧ vacant? fs slots name ≠ some false ∧
      fill medium fs slots name d = .ok slots' ∧ fillAll medium fs slots' members = .ok final := by
  cases key with
  | unreadable f => cases h
  | text name =>
    have hfree : vacant? fs slots name ≠ some false := by
      intro hvacant
      have hcheck : checkKey fs slots (.text name) = .error (.duplicateField name) := if_pos hvacant
      rw [fillAll, hcheck] at h
      cases h
    rw [fillAll_cons hfree] at h
    cases hfill : fill medium fs slots name d with
    | error f =>
      rw [hfill] at h
      cases h
    | ok slots' =>
      rw [hfill] at h
      exact ⟨name, slots', rfl, hfree, hfill, h⟩

/-- A field gets at most one value from the members that were read, and none if it has one. -/
theorem once_of_fillAll {medium : Medium} {fs : List Field} {name : String}
    {members : List (Key × Draft)} {slots final : Slots fs} {b : Bool}
    (h : fillAll medium fs slots members = .ok final) (hvacant : vacant? fs slots name = some b) :
    (named name members).length ≤ b.toNat ∧
      vacant? fs final name = some (b && (named name members).isEmpty) := by
  induction members generalizing slots b with
  | nil =>
    cases h
    simpa [named] using hvacant
  | cons m members ih =>
    obtain ⟨key, d⟩ := m
    obtain ⟨key, slots', rfl, hfree, hfill, hrest⟩ := fillAll_cons_ok h
    have hafter := vacant?_fill name fs hfill
    rw [hvacant] at hafter
    by_cases e : key = name
    · subst e
      obtain rfl : b = true := by
        cases b with
        | true => rfl
        | false => exact absurd hvacant hfree
      obtain ⟨hcount, hfinal⟩ := ih hrest (hafter.trans (if_pos rfl))
      rw [named_cons_self]
      exact ⟨Nat.succ_le_succ hcount, hfinal⟩
    · rw [named_cons_of_ne e]
      exact ih hrest (hafter.trans (if_neg (Ne.symm e)))

/-- A field that has got no value from the members has something that stands for it. -/
theorem absent_of_complete : (fs : List Field) → (fs.map (·.name)).Nodup → {slots : Slots fs} →
    {row : Row fs} → complete fs slots = .ok row → ∀ f ∈ fs,
    vacant? fs slots f.name = some true → f.absent.isSome
  | [], _, _, _, _ => by simp
  | f :: fs, hnodup, (slot, slots), row, h => by
    obtain ⟨hname, hnodup⟩ := List.nodup_cons.1 hnodup
    cases hslot : slot.or f.absent with
    | none =>
      simp only [complete, hslot] at h
      cases h
    | some v =>
      cases hrest : complete fs slots with
      | error e =>
        simp only [complete, hslot, hrest] at h
        cases h
      | ok rest =>
        intro g hg hvacant
        rcases List.mem_cons.1 hg with rfl | hg
        · cases slot with
          | some w => simp [vacant?] at hvacant
          | none =>
            have habsent : g.absent = some v := hslot
            rw [habsent]
            rfl
        · rw [vacant?, if_neg (Field.ne_name_of_mem hname hg)] at hvacant
          exact absent_of_complete fs hnodup hrest g hg hvacant

end Slots

/-- In an object that is read no field stands twice, and something stands for those that are
missing. -/
theorem Row.once_of_readMap? {medium : Medium} {fs : List Field} (hnodup : (fs.map (·.name)).Nodup)
    {members : List (Key × Draft)} {row : Row fs}
    (h : readMap? medium fs (.map members) = some (.ok row)) {f : Field} (hf : f ∈ fs) :
    (named f.name members).length ≤ 1 ∧ (named f.name members = [] → f.absent.isSome) := by
  have hread : (do
      let slots ← Slots.fillAll medium fs (.empty fs) members
      Slots.complete fs slots) = .ok row := Option.some.inj h
  cases hfill : Slots.fillAll medium fs (.empty fs) members with
  | error e =>
    rw [hfill] at hread
    cases hread
  | ok final =>
    rw [hfill] at hread
    obtain ⟨hcount, hvacant⟩ := Slots.once_of_fillAll hfill
      (Slots.vacant?_empty fs (List.mem_map_of_mem hf))
    refine ⟨hcount, fun hnone => Slots.absent_of_complete fs hnodup hread f hf ?_⟩
    rw [hvacant, hnone]
    rfl

/-! ## Records -/

namespace Record

variable {α : Type} {r : Record α}

/-- The fields of a record have faithful codecs and different names. -/
structure Lawful (r : Record α) : Prop where
  faithful : ∀ f ∈ r.fields, f.codec.Faithful
  nodup : (r.fields.map (·.name)).Nodup

/-- A record is read from every object that tells its row. -/
theorem Lawful.read_eq (h : r.Lawful) (medium : Medium) {a : α} {members : List (Key × Draft)}
    (htold : (r.toRow a).Told members) : r.codec.read medium (.map members) = .ok a := by
  have hrow : r.readRow medium (.map members) = .ok (r.toRow a) := by
    unfold readRow
    simp only [htold.readMap?_eq h.faithful h.nodup medium]
    rfl
  show (r.readRow medium (.map members)).map r.ofRow = _
  rw [hrow]
  exact congrArg Except.ok (r.ofRow_toRow a)

/-- What is written of a record is read back. -/
theorem Lawful.faithful_codec (h : r.Lawful) : r.codec.Faithful where
  plain a := Row.plain_write r.fields h.faithful (r.toRow a)
  read_draft medium a := h.read_eq medium (Row.told_write r.fields h.nodup (r.toRow a))

/-- In an object that a record is read from no field stands twice, and something stands for those
that are missing. -/
theorem Lawful.once_of_read (h : r.Lawful) {medium : Medium} {members : List (Key × Draft)} {a : α}
    (hread : r.codec.read medium (.map members) = .ok a) {f : Field} (hf : f ∈ r.fields) :
    (named f.name members).length ≤ 1 ∧ (named f.name members = [] → f.absent.isSome) := by
  have hmap : (r.readRow medium (.map members)).map r.ofRow = .ok a := hread
  cases hrow : r.readRow medium (.map members) with
  | error e =>
    rw [hrow] at hmap
    cases hmap
  | ok row =>
    exact Row.once_of_readMap? h.nodup (congrArg some hrow) hf

end Record

end CloudRoster.Json
