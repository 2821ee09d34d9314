import CloudRoster.Proofs.Json.Rows
import CloudRoster.Proofs.Json.Script

/-!
# Compatible spellings of a record

Many texts stand for the same record. The members of the object may stand in any order, with any
blanks between the tokens, and strings may be escaped at will. Between the members may stand others
under names that are not of fields, with any values, however deep. And a field may be left out
whose value is what stands for it then. All these texts decode to the record. A text without a field
that nothing stands for, or with a field twice, is an error, whatever else is in it.
-/

namespace CloudRoster.Json

/-- The values that stand under a name, in order. -/
def valuesOf (name : String) : List (Member Script) → List Script
  | [] => []
  | m :: members =>
    if textOf? m.key = some name then m.value :: valuesOf name members else valuesOf name members

section valuesOf

variable {name : String} {m : Member Script} {members : List (Member Script)}

theorem valuesOf_cons_self (h : textOf? m.key = some name) :
    valuesOf name (m :: members) = m.value :: valuesOf name members := if_pos h

theorem valuesOf_cons_of_ne (h : textOf? m.key ≠ some name) :
    valuesOf name (m :: members) = valuesOf name members := if_neg h

theorem valuesOf_eq_nil (h : ∀ m ∈ members, textOf? m.key ≠ some name) :
    valuesOf name members = [] := by
  induction members with
  | nil => rfl
  | cons m members ih =>
    rw [valuesOf_cons_of_ne (h m List.mem_cons_self),
      ih fun n hn => h n (List.mem_cons_of_mem _ hn)]

end valuesOf

theorem membersDrafts_eq_map (members : List (Member Script)) :
    membersDrafts members =
      members.map fun m => (.ofText (stringOutcome m.key), m.value.draft) := by
  induction members with
  | nil => rfl
  | cons m members ih => exact congrArg _ ih

theorem ofText_eq_text {ps : List Piece} {name : String} :
    Key.ofText (stringOutcome ps) = .text name ↔ textOf? ps = some name := by
  rw [← stringOutcome_eq_ok]
  cases stringOutcome ps <;> simp [Key.ofText]

/-- What a reader finds under a name is what stands there. -/
theorem named_membersDrafts (name : String) (members : List (Member Script)) :
    named name (membersDrafts members) = (valuesOf name members).map Script.draft := by
  rw [membersDrafts_eq_map]
  induction members with
  | nil => rfl
  | cons m members ih =>
    rw [List.map_cons, named, ih]
    by_cases h : textOf? m.key = some name
    · rw [if_pos (ofText_eq_text.2 h), valuesOf_cons_self h, List.map_cons]
    · rw [if_neg fun e => h (ofText_eq_text.1 e), valuesOf_cons_of_ne h]

/-- What an object tells of a field: it gives the value once, or leaves it out where something
stands for it. -/
inductive Tells (members : List (Member Script)) (f : Field) (v : f.Val) : Prop
  | given {s : Script} (honly : valuesOf f.name members = [s]) (hsaid : s.Says (f.codec.write v))
  | omitted (hmissing : valuesOf f.name members = []) (hstands : f.absent = some v)

/-- Every key of members that say something is a text. -/
theorem key_of_membersSay : {members : List (Member Script)} → {values : List (String × Json)} →
    MembersSay members values → {m : Member Script} → m ∈ members →
    ∃ name ∈ values.map (·.1), textOf? m.key = some name
  | ⟨_, label, _, _, value, _⟩ :: members, (key, v) :: values, h, m, hm => by
    obtain ⟨hlabel, -, hrest⟩ : textOf? label = some key ∧ value.Says v ∧
      MembersSay members values := by simpa [MembersSay] using h
    rcases List.mem_cons.1 hm with rfl | hm
    · exact ⟨key, List.mem_cons_self, hlabel⟩
    · obtain ⟨name, hname, hkey⟩ := key_of_membersSay hrest hm
      exact ⟨name, List.mem_cons_of_mem _ hname, hkey⟩

/-- The members that are written of a row tell of its fields. -/
theorem tells_of_membersSay : (fs : List Field) → (fs.map (·.name)).Nodup → (row : Row fs) →
    {members : List (Member Script)} → MembersSay members (Row.write fs row) →
    Row.Forall (Tells members) fs row
  | [], _, (), _, _ => trivial
  | f :: fs, hnodup, (v, row), ⟨before, label, gap, after, value, behind⟩ :: members, h => by
    obtain ⟨hname, hnodup⟩ := List.nodup_cons.1 hnodup
    obtain ⟨hlabel, hsaid, hrest⟩ : textOf? label = some f.name ∧ value.Says (f.codec.write v) ∧
      MembersSay members (Row.write fs row) := by simpa [MembersSay, Row.write] using h
    have hothers : valuesOf f.name members = [] := by
      refine valuesOf_eq_nil fun m hm hkey => ?_
      obtain ⟨name, hin, hkey'⟩ := key_of_membersSay hrest hm
      rw [Row.names_write, Option.some.inj (hkey'.symm.trans hkey)] at hin
      exact hname hin
    have hfirst : valuesOf f.name (⟨before, label, gap, after, value, behind⟩ :: members) =
        [value] := by
      rw [valuesOf_cons_self hlabel, hothers]
    refine ⟨.given hfirst hsaid,
      (tells_of_membersSay fs hnodup row hrest).imp fs row fun g hg w htells => ?_⟩
    have hne : textOf? label ≠ some g.name := fun e =>
      Field.ne_name_of_mem hname hg (Option.some.inj (hlabel.symm.trans e))
    have hsame : valuesOf g.name (⟨before, label, gap, after, value, behind⟩ :: members) =
        valuesOf g.name members := valuesOf_cons_of_ne hne
    cases htells with
    | given honly hsaid => exact .given (hsame.trans honly) hsaid
    | omitted hmissing hstands => exact .omitted (hsame.trans hmissing) hstands

/-- A value is decoded from its text, whatever blanks are around it. -/
theorem Codec.decode_inText {α : Type} (c : Codec α) (before : Blanks) (s : Script)
    (behind : Blanks) : c.decode (s.inText before behind) = c.read .text s.draft := by
  unfold decode readDocument
  rw [ofText_script]
  cases c.read .text s.draft <;> rfl

namespace Record

variable {α : Type} {r : Record α}

/-- The members of an object spell a record: all keys are texts, and each field is told. All else
is left open: the order, and what stands under other names. -/
structure Spelled (r : Record α) (a : α) (members : List (Member Script)) : Prop where
  keys : ∀ m ∈ members, ∃ name, textOf? m.key = some name
  fields : Row.Forall (Tells members) r.fields (r.toRow a)

/-- The members that are written of a record spell it. -/
theorem spelled_of_membersSay {a : α} {members : List (Member Script)}
    (hnodup : (r.fields.map (·.name)).Nodup)
    (h : MembersSay members (Row.write r.fields (r.toRow a))) : r.Spelled a members where
  keys m hm := by
    obtain ⟨name, -, hname⟩ := key_of_membersSay h hm
    exact ⟨name, hname⟩
  fields := tells_of_membersSay r.fields hnodup (r.toRow a) h

theorem Spelled.told {a : α} {members : List (Member Script)} (h : r.Spelled a members) :
    (r.toRow a).Told (membersDrafts members) where
  keys m hm := by
    rw [membersDrafts_eq_map] at hm
    obtain ⟨member, hmember, rfl⟩ := List.mem_map.1 hm
    obtain ⟨name, hname⟩ := h.keys member hmember
    exact ⟨name, ofText_eq_text.2 hname⟩
  fields := h.fields.imp r.fields (r.toRow a) fun f _ v htells => by
    rw [named_membersDrafts]
    cases htells with
    | @given s honly hsaid =>
      rw [honly, ← draft_eq_of_said s _ hsaid]
      exact .inl rfl
    | omitted hmissing hstands =>
      rw [hmissing]
      exact .inr ⟨rfl, hstands⟩
  others name d hm _ := by
    rw [membersDrafts_eq_map] at hm
    obtain ⟨member, -, heq⟩ := List.mem_map.1 hm
    rw [← (Prod.mk.inj heq).2]
    exact skip_draft member.value

/-- Of the fields of a record these may be left out, every text that spells a record decodes to it,
and every text without one of the other fields, or with a field twice, is an error. -/
structure Tolerant (r : Record α) (omissible : List String) : Prop where
  omissible_eq : (r.fields.filter (·.absent.isSome)).map (·.name) = omissible
  encode_spelled : ∀ a, ∃ members inside, r.Spelled a members ∧
    r.codec.encode a = (Script.map members inside).inText [] []
  decode_spelled : ∀ (a : α) (members : List (Member Script)), r.Spelled a members →
    ∀ before inside behind : Blanks,
      r.codec.decode ((Script.map members inside).inText before behind) = .ok a
  decode_missing : ∀ f ∈ r.fields, f.name ∉ omissible → ∀ members : List (Member Script),
    valuesOf f.name members = [] → ∀ before inside behind : Blanks,
      ∃ fault, r.codec.decode ((Script.map members inside).inText before behind) = .error fault
  decode_repeated : ∀ f ∈ r.fields, ∀ members : List (Member Script),
    2 ≤ (valuesOf f.name members).length → ∀ before inside behind : Blanks,
      ∃ fault, r.codec.decode ((Script.map members inside).inText before behind) = .error fault

/-- A text that decodes gives each field at most once, and leaves none out that nothing stands
for. -/
theorem Lawful.once_of_decode (h : r.Lawful) {members : List (Member Script)}
    {before inside behind : Blanks} {a : α}
    (hdecode : r.codec.decode ((Script.map members inside).inText before behind) = .ok a)
    {f : Field} (hf : f ∈ r.fields) : (valuesOf f.name members).length ≤ 1 ∧
      (valuesOf f.name members = [] → f.absent.isSome) := by
  rw [Codec.decode_inText] at hdecode
  have hread : r.codec.read .text (.map (membersDrafts members)) = .ok a := hdecode
  simpa [named_membersDrafts] using h.once_of_read hread hf

/-- The text that is written of a record is one of those that spell it. -/
theorem Lawful.encode_spelled (h : r.Lawful) (a : α) : ∃ members inside, r.Spelled a members ∧
    r.codec.encode a = (Script.map members inside).inText [] [] := by
  obtain ⟨s, hsaid, htext⟩ := (writes_compact _ (h.faithful_codec.plain a)).exists_inText
  have hmap : s.Says (.map (Row.write r.fields (r.toRow a))) := hsaid
  cases s with
  | map members inside =>
    rw [Script.Says] at hmap
    exact ⟨members, inside, spelled_of_membersSay h.nodup hmap, htext⟩
  | _ => simp [Script.Says] at hmap

theorem Lawful.tolerant (h : r.Lawful) {omissible : List String}
    (homissible : (r.fields.filter (·.absent.isSome)).map (·.name) = omissible) :
    r.Tolerant omissible where
  omissible_eq := homissible
  encode_spelled := h.encode_spelled
  decode_spelled a members hspelled before inside behind :=
    (r.codec.decode_inText before _ behind).trans (h.read_eq .text hspelled.told)
  decode_missing f hf hname members hmissing before inside behind := by
    cases hdecode : r.codec.decode ((Script.map members inside).inText before behind) with
    | error fault => exact ⟨fault, rfl⟩
    | ok a =>
      have hstands := (h.once_of_decode hdecode hf).2 hmissing
      rw [← homissible] at hname
      exact absurd (List.mem_map_of_mem (List.mem_filter.2 ⟨hf, hstands⟩)) hname
  decode_repeated f hf members htwice before inside behind := by
    cases hdecode : r.codec.decode ((Script.map members inside).inText before behind) with
    | error fault => exact ⟨fault, rfl⟩
    | ok a =>
      have honce := (h.once_of_decode hdecode hf).1
      omega

end Record

end CloudRoster.Json
