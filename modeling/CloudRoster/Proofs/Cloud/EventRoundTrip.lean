import CloudRoster.Proofs.Cloud.Messages
import CloudRoster.Proofs.Json.SetAside
import Mathlib.Data.List.Permutation

/-!
# Events are read back

An event is written as an object of its tag and its data. Where the tag comes first, the data are
read by its fields at once. Where the data come first, they are set aside as a value of any type,
which loses nothing as they are nested three deep at most, and are read once the tag is known. Both
give the event back.
-/

namespace CloudRoster

open Json (Codec Draft Fault Field Fits Medium Record Row draftMembers)

/-! ## What is nested in records -/

theorem Player.within_codec : Player.codec.Within 2 := by
  refine Record.within_codec ?_
  simp only [Player.record, List.forall_mem_cons, Field.required, Field.optional]
  exact ⟨fun u => Json.fits_text 1 u.text, Codec.within_text, Codec.within_text,
    Codec.within_text.option, Codec.within_text.option, Codec.within_enumeration _ _,
    Codec.within_int64, Codec.within_int64, Codec.within_int64, by simp⟩

theorem Group.within_codec : Group.codec.Within 2 := by
  refine Record.within_codec ?_
  simp only [Group.record, List.forall_mem_cons, Field.required, Field.optional, Field.defaulted]
  exact ⟨Codec.within_text, Codec.within_enumeration _ _, Codec.within_text, Codec.within_uint32,
    Codec.within_uint32, Codec.within_uint32.option, Codec.within_uint32, Codec.within_boolean,
    Codec.within_boolean, Codec.within_int32, Codec.within_uint16.option, Codec.within_text.option,
    by simp⟩

theorem Template.within_codec : Template.codec.Within 2 := by
  refine Record.within_codec ?_
  simp only [Template.record, List.forall_mem_cons, Field.required, Field.defaulted]
  exact ⟨Codec.within_text, Codec.within_text.list, Codec.within_text.list, by simp⟩

theorem Wrapper.within_codec : Wrapper.codec.Within 2 := by
  refine Record.within_codec ?_
  simp only [Wrapper.record, List.forall_mem_cons, Field.required]
  exact ⟨Codec.within_text, Codec.within_text, Codec.within_uint32, Codec.within_uint32,
    Codec.within_uint32, Codec.within_boolean, Codec.within_boolean, by simp⟩

theorem Service.within_codec : Service.codec.Within 2 := by
  refine Record.within_codec ?_
  simp only [Service.record, List.forall_mem_cons, Field.required, Field.optional]
  exact ⟨Codec.within_text, Codec.within_uint32, Codec.within_text.option, Codec.within_uint16,
    Codec.within_enumeration _ _, Codec.within_uint32, Codec.within_uint32, Codec.within_uint32,
    Codec.within_boolean, by simp⟩

namespace Event

/-! ## Tags -/

namespace Tag

/-- A tag is found by its name. -/
theorem findVariant_text (t : Tag) :
    Codec.findVariant tagVariants t.text = .ok (.unit t.text t) := by
  cases t <;> rfl

theorem readTag_text (t : Tag) : readTag (.text t.text) = .ok t := by
  show (do (← Codec.findVariant tagVariants t.text).bare) = _
  rw [findVariant_text]
  rfl

/-- The fields of the data differ in name. -/
theorem nodup_fields (t : Tag) : (t.fields.map (·.name)).Nodup := by cases t <;> decide

theorem faithful_fields (t : Tag) : ∀ f ∈ t.fields, f.codec.Faithful := by
  cases t <;>
    simp only [fields, List.forall_mem_cons, Field.required, Field.optional, List.not_mem_nil,
      false_implies, implies_true, and_true] <;>
    simp only [Player.faithful_codec, Group.faithful_codec, Template.faithful_codec,
      Wrapper.faithful_codec, Service.faithful_codec, ServiceState.faithful_codec,
      Codec.faithful_text, faithful_optionalText, and_self]

theorem within_fields (t : Tag) : ∀ f ∈ t.fields, f.codec.Within 2 := by
  cases t <;>
    simp only [fields, List.forall_mem_cons, Field.required, Field.optional, List.not_mem_nil,
      false_implies, implies_true, and_true] <;>
    simp only [Player.within_codec, Group.within_codec, Template.within_codec,
      Wrapper.within_codec, Service.within_codec, ServiceState.codec, Codec.within_enumeration,
      Codec.within_text, Codec.within_text.option, and_self]

end Tag

/-! ## Data -/

/-- The tag of an event. -/
def tag (e : Event) : Tag := e.parts.1

/-- The data of an event as they are written. -/
def data (e : Event) : Json := .map (Row.write e.tag.fields e.parts.2)

/-- An event is put together from its parts. -/
theorem make_parts (e : Event) : e.tag.make e.parts.2 = e := by cases e <;> rfl

theorem readData_write (medium : Medium) (t : Tag) (row : Row t.fields) :
    readData medium t (.map (draftMembers (Row.write t.fields row))) = .ok (t.make row) := by
  unfold readData
  rw [Row.readMap?_write t.faithful_fields t.nodup_fields]
  rfl

/-- Data are read by the fields of their tag, straight from a text or from what was set aside. -/
theorem readData_data (medium : Medium) (e : Event) :
    readData medium e.tag e.data.draft = .ok e :=
  (readData_write medium e.tag e.parts.2).trans (congrArg Except.ok e.make_parts)

/-- Setting data aside loses nothing. -/
theorem value_data (e : Event) : e.data.draft.value dataDepth = .ok e.data :=
  Json.value_draft (n := 3) (by decide) e.data (Row.fits_write e.tag.within_fields e.parts.2)

theorem plain_data (e : Event) : Json.Plain e.data :=
  Row.plain_write e.tag.fields e.tag.faithful_fields e.parts.2

/-! ## Members -/

namespace Progress

theorem takeAll_cons {p p' : Progress} {key : String} {d : Draft}
    (hcheck : p.checkKey key = .ok ()) (htake : p.take key d = .ok p')
    (members : List (Json.Key × Draft)) :
    takeAll p ((.text key, d) :: members) = takeAll p' members := by
  show (do
    p.checkKey key
    takeAll (← p.take key d) members) = _
  rw [hcheck, htake]
  rfl

theorem take_tag (t : Tag) : nothing.take "event" (.text t.text) = .ok (tagged t) := by
  show (do return tagged (← readTag (.text t.text))) = _
  rw [t.readTag_text]
  rfl

theorem take_data_behind_tag (e : Event) :
    (tagged e.tag).take "data" e.data.draft = .ok (complete e) := by
  show (do return complete (← readData .text e.tag e.data.draft)) = _
  rw [readData_data]
  rfl

theorem take_data (e : Event) : nothing.take "data" e.data.draft = .ok (stored e.data) := by
  show (do return stored (← e.data.draft.value dataDepth)) = _
  rw [value_data]
  rfl

theorem take_tag_behind_data (e : Event) :
    (stored e.data).take "event" (.text e.tag.text) = .ok (complete e) := by
  show (do return complete (← readData .buffer (← readTag (.text e.tag.text)) e.data.draft)) = _
  rw [e.tag.readTag_text]
  show (do return complete (← readData .buffer e.tag e.data.draft)) = _
  rw [readData_data]
  rfl

end Progress

/-! ## Both orders -/

/-- The members of the object that stands for an event. -/
def members (e : Event) : List (String × Json) :=
  [("event", .text e.tag.text), ("data", e.data)]

theorem write_eq (e : Event) : e.write = .map e.members := rfl

theorem plain_members {e : Event} {ms : List (String × Json)} (h : ms.Perm e.members) :
    Json.PlainMembers ms := by
  rcases List.perm_pair.1 h with rfl | rfl
  · exact ⟨trivial, e.plain_data, trivial⟩
  · exact ⟨e.plain_data, trivial, trivial⟩

/-- The two members are read in any order. -/
theorem takeAll_members {e : Event} {ms : List (String × Json)} (h : ms.Perm e.members) :
    Progress.takeAll .nothing (draftMembers ms) = .ok (.complete e) := by
  rcases List.perm_pair.1 h with rfl | rfl
  · exact (Progress.takeAll_cons rfl (Progress.take_tag e.tag) _).trans
      (Progress.takeAll_cons rfl (Progress.take_data_behind_tag e) [])
  · exact (Progress.takeAll_cons rfl (Progress.take_data e) _).trans
      (Progress.takeAll_cons rfl (Progress.take_tag_behind_data e) [])

theorem decode_map {e : Event} {ms : List (String × Json)} (h : ms.Perm e.members) :
    codec.decode (Json.map ms).compact = .ok e := by
  have hplain : Json.Plain (.map ms) := by simpa [Json.Plain] using plain_members h
  have hread : codec.read .text (Json.map ms).draft = .ok e := by
    show (do (← Progress.takeAll .nothing (draftMembers ms)).finish) = _
    rw [takeAll_members h]
    rfl
  unfold Codec.decode
  rw [Json.ofText_compact hplain, Codec.readDocument, hread]
  rfl

/-- A text is read as an event, which is told from others as the event is. -/
structure ReadBack (e : Event) (text : String) : Prop where
  event : codec.decode text = .ok e
  name : (codec.decode text).map Event.name = .ok e.name
  isCreation : (codec.decode text).map Event.isCreation = .ok e.isCreation
  isRemoval : (codec.decode text).map Event.isRemoval = .ok e.isRemoval

theorem readBack_of_decode {e : Event} {text : String} (h : codec.decode text = .ok e) :
    ReadBack e text := by
  constructor <;> rw [h] <;> rfl

/-- Every event is written as an object of its tag and its data, and is read back from the text of
that object and from the text in which the data come first. -/
theorem read_back_either_order (e : Event) :
    ∃ tag data : Json, codec.write e = .map [("event", tag), ("data", data)] ∧
      ReadBack e (codec.encode e) ∧
      ReadBack e (Json.map [("data", data), ("event", tag)]).compact :=
  ⟨.text e.tag.text, e.data, e.write_eq, readBack_of_decode (decode_map (.refl e.members)),
    readBack_of_decode (decode_map (.swap ..))⟩

end Event

end CloudRoster
