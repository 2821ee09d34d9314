import CloudRoster.Net.Frame
import CloudRoster.Proofs.Cloud.Messages

/-!
# Nothing is lost on the wire

A value travels as a text inside a message, the message as part of a frame, and the frame as the
bytes of its own text, so a text is quoted twice on its way. The codecs of all messages are
faithful, hence so is that of frames, whatever the message; and the payload of a message stands for
the value it was written for at every node that knows its type. What a length in front of the bytes
makes of a frame that is too long is not the matter of this module.
-/

namespace CloudRoster

open Json (Codec Field Record)

/-! ## Messages -/

theorem Action.faithful_codec : Action.codec.Faithful :=
  Codec.faithful_enumeration fun a => by cases a <;> rfl

theorem Hello.lawful_record : Hello.record.Lawful := by
  refine ⟨?_, by decide⟩
  simp only [Hello.record, List.forall_mem_cons, Field.required, Field.defaulted]
  exact ⟨Codec.faithful_uint32, Codec.faithful_text, Codec.faithful_text.list, by simp⟩

theorem Hello.faithful_codec : Hello.codec.Faithful := Hello.lawful_record.faithful_codec

theorem HelloAck.faithful_codec : HelloAck.codec.Faithful := by
  refine Record.Lawful.faithful_codec ⟨?_, by decide⟩
  simp only [HelloAck.record, List.forall_mem_cons, Field.required, Field.optional]
  exact ⟨Codec.faithful_uint32, Codec.faithful_text, Codec.faithful_boolean, faithful_optionalText,
    by simp⟩

theorem CacheUpdate.faithful_codec : CacheUpdate.codec.Faithful := by
  refine Record.Lawful.faithful_codec ⟨?_, by decide⟩
  simp only [CacheUpdate.record, List.forall_mem_cons, Field.required]
  exact ⟨Codec.faithful_text, Codec.faithful_text, Codec.faithful_text, Action.faithful_codec,
    by simp⟩

theorem ErrorReply.faithful_codec : ErrorReply.codec.Faithful := by
  refine Record.Lawful.faithful_codec ⟨?_, by decide⟩
  simp only [ErrorReply.record, List.forall_mem_cons, Field.required]
  exact ⟨Codec.faithful_uint32, Codec.faithful_text, by simp⟩

theorem Message.faithful_codec : Message.codec.Faithful := by
  refine Codec.faithful_choice fun m => ?_
  cases m with
  | hello h => exact .newtype Hello.faithful_codec rfl h
  | helloAck h => exact .newtype HelloAck.faithful_codec rfl h
  | cacheUpdate u => exact .newtype CacheUpdate.faithful_codec rfl u
  | ack => exact .bare rfl rfl
  | ping n => exact .newtype (Codec.faithful_uint64 "u64") rfl n
  | pong n => exact .newtype (Codec.faithful_uint64 "u64") rfl n
  | error e => exact .newtype ErrorReply.faithful_codec rfl e

/-! ## Frames -/

theorem FrameKind.faithful_codec : FrameKind.codec.Faithful :=
  Codec.faithful_enumeration fun k => by cases k <;> rfl

namespace Frame

theorem faithful_codec : Frame.codec.Faithful := by
  refine Record.Lawful.faithful_codec ⟨?_, by decide⟩
  simp only [Frame.record, List.forall_mem_cons, Field.required]
  exact ⟨Codec.faithful_uint64 "u64", FrameKind.faithful_codec, Message.faithful_codec, by simp⟩

/-- The bytes of a frame, without their length. -/
def body (f : Frame) : ByteArray := (codec.encode f).toUTF8

/-- The bytes of a frame stand for that frame. -/
theorem ofBody_body (f : Frame) : ofBody f.body = .ok f := by
  have hdecode : codec.readDocument (.ofText (codec.encode f)) = .ok f :=
    faithful_codec.decode_encode f
  unfold ofBody document body
  simp only [Text.fromUTF8?_toUTF8, hdecode]

end Frame

/-! ## Values -/

/-- Every value can be told of under every name of a list. -/
theorem Cache.Rules.message_ofKind (k : Kind) (v : k.Val) (listName : String) (action : Action) :
    { Cache.Rules.ofKind k with listName := listName }.message v action =
      .ok ⟨listName, k.typeName, k.codec.encode v, action⟩ := rfl

/-- A value of any kind can be told of to any list. The frame of the message, be it a request or a
response, comes out of its text and of its bytes as it was, and so does a frame with any other
message; and from the message any node that knows the type gets the value. -/
theorem wire_lossless :
    (∀ (k : Kind) (v : k.Val) (listName : String) (action : Action), ∃ u : CacheUpdate,
      { Cache.Rules.ofKind k with listName := listName }.message v action = .ok u ∧
      u.listName = listName ∧ u.valueType = k.typeName ∧ u.action = action ∧
      (∀ (id : UInt64) (kind : FrameKind),
        Frame.codec.decode (Frame.codec.encode ⟨id, kind, .cacheUpdate u⟩) =
          .ok ⟨id, kind, .cacheUpdate u⟩ ∧
        Frame.ofBody (Frame.codec.encode ⟨id, kind, .cacheUpdate u⟩).toUTF8 =
          .ok ⟨id, kind, .cacheUpdate u⟩) ∧
      ∀ types : ValueTypes, k ∈ types → types.decode u.valueType u.jsonData = .ok ⟨k, v⟩) ∧
    ∀ f : Frame, Frame.codec.decode (Frame.codec.encode f) = .ok f ∧
      Frame.ofBody (Frame.codec.encode f).toUTF8 = .ok f := by
  have hframe : ∀ f : Frame, Frame.codec.decode (Frame.codec.encode f) = .ok f ∧
      Frame.ofBody (Frame.codec.encode f).toUTF8 = .ok f :=
    fun f => ⟨Frame.faithful_codec.decode_encode f, f.ofBody_body⟩
  refine ⟨fun k v listName action => ?_, hframe⟩
  refine ⟨⟨listName, k.typeName, k.codec.encode v, action⟩,
    Cache.Rules.message_ofKind k v listName action, rfl, rfl, rfl, fun id kind => hframe _, ?_⟩
  intro types hknown
  exact ValueTypes.decode_encode_of_mem hknown v

namespace QuotedNames

/-- A template whose names hold what has to be quoted: a quotation mark, a backslash, control
characters, and characters outside the first plane. -/
def template : Template where
  name := "\"\\\x00\x1f\n\x7f𝄞"
  inheritedTemplateNames := ["", "\\u0041", "\u2028"]
  moduleNamesToCopy := ["\x7b\"name\":\"Base\"\x7d"]

/-- The template comes through as the payload of a message in the largest possible frame number. -/
theorem wire_lossless_quoted :
    Kind.template ∈ [Kind.group, Kind.template] ∧ ∃ u : CacheUpdate,
      { Cache.Rules.ofKind .template with listName := "\"" }.message template .delete = .ok u ∧
      Frame.ofBody (Frame.codec.encode
        ⟨18446744073709551615, .response, .cacheUpdate u⟩).toUTF8 =
          .ok ⟨18446744073709551615, .response, .cacheUpdate u⟩ ∧
      ValueTypes.decode [.group, .template] u.valueType u.jsonData = .ok ⟨.template, template⟩ := by
  obtain ⟨u, hmessage, -, -, -, hframe, hvalue⟩ :=
    wire_lossless.1 .template template "\"" .delete
  have hknown : Kind.template ∈ [Kind.group, Kind.template] := by decide
  exact ⟨hknown, u, hmessage, (hframe _ .response).2, hvalue _ hknown⟩

end QuotedNames

end CloudRoster
