import CloudRoster.Node.Handler
import CloudRoster.Proofs.Identity.Uuid
import CloudRoster.Proofs.Json.Rows

/-!
# Values that travel

The values of every kind are read back from their texts, so a message about a value asks a node that
holds the list of its kind for just that change.
-/

namespace CloudRoster

open Json (Codec Field Record)

/-! ## Values of one kind -/

namespace Value

/-- The value, if it is of a kind. -/
def ofKind? (k : Kind) (x : Value) : Option k.Val :=
  if h : x.1 = k then some (h ▸ x.2) else none

theorem ofKind?_self (k : Kind) (v : k.Val) : ofKind? k ⟨k, v⟩ = some v := dif_pos rfl

theorem ofKind?_of_ne {j k : Kind} (h : j ≠ k) (v : j.Val) : ofKind? k ⟨j, v⟩ = none := dif_neg h

end Value

/-! ## Choices by name -/

theorem ConnectState.faithful_codec : ConnectState.codec.Faithful :=
  Codec.faithful_enumeration fun s => by cases s <;> rfl

theorem GroupType.faithful_codec : GroupType.codec.Faithful :=
  Codec.faithful_enumeration fun t => by cases t <;> rfl

theorem ServiceState.faithful_codec : ServiceState.codec.Faithful :=
  Codec.faithful_enumeration fun s => by cases s <;> rfl

/-! ## Fields -/

/-- Texts may be left out. -/
theorem faithful_optionalText : (Codec.option .text).Faithful :=
  Codec.faithful_text.option fun _ e => nomatch e

theorem faithful_optionalUInt16 : (Codec.option .uint16).Faithful :=
  Codec.faithful_uint16.option fun _ e => nomatch e

theorem faithful_optionalUInt32 : (Codec.option .uint32).Faithful :=
  Codec.faithful_uint32.option fun _ e => nomatch e

/-! ## Records -/

theorem Player.lawful_record : Player.record.Lawful := by
  refine ⟨?_, by decide⟩
  simp only [Player.record, List.forall_mem_cons, Field.required, Field.optional]
  exact ⟨Uuid.faithful_codec, Codec.faithful_text, Codec.faithful_text, faithful_optionalText,
    faithful_optionalText, ConnectState.faithful_codec, Codec.faithful_int64, Codec.faithful_int64,
    Codec.faithful_int64, by simp⟩

theorem Group.lawful_record : Group.record.Lawful := by
  refine ⟨?_, by decide⟩
  simp only [Group.record, List.forall_mem_cons, Field.required, Field.optional, Field.defaulted]
  exact ⟨Codec.faithful_text, GroupType.faithful_codec, Codec.faithful_text, Codec.faithful_uint32,
    Codec.faithful_uint32, faithful_optionalUInt32, Codec.faithful_uint32, Codec.faithful_boolean,
    Codec.faithful_boolean, Codec.faithful_int32, faithful_optionalUInt16, faithful_optionalText,
    by simp⟩

theorem Template.lawful_record : Template.record.Lawful := by
  refine ⟨?_, by decide⟩
  simp only [Template.record, List.forall_mem_cons, Field.required, Field.defaulted]
  exact ⟨Codec.faithful_text, Codec.faithful_text.list, Codec.faithful_text.list, by simp⟩

theorem Wrapper.lawful_record : Wrapper.record.Lawful := by
  refine ⟨?_, by decide⟩
  simp only [Wrapper.record, List.forall_mem_cons, Field.required]
  exact ⟨Codec.faithful_text, Codec.faithful_text, Codec.faithful_uint32, Codec.faithful_uint32,
    Codec.faithful_uint32, Codec.faithful_boolean, Codec.faithful_boolean, by simp⟩

theorem Service.lawful_record : Service.record.Lawful := by
  refine ⟨?_, by decide⟩
  simp only [Service.record, List.forall_mem_cons, Field.required, Field.optional]
  exact ⟨Codec.faithful_text, Codec.faithful_uint32, faithful_optionalText, Codec.faithful_uint16,
    ServiceState.faithful_codec, Codec.faithful_uint32, Codec.faithful_uint32,
    Codec.faithful_uint32, Codec.faithful_boolean, by simp⟩

theorem Player.faithful_codec : Player.codec.Faithful := Player.lawful_record.faithful_codec

theorem Group.faithful_codec : Group.codec.Faithful := Group.lawful_record.faithful_codec

theorem Template.faithful_codec : Template.codec.Faithful := Template.lawful_record.faithful_codec

theorem Wrapper.faithful_codec : Wrapper.codec.Faithful := Wrapper.lawful_record.faithful_codec

theorem Service.faithful_codec : Service.codec.Faithful := Service.lawful_record.faithful_codec

theorem Kind.faithful_codec (k : Kind) : k.codec.Faithful := by
  cases k with
  | player => exact Player.faithful_codec
  | group => exact Group.faithful_codec
  | template => exact Template.faithful_codec
  | wrapper => exact Wrapper.faithful_codec
  | service => exact Service.faithful_codec

/-! ## Messages -/

/-- The message that tells of a value. -/
def CacheUpdate.about (k : Kind) (v : k.Val) (action : Action) : CacheUpdate :=
  ⟨k.listName, k.typeName, k.codec.encode v, action⟩

/-- Every value can be told of. -/
theorem Cache.Rules.outbox_ofKind (k : Kind) (spreads fromPacket : Bool) (v : k.Val)
    (actions : List Action) : (Cache.Rules.ofKind k).outbox spreads fromPacket v actions =
      .ok (if spreads && !fromPacket then actions.map (CacheUpdate.about k v) else []) := by
  have hmessages : actions.mapM ((Cache.Rules.ofKind k).message v) =
      (.ok (actions.map (CacheUpdate.about k v)) : Except SyncError _) := by
    induction actions with
    | nil => rfl
    | cons a actions ih =>
      rw [List.mapM_cons, ih]
      rfl
  unfold outbox
  rw [hmessages]
  split <;> rfl

theorem Kind.typeName_injective : Function.Injective Kind.typeName := by
  intro j k h
  cases j <;> cases k <;> first | rfl | exact absurd h (by decide)

namespace ValueTypes

theorem find?_typeName {types : ValueTypes} {k : Kind} (h : k ∈ types) :
    types.find? k.typeName = some k := by
  unfold find?
  cases hfind : List.find? (fun j => decide (j.typeName = k.typeName)) types with
  | none => simpa using List.find?_eq_none.1 hfind k h
  | some j =>
    have hname : j.typeName = k.typeName := by simpa using List.find?_some hfind
    rw [Kind.typeName_injective hname]

/-- The payload of a known type stands for the value that it was written for. -/
theorem decode_encode_of_mem {types : ValueTypes} {k : Kind} (h : k ∈ types) (v : k.Val) :
    types.decode k.typeName (k.codec.encode v) = .ok ⟨k, v⟩ := by
  unfold decode
  rw [find?_typeName h]
  simp only [k.faithful_codec.decode_encode]

theorem mem_all (k : Kind) : k ∈ all := by cases k <;> decide

theorem decode_encode (k : Kind) (v : k.Val) :
    all.decode k.typeName (k.codec.encode v) = .ok ⟨k, v⟩ := decode_encode_of_mem (mem_all k) v

end ValueTypes

namespace Node

/-- A node that holds the list of a kind is asked by the message about a value for the change of
that value. -/
theorem arrival_about {n : Node} {k : Kind} (hlist : n.registry.find? k.listName = some k)
    (v : k.Val) (action : Action) :
    n.arrival (.cacheUpdate (.about k v action)) = .change ⟨k, v, action, true, true⟩ := by
  have hasked : n.requestedChange (.about k v action) = .ok (some ⟨k, v, action, true, true⟩) := by
    unfold requestedChange
    simp only [CacheUpdate.about, hlist, ValueTypes.decode_encode]
    simp [bind, Except.bind, pure, Except.pure]
  unfold arrival
  simp only [hasked]

/-- All lists of a new node are open. -/
theorem find?_registry_new (config : SyncConfig) (b : Broadcaster)
    (groups templates : Option Storage.Store) (k : Kind) :
    (new config b groups templates).registry.find? k.listName = some k := by
  cases k <;> rfl

end Node

end CloudRoster
