import CloudRoster.Json.Codec
import CloudRoster.Proofs.Json.Compact

/-!
# Codecs that read what they write

A codec is *faithful* if what it writes is plain and is read back, whether straight from a text or
from a value that was set aside. The texts of a faithful codec decode to the values they were
written for (`Faithful.decode_encode`). The codecs of scalars are faithful, and options, lists and
choices by name of faithful codecs are.
-/

namespace CloudRoster.Json

namespace Codec

/-- What is written is plain and is read back. -/
structure Faithful {α : Type} (c : Codec α) : Prop where
  plain : ∀ a, Plain (c.write a)
  read_draft : ∀ medium a, c.read medium (c.write a).draft = .ok a

variable {α : Type} {c : Codec α}

/-- A text decodes to the value that it was written for. -/
theorem Faithful.decode_encode (h : c.Faithful) (a : α) : c.decode (c.encode a) = .ok a := by
  unfold decode encode
  rw [ofText_compact (h.plain a)]
  unfold readDocument
  rw [h.read_draft]
  rfl

/-! ## Scalars -/

theorem faithful_text : text.Faithful := ⟨fun _ => trivial, fun _ _ => rfl⟩

theorem faithful_boolean : boolean.Faithful := ⟨fun _ => trivial, fun _ _ => rfl⟩

/-- An integer of the range is read back. -/
theorem readInteger_integer {wanted : String} {least greatest n : Int}
    (h : least ≤ n ∧ n ≤ greatest) :
    readInteger wanted least greatest (.number (.integer n)) = .ok n := if_pos h

theorem plain_nat {n : Nat} (h : n < 18446744073709551616) : Plain (.nat n) := by
  show IsWord n
  unfold IsWord
  omega

theorem faithful_uint16 : uint16.Faithful := by
  refine ⟨fun n => plain_nat ?_, fun _ n => ?_⟩
  · have := n.toNat_lt
    omega
  · have := n.toNat_lt
    show Except.map _ (readInteger "u16" 0 65535 (.number (.integer (n.toNat : Int)))) = _
    rw [readInteger_integer (by omega)]
    simp [Except.map]

theorem faithful_uint32 : uint32.Faithful := by
  refine ⟨fun n => plain_nat ?_, fun _ n => ?_⟩
  · have := n.toNat_lt
    omega
  · have := n.toNat_lt
    show Except.map _ (readInteger "u32" 0 4294967295 (.number (.integer (n.toNat : Int)))) = _
    rw [readInteger_integer (by omega)]
    simp [Except.map]

theorem faithful_uint64 (wanted : String) : (uint64 wanted).Faithful := by
  refine ⟨fun n => plain_nat n.toNat_lt, fun _ n => ?_⟩
  have := n.toNat_lt
  show Except.map _
    (readInteger wanted 0 18446744073709551615 (.number (.integer (n.toNat : Int)))) = _
  rw [readInteger_integer (by omega)]
  simp [Except.map]

theorem faithful_int32 : int32.Faithful := by
  refine ⟨fun n => ?_, fun _ n => ?_⟩
  · have hlow := n.le_toInt
    have hhigh := n.toInt_lt
    show IsWord n.toInt
    unfold IsWord
    omega
  · have hlow := n.le_toInt
    have hhigh := n.toInt_lt
    show Except.map _ (readInteger "i32" (-2147483648) 2147483647 (.number (.integer n.toInt))) = _
    rw [readInteger_integer (by omega)]
    simp [Except.map]

theorem faithful_int64 : int64.Faithful := by
  refine ⟨fun n => ?_, fun _ n => ?_⟩
  · have hlow := n.le_toInt
    have hhigh := n.toInt_lt
    show IsWord n.toInt
    unfold IsWord
    omega
  · have hlow := n.le_toInt
    have hhigh := n.toInt_lt
    show Except.map _ (readInteger "i64" (-9223372036854775808) 9223372036854775807
      (.number (.integer n.toInt))) = _
    rw [readInteger_integer (by omega)]
    simp [Except.map]

/-! ## Compound values -/

/-- A value that is not itself written as `null` may be left out. -/
theorem Faithful.option (h : c.Faithful) (hnull : ∀ a, (c.write a).draft ≠ .null) :
    (option c).Faithful := by
  refine ⟨fun o => ?_, fun medium o => ?_⟩
  · cases o with
    | none => trivial
    | some a => exact h.plain a
  · cases o with
    | none => rfl
    | some a =>
      -- only a value that is written as null would be taken for none
      have hread := h.read_draft medium a
      have hne := hnull a
      show (Codec.option c).read medium (c.write a).draft = _
      generalize (c.write a).draft = d at hread hne
      cases d with
      | null => exact absurd rfl hne
      | _ => exact congrArg (Except.map some) hread

theorem Faithful.list (h : c.Faithful) : (list c).Faithful := by
  refine ⟨fun items => ?_, fun medium items => ?_⟩
  · show PlainItems (items.map c.write)
    induction items with
    | nil => trivial
    | cons a items ih => exact ⟨h.plain a, ih⟩
  · have hitems : (draftItems (items.map c.write)).mapM (c.read medium) =
        (.ok items : Except Fault _) := by
      induction items with
      | nil => rfl
      | cons a items ih =>
        rw [List.map_cons, draftItems, List.mapM_cons, h.read_draft, ih]
        rfl
    show (do
      let values ← (draftItems (items.map c.write)).mapM (c.read medium)
      ListEnd.closed.wantList
      return values) = _
    rw [hitems]
    rfl

/-- What a value of a choice is written as is one of the alternatives, and that one reads it back:
a bare name, or an object with the name as key of a payload. -/
inductive Chosen (variants : List (Variant α)) (a : α) : Json → Prop
  | bare {name : String} {v : Variant α} (hfind : findVariant variants name = .ok v)
    (hread : v.bare = .ok a) : Chosen variants a (.text name)
  | payload {name : String} {v : Variant α} {value : Json}
    (hfind : findVariant variants name = .ok v) (hplain : Plain value)
    (hread : ∀ medium, v.payload medium value.draft = .ok a) :
    Chosen variants a (.map [(name, value)])

/-- A payload is read back by the codec that wrote it. -/
theorem Chosen.newtype {β : Type} {d : Codec β} (h : d.Faithful) {make : β → α} {name : String}
    {variants : List (Variant α)}
    (hfind : findVariant variants name = .ok (.newtype name d make)) (b : β) :
    Chosen variants (make b) (.map [(name, d.write b)]) :=
  .payload hfind (h.plain b) fun medium => by
    show (d.read medium (d.write b).draft).map make = _
    rw [h.read_draft]
    rfl

theorem faithful_choice {variants : List (Variant α)} {write : α → Json}
    (h : ∀ a, Chosen variants a (write a)) : (choice variants write).Faithful := by
  refine ⟨fun a => ?_, fun medium a => ?_⟩
  · show Plain (write a)
    have hchosen := h a
    generalize write a = j at hchosen
    cases hchosen with
    | bare => trivial
    | payload _ hplain _ => exact ⟨hplain, trivial⟩
  · show (choice variants write).read medium (write a).draft = .ok a
    have hchosen := h a
    generalize write a = j at hchosen
    cases hchosen with
    | @bare name v hfind hread =>
      have hname : (do (← findVariant variants name).bare) = .ok a := by
        rw [hfind]
        exact hread
      cases medium <;> exact hname
    | @payload name v value hfind _ hread =>
      -- in a text, what follows the only member is looked at as well, and nothing does
      cases medium with
      | text =>
        show (do
          let v ← findVariant variants name
          let a ← v.payload .text value.draft
          Except.ok ()
          return a) = _
        rw [hfind]
        show (do
          let a ← v.payload .text value.draft
          Except.ok ()
          return a) = _
        rw [hread]
        rfl
      | buffer =>
        show (do
          let v ← findVariant variants name
          v.payload .buffer value.draft) = _
        rw [hfind]
        exact hread .buffer

/-- A choice by name, each of whose names stands for the value it is the name of. -/
theorem faithful_enumeration {names : List (String × α)} {name : α → String}
    (h : ∀ a, names.find? (·.1 = name a) = some (name a, a)) :
    (enumeration names name).Faithful := by
  refine faithful_choice fun a => ?_
  let variants := names.map fun (entry : String × α) => Variant.unit entry.1 entry.2
  have hfind : findVariant variants (name a) = .ok (Variant.unit (name a) a) := by
    have hmap : variants.find? (·.name = name a) =
        (names.find? (·.1 = name a)).map fun entry => Variant.unit entry.1 entry.2 :=
      List.find?_map ..
    unfold findVariant
    rw [hmap, h a]
    rfl
  exact .bare hfind rfl

end Codec

end CloudRoster.Json
