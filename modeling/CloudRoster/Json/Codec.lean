import CloudRoster.Json.Draft
import CloudRoster.Json.Printer

/-!
# Codecs

A codec writes the values of a type as JSON and reads them back from a draft. Reading goes from left
to right, and the first thing wrong decides the fault.

A draft comes either straight from a text or from a value that had to be set aside before its type
was known. The second kind has no slips of grammar left, and a few faults are worded differently.
-/

namespace CloudRoster.Json

/-- Where a draft comes from. -/
inductive Medium where
  /-- Straight from a text. -/
  | text
  /-- From a value that was set aside. -/
  | buffer
  deriving Repr, DecidableEq

/-- What a draft starts with, for a reader that wanted something else. -/
def Draft.found : Draft → Except Fault Found
  | .null => .ok .null
  | .boolean b => .ok (.boolean b)
  | .number n => .ok (.number n)
  | .text s => .ok (.text s)
  | .unreadable _ f => .error f
  | .broken _ wanted _ => .error wanted
  | .nothing f => .error f
  | .list _ _ => .ok .sequence
  | .map _ | .openMap _ _ | .strayKey _ _ _ | .noColon _ _ _ => .ok .map

/-- The fault of a reader that wanted something else than this draft. -/
def Draft.mismatch (wanted : String) (d : Draft) : Fault :=
  match d.found with
  | .ok found => .wrongKind found wanted
  | .error f => f

/-- The fault of a reader that takes all items of an array with this ending. -/
def ListEnd.wantList : ListEnd → Except Fault Unit
  | .closed => .ok ()
  | .ended => .error .endInList
  | .endedAfterComma => .error .endInValue
  | .closedAfterComma => .error .trailingComma
  | .junk | .cut => .error .listEndExpected

/-- The fault of a reader that takes all members of an object with this ending. -/
def ListEnd.wantMap : ListEnd → Except Fault Unit
  | .closed => .ok ()
  | .ended => .error .endInMap
  | .endedAfterComma => .error .endInValue
  | .closedAfterComma => .error .trailingComma
  | .junk | .cut => .error .mapEndExpected

/-- The fault of a reader that found another token where it wanted a key. -/
def Draft.strayKeyFault : Draft → Fault
  | .broken .text wanted _ => wanted
  | _ => .keyNotText

/-- How the values of a type are written as JSON and read back. -/
structure Codec (α : Type) where
  /-- The JSON value that stands for a value. -/
  write : α → Json
  /-- The value that a draft stands for. -/
  read : Medium → Draft → Except Fault α

namespace Codec

/-- Reads a whole text: one value and nothing behind it. -/
def readDocument {α : Type} (c : Codec α) (d : Document) : Except Fault α := do
  let a ← c.read .text d.root
  if d.trailing then throw .trailingCharacters
  return a

/-- The value that a text stands for. -/
def decode {α : Type} (c : Codec α) (s : String) : Except Fault α :=
  c.readDocument (.ofText s)

/-- The compact text of a value. -/
def encode {α : Type} (c : Codec α) (a : α) : String := (c.write a).compact

/-! ## Scalars -/

/-- Texts. -/
def text : Codec String where
  write := .text
  read _
    | .text s => .ok s
    | d => .error (d.mismatch "a string")

/-- Truth values. -/
def boolean : Codec Bool where
  write := .boolean
  read _
    | .boolean b => .ok b
    | d => .error (d.mismatch "a boolean")

/-- Reads an integer from a range. -/
def readInteger (wanted : String) (least greatest : Int) : Draft → Except Fault Int
  | .number (.integer n) =>
    if least ≤ n ∧ n ≤ greatest then .ok n else .error (.integerOutOfRange n wanted)
  | d => .error (d.mismatch wanted)

/-- Naturals of 16 bits. -/
def uint16 : Codec UInt16 where
  write n := nat n.toNat
  read _ d := (readInteger "u16" 0 65535 d).map fun n => .ofNat n.toNat

/-- Naturals of 32 bits. -/
def uint32 : Codec UInt32 where
  write n := nat n.toNat
  read _ d := (readInteger "u32" 0 4294967295 d).map fun n => .ofNat n.toNat

/-- Naturals of 64 bits; `wanted` is the name of the type in diagnostics. -/
def uint64 (wanted : String) : Codec UInt64 where
  write n := nat n.toNat
  read _ d := (readInteger wanted 0 18446744073709551615 d).map fun n => .ofNat n.toNat

/-- Integers of 32 bits. -/
def int32 : Codec Int32 where
  write n := int n.toInt
  read _ d := (readInteger "i32" (-2147483648) 2147483647 d).map .ofInt

/-- Integers of 64 bits. -/
def int64 : Codec Int64 where
  write n := int n.toInt
  read _ d := (readInteger "i64" (-9223372036854775808) 9223372036854775807 d).map .ofInt

/-! ## Compound values -/

/-- An optional value; absence is written `null`. -/
def option {α : Type} (c : Codec α) : Codec (Option α) where
  write
    | none => .null
    | some a => c.write a
  read medium
    | .null => .ok none
    | d => (c.read medium d).map some

/-- A list of values. -/
def list {α : Type} (c : Codec α) : Codec (List α) where
  write items := .list (items.map c.write)
  read medium
    | .list items ending => do
      let values ← items.mapM (c.read medium)
      ending.wantList
      return values
    | d => .error (d.mismatch "a sequence")

/-! ## Choices -/

/-- One alternative of a choice: it stands as a bare name, or as an object whose only member has
the name as key. -/
structure Variant (α : Type) where
  /-- The name. -/
  name : String
  /-- The value of the bare name. -/
  bare : Except Fault α
  /-- The value of the name with a payload. -/
  payload : Medium → Draft → Except Fault α

/-- An alternative without payload: the bare name, or the name with `null`. -/
def Variant.unit {α : Type} (name : String) (a : α) : Variant α where
  name := name
  bare := .ok a
  payload
    | _, .null => .ok a
    | .buffer, .map [] => .ok a
    | _, d => .error (d.mismatch "unit")

/-- An alternative with a payload. -/
def Variant.newtype {α β : Type} (name : String) (c : Codec β) (make : β → α) : Variant α where
  name := name
  bare := .error (.wrongKind .unitVariant "newtype variant")
  payload medium d := (c.read medium d).map make

/-- The alternative of a name. -/
def findVariant {α : Type} (variants : List (Variant α)) (name : String) :
    Except Fault (Variant α) :=
  match variants.find? (·.name = name) with
  | some v => .ok v
  | none => .error (.unknownVariant name (variants.map (·.name)))

/-- The alternative that a key names. -/
def keyVariant {α : Type} (variants : List (Variant α)) : Key → Except Fault (Variant α)
  | .text name => findVariant variants name
  | .unreadable f => .error f

/-- Reads the bare name of one of several alternatives. -/
def readName {α : Type} (variants : List (Variant α)) : Draft → Except Fault α
  | .text name => do (← findVariant variants name).bare
  | d => .error (d.mismatch "variant identifier")

/-- The alternative with the first member of an object as payload; `after` is the fault of what
follows that member, if anything but the closing brace does. -/
def readMember {α : Type} (variants : List (Variant α)) (key : Key) (value : Draft)
    (after : Except Fault Unit) : Except Fault α := do
  let v ← keyVariant variants key
  let a ← v.payload .text value
  after
  return a

/-- Reads one of several alternatives from a text. -/
def readChoice {α : Type} (variants : List (Variant α)) : Draft → Except Fault α
  | .text name => do (← findVariant variants name).bare
  | .unreadable .text f => .error f
  | .broken .text wanted _ => .error wanted
  | .nothing f => .error f
  | .map [] => .error .valueExpected
  | .map [(key, value)] => readMember variants key value (.ok ())
  | .map ((key, value) :: _) | .strayKey ((key, value) :: _) _ _
  | .noColon ((key, value) :: _) _ _ => readMember variants key value (.error .valueExpected)
  | .openMap [] .ended => .error .endInMap
  | .openMap [] _ => .error .valueExpected
  | .openMap [(key, value)] .ended => readMember variants key value (.error .endInMap)
  | .openMap ((key, value) :: _) _ => readMember variants key value (.error .valueExpected)
  | .strayKey [] _ key => .error key.strayKeyFault
  | .noColon [] key atEnd => do
    let _ ← keyVariant variants key
    .error (if atEnd then .endInMap else .colonExpected)
  | _ => .error .valueExpected

/-- Reads one of several alternatives from a value that was set aside. -/
def readBufferedChoice {α : Type} (variants : List (Variant α)) : Draft → Except Fault α
  | .text name => do (← findVariant variants name).bare
  | .map [(key, value)] => do
    let v ← keyVariant variants key
    v.payload .buffer value
  | .map _ => .error .mapOfOneExpected
  | d => .error (d.mismatch "string or map")

/-- A choice between alternatives. -/
def choice {α : Type} (variants : List (Variant α)) (write : α → Json) : Codec α where
  write := write
  read
    | .text => readChoice variants
    | .buffer => readBufferedChoice variants

/-- A choice between alternatives without payload, each written as its name. -/
def enumeration {α : Type} (names : List (String × α)) (name : α → String) : Codec α :=
  choice (names.map fun (n, a) => .unit n a) fun a => .text (name a)

end Codec

/-! ## Values set aside -/

/-- The key of a member as a text. -/
def Key.wanted : Key → Except Fault String
  | .text name => .ok name
  | .unreadable f => .error f

mutual

/-- Reads a draft as a JSON value of any type, in at most `depth - 1` nested containers. -/
def Draft.value (depth : Nat) : Draft → Except Fault Json
  | .null => .ok .null
  | .boolean b => .ok (.boolean b)
  | .number n => .ok (.number n)
  | .text s => .ok (.text s)
  | .unreadable _ f => .error f
  | .broken _ wanted _ => .error wanted
  | .nothing f => .error f
  | .list items ending =>
    if depth ≤ 1 then .error .tooDeep
    else do
      let values ← valueItems (depth - 1) items
      ending.wantList
      return .list values
  | .map members =>
    if depth ≤ 1 then .error .tooDeep
    else do return .map (← valueMembers (depth - 1) members)
  | .openMap members ending =>
    if depth ≤ 1 then .error .tooDeep
    else do
      let values ← valueMembers (depth - 1) members
      ending.wantMap
      return .map values
  | .strayKey members _ key =>
    if depth ≤ 1 then .error .tooDeep
    else do
      let _ ← valueMembers (depth - 1) members
      .error key.strayKeyFault
  | .noColon members key atEnd =>
    if depth ≤ 1 then .error .tooDeep
    else do
      let _ ← valueMembers (depth - 1) members
      let _ ← key.wanted
      .error (if atEnd then .endInMap else .colonExpected)

/-- Reads the items of an array. -/
def valueItems (depth : Nat) : List Draft → Except Fault (List Json)
  | [] => .ok []
  | item :: items => do
    let value ← item.value depth
    return value :: (← valueItems depth items)

/-- Reads the members of an object. -/
def valueMembers (depth : Nat) : List (Key × Draft) → Except Fault (List (String × Json))
  | [] => .ok []
  | (key, item) :: members => do
    let name ← key.wanted
    let value ← item.value depth
    return (name, value) :: (← valueMembers depth members)

end

/-- The number of containers inside each other at which reading a value of any type gives up. -/
def depthLimit : Nat := 128

/-- JSON values of any type. -/
def anyValue : Codec Json where
  write := id
  read _ d := d.value depthLimit

mutual

/-- The draft of a value that was set aside. -/
def draft : Json → Draft
  | .null => .null
  | .boolean b => .boolean b
  | .number n => .number n
  | .text s => .text s
  | .list items => .list (draftItems items) .closed
  | .map members => .map (draftMembers members)

/-- The drafts of the items of an array. -/
def draftItems : List Json → List Draft
  | [] => []
  | item :: items => item.draft :: draftItems items

/-- The drafts of the members of an object. -/
def draftMembers : List (String × Json) → List (Key × Draft)
  | [] => []
  | (key, value) :: members => (.text key, value.draft) :: draftMembers members

end

end CloudRoster.Json
