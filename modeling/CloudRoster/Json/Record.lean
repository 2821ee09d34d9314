import CloudRoster.Json.Codec

/-!
# Records

A record type is described by its fields: their names, codecs, and what stands for a field that is
left out. From the description follow its written form, an object with the fields in order, and its
readers. A record is read from an object with the fields in any order, among others that are
skipped, or from an array of the fields in order.
-/

namespace CloudRoster.Json

/-- A field of a record. -/
structure Field where
  /-- The name of the field, which is its key in an object. -/
  name : String
  /-- The type of its values. -/
  Val : Type
  /-- How its values are written and read. -/
  codec : Codec Val
  /-- What stands for the field in an object without it. -/
  absent : Option Val
  /-- What stands for the field in an array that ends before it. -/
  short : Option Val

namespace Field

/-- A field that must be there. -/
def required {α : Type} (name : String) (c : Codec α) : Field := ⟨name, α, c, none, none⟩

/-- An optional field: an object may leave it out, an array may not. -/
def optional {α : Type} (name : String) (c : Codec α) : Field :=
  ⟨name, Option α, c.option, some none, none⟩

/-- A field with a default, which may be left out everywhere. -/
def defaulted {α : Type} (name : String) (c : Codec α) (value : α) : Field :=
  ⟨name, α, c, some value, some value⟩

end Field

/-- One value for each field. -/
@[reducible] def Row : List Field → Type
  | [] => Unit
  | f :: fs => f.Val × Row fs

/-- The values found so far. -/
@[reducible] def Slots : List Field → Type
  | [] => Unit
  | f :: fs => Option f.Val × Slots fs

namespace Row

/-- The members of the object that stands for a row. -/
def write : (fs : List Field) → Row fs → List (String × Json)
  | [], () => []
  | f :: fs, (v, row) => (f.name, f.codec.write v) :: write fs row

/-- Reads a row from the items of an array. `expected` describes the record, `total` counts its
fields, and `index` the items already read. -/
def readItems (medium : Medium) (expected : String) (total : Nat) (ending : ListEnd) :
    (fs : List Field) → (index : Nat) → List Draft → Except Fault (Row fs)
  | [], _, [] =>
    match ending with
    | .closed => .ok ()
    | .closedAfterComma => .error .trailingComma
    | .ended => .error .endInList
    | .endedAfterComma | .junk | .cut => .error .trailingCharacters
  | [], index, items@(_ :: _) =>
    match medium with
    | .text => .error .trailingCharacters
    | .buffer =>
      let plural := if total = 1 then "1 element" else (Number.integer total).text ++ " elements"
      .error (.wrongLength (index + items.length) (plural ++ " in sequence"))
  | f :: fs, index, [] => do
    ending.wantList
    match f.short with
    | some v => return (v, ← readItems medium expected total ending fs index [])
    | none => .error (.wrongLength index expected)
  | f :: fs, index, item :: items => do
    let v ← f.codec.read medium item
    return (v, ← readItems medium expected total ending fs (index + 1) items)

end Row

namespace Slots

/-- No value found yet. -/
def empty : (fs : List Field) → Slots fs
  | [] => ()
  | _ :: fs => (none, empty fs)

/-- Whether a key names a field, and if so whether its value is still missing. -/
def vacant? : (fs : List Field) → Slots fs → String → Option Bool
  | [], (), _ => none
  | f :: fs, (slot, slots), key => if f.name = key then some slot.isNone else vacant? fs slots key

/-- A key of a field whose value was already found is a fault. -/
def checkKey (fs : List Field) (slots : Slots fs) (key : Key) : Except Fault Unit := do
  let name ← key.wanted
  if vacant? fs slots name = some false then throw (.duplicateField name)

/-- Reads a value into the slot of its field; the value of another key is skipped. -/
def fill (medium : Medium) : (fs : List Field) → Slots fs → String → Draft → Except Fault (Slots fs)
  | [], (), _, d => d.skip
  | f :: fs, (slot, slots), key, d =>
    if f.name = key then (f.codec.read medium d).map fun v => (some v, slots)
    else (fill medium fs slots key d).map fun slots => (slot, slots)

/-- Reads the members of an object one after another. -/
def fillAll (medium : Medium) (fs : List Field) :
    Slots fs → List (Key × Draft) → Except Fault (Slots fs)
  | slots, [] => .ok slots
  | slots, (key, d) :: members => do
    checkKey fs slots key
    let slots ← fill medium fs slots (← key.wanted) d
    fillAll medium fs slots members

/-- The row of the values found, with what stands for the others; the first field that nothing
stands for is a fault. -/
def complete : (fs : List Field) → Slots fs → Except Fault (Row fs)
  | [], () => .ok ()
  | f :: fs, (slot, slots) =>
    match slot.or f.absent with
    | some v => (complete fs slots).map fun row => (v, row)
    | none => .error (.missingField f.name)

end Slots

namespace Row

/-- Reads a row from an object. A draft of another kind is no object. -/
def readMap? (medium : Medium) (fs : List Field) : Draft → Option (Except Fault (Row fs))
  | .map members => some do
    let slots ← Slots.fillAll medium fs (.empty fs) members
    Slots.complete fs slots
  | .openMap members ending => some do
    let slots ← Slots.fillAll medium fs (.empty fs) members
    ending.wantMap
    Slots.complete fs slots
  | .strayKey members _ key => some do
    let _ ← Slots.fillAll medium fs (.empty fs) members
    .error key.strayKeyFault
  | .noColon members key atEnd => some do
    let slots ← Slots.fillAll medium fs (.empty fs) members
    Slots.checkKey fs slots key
    .error (if atEnd then .endInMap else .colonExpected)
  | _ => none

end Row

/-- A record type: its name in diagnostics, its fields, and how a value is taken apart and put
together. -/
structure Record (α : Type) where
  /-- The name of the type in diagnostics. -/
  title : String
  /-- The fields, in the order in which they are written. -/
  fields : List Field
  /-- The values of the fields. -/
  toRow : α → Row fields
  /-- The record with given fields. -/
  ofRow : Row fields → α
  /-- Taking apart loses nothing. -/
  ofRow_toRow : ∀ a, ofRow (toRow a) = a
  /-- Putting together loses nothing. -/
  toRow_ofRow : ∀ row, toRow (ofRow row) = row

namespace Record

variable {α : Type} (r : Record α)

/-- What a reader of an array wanted. -/
def expected : String :=
  "struct " ++ r.title ++ " with " ++ (Number.integer r.fields.length).text ++
    (if r.fields.length = 1 then " element" else " elements")

/-- Reads a record from an object or an array. -/
def readRow (medium : Medium) (d : Draft) : Except Fault (Row r.fields) :=
  match d with
  | .list items ending =>
    Row.readItems medium r.expected r.fields.length ending r.fields 0 items
  | d => (Row.readMap? medium r.fields d).getD (.error (d.mismatch ("struct " ++ r.title)))

/-- The codec of a record type. -/
def codec : Codec α where
  write a := .map (Row.write r.fields (r.toRow a))
  read medium d := (r.readRow medium d).map r.ofRow

end Record

end CloudRoster.Json
