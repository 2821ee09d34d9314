import CloudRoster.Cache.Registry
import CloudRoster.Cloud.Kind

/-!
# Known types of values

The payload of a message names its type. A node can read the payloads of the types that it knows.
-/

namespace CloudRoster

/-- The kinds whose payloads can be read. -/
abbrev ValueTypes := List Kind

namespace ValueTypes

/-- The types of all kinds. -/
def all : ValueTypes := Kind.all

/-- The kind of a type's name. -/
def find? (types : ValueTypes) (valueType : String) : Option Kind :=
  List.find? (·.typeName = valueType) types

/-- The names of the known types, in order. -/
def names (types : ValueTypes) : List String :=
  Cache.sortedNames (types.map Kind.typeName).eraseDups

/-- The value that a payload of a type stands for. -/
def decode (types : ValueTypes) (valueType jsonData : String) : Except SyncError Value :=
  match types.find? valueType with
  | none => .error (.unknownType valueType)
  | some k =>
    match k.codec.decode jsonData with
    | .ok v => .ok ⟨k, v⟩
    | .error f => .error (.malformedPayload valueType f.message)

/-- The known types in a diagnostic. -/
def describe (types : ValueTypes) : String :=
  "ValueTypeRegistry \x7b types: " ++ Text.quotedList types.names ++ " \x7d"

end ValueTypes

end CloudRoster
