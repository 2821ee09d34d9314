/-!
# Keyed entries in order

A list holds its values in the order in which they came, each with its key. A value that is replaced
keeps its place.
-/

namespace CloudRoster.Cache

/-- Values with their keys, in order. -/
abbrev Entries (K V : Type) := List (K × V)

namespace Entries

variable {K V : Type} [DecidableEq K]

/-- The value of a key: the first one, should the key stand more than once. -/
def find? : Entries K V → K → Option V
  | [], _ => none
  | (k, v) :: entries, key => if k = key then some v else find? entries key

/-- The entries with another value in the place of a key's first one. -/
def replace : Entries K V → K → V → Entries K V
  | [], _, _ => []
  | (k, old) :: entries, key, v =>
    if k = key then (k, v) :: entries else (k, old) :: replace entries key v

/-- The entries without a key's first one. -/
def erase : Entries K V → K → Entries K V
  | [], _ => []
  | (k, v) :: entries, key => if k = key then entries else (k, v) :: erase entries key

/-- The entries with one more at the end. -/
def push {K V : Type} (entries : Entries K V) (key : K) (v : V) : Entries K V :=
  entries ++ [(key, v)]

/-- The values in order. -/
def values {K V : Type} (entries : Entries K V) : List V := entries.map (·.2)

/-- The keys in order. -/
def keys {K V : Type} (entries : Entries K V) : List K := entries.map (·.1)

end Entries

end CloudRoster.Cache
