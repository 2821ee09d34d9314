import CloudRoster.Json.Value

/-!
# Looking into values

What stands in a value, and under a key of an object, for a reader that asks for little: what is not
there, or is of another type than wanted, counts as null, empty, zero or false. Of equal keys the
first one is taken.
-/

namespace CloudRoster.Json

/-- The text that a value is. -/
def asStr : Json → String
  | .text s => s
  | _ => ""

/-- The integer that a value is. -/
def asInt : Json → Int
  | .number (.integer n) => n
  | _ => 0

/-- The items of an array. -/
def asList : Json → List Json
  | .list items => items
  | _ => []

/-- The members of an object. -/
def asMap : Json → List (String × Json)
  | .map members => members
  | _ => []

/-- Whether an object has a key. -/
def has (j : Json) (key : String) : Bool := j.asMap.any (·.1 = key)

/-- The value under a key. -/
def field (j : Json) (key : String) : Json :=
  ((j.asMap.find? (·.1 = key)).map (·.2)).getD .null

/-- The text under a key. -/
def str (j : Json) (key : String) : String := (j.field key).asStr

/-- The text under a key, if there is one. -/
def str? (j : Json) (key : String) : Option String :=
  match j.field key with
  | .text s => some s
  | _ => none

/-- The natural number under a key. -/
def num (j : Json) (key : String) : Nat := (j.field key).asInt.toNat

/-- The truth value under a key. -/
def flag (j : Json) (key : String) : Bool := j.field key matches .boolean true

/-- The items of the array under a key. -/
def arr (j : Json) (key : String) : List Json := (j.field key).asList

/-- The texts in the array under a key. -/
def strs (j : Json) (key : String) : List String := (j.arr key).map asStr

/-- The natural number under a key, or a default if the key is not there. -/
def numOr (j : Json) (key : String) (default : Nat) : Nat :=
  if j.has key then j.num key else default

/-- The truth value under a key, true if the key is not there. -/
def flagOr (j : Json) (key : String) : Bool := !j.has key || j.flag key

end CloudRoster.Json
