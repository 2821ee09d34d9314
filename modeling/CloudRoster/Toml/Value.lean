/-!
# Values of configuration texts

The values that a configuration text in the TOML format can hold. Fractional numbers and points in
time are kept as they are written: nothing in a node's configuration is one.
-/

namespace CloudRoster.Toml

/-- A value of a configuration text. -/
inductive Value where
  | text (s : String)
  | integer (n : Int)
  | fractional (literal : String)
  | boolean (b : Bool)
  | time (literal : String)
  | list (items : List Value)
  | table (members : List (String × Value))
  deriving Repr

/-- The value of a key. -/
def find? (members : List (String × Value)) (key : String) : Option Value :=
  (members.find? (·.1 = key)).map (·.2)

end CloudRoster.Toml
