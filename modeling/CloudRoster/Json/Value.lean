import CloudRoster.Decimal.Shortest

/-!
# JSON values

A value keeps the members of an object in the order in which they are written, a repeated key
included.
-/

namespace CloudRoster

/-- A JSON number: an integer of at most 64 bits, or a binary floating-point number. -/
inductive Number where
  | integer (value : Int)
  | real (value : Decimal.Binary64)
  deriving Repr, DecidableEq

/-- A JSON value. -/
inductive Json where
  | null
  | boolean (value : Bool)
  | number (value : Number)
  | text (value : String)
  | list (items : List Json)
  | map (members : List (String × Json))
  deriving Repr

namespace Json

/-- The JSON number of a natural. -/
def nat (n : Nat) : Json := .number (.integer n)

/-- The JSON number of an integer. -/
def int (n : Int) : Json := .number (.integer n)

/-- The JSON array of texts. -/
def texts (items : List String) : Json := .list (items.map .text)

/-! Plain values stand for their JSON values. -/

instance : Coe String Json := ⟨.text⟩
instance : Coe Nat Json := ⟨.nat⟩
instance : Coe Bool Json := ⟨.boolean⟩
instance : Coe (List Json) Json := ⟨.list⟩
instance : Coe (List String) Json := ⟨.texts⟩

end Json

namespace Number

/-- The text of a number. -/
def text : Number → String
  | .integer n =>
    let digits := Nat.toDigits 10 n.natAbs
    String.ofList (if n < 0 then '-' :: digits else digits)
  | .real x => x.text

end Number

end CloudRoster
