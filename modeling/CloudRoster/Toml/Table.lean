import CloudRoster.Toml.Value

/-!
# Tables in the making

While a configuration text is read, a table knows how it came to be, because that decides what may
still be added to it. A table with a header of its own has been defined, and no other header and no
dotted key may define it again; a table that is only implied by the header of one within it may
still get its own; a table that dotted keys made is open to further dotted keys only.
-/

namespace CloudRoster.Toml

/-- How a table came to be. -/
inductive Origin where
  /-- It has a header. -/
  | header
  /-- It is on the way to a table with a header. -/
  | implied
  /-- It is on the way of a dotted key. -/
  | dotted
  deriving Repr, DecidableEq

/-- What stands under a key of a table in the making. -/
inductive Item where
  | value (v : Value)
  | table (origin : Origin) (members : List (String × Item))
  /-- A list of tables, each with a header; the last one is open. -/
  | tables (done : List (List (String × Item))) (last : List (String × Item))

/-- The members of a table in the making. -/
abbrev Members := List (String × Item)

namespace Members

/-- What stands under a key. -/
def find? (ms : Members) (key : String) : Option Item := (List.find? (·.1 = key) ms).map (·.2)

/-- The members with something else under a key. -/
def put (ms : Members) (key : String) (item : Item) : Members :=
  if ms.any (·.1 = key) then ms.map fun m => if m.1 = key then (key, item) else m
  else ms ++ [(key, item)]

/-- Adds a value under a dotted key. The tables on the way are made; one that stands there already
must not have a header, and the last one must have been made by dotted keys. -/
def assign (key : String) (v : Value) : List String → Members → (isOpen : Bool) → Option Members
  | [], ms, isOpen =>
    if isOpen && (ms.find? key).isNone then some (ms.put key (.value v)) else none
  | step :: path, ms, _ =>
    match ms.find? step with
    | none => do return ms.put step (.table .dotted (← assign key v path [] true))
    | some (.value _) | some (.table .header _) => none
    | some (.table .dotted inner) => do
      return ms.put step (.table .dotted (← assign key v path inner true))
    | some (.table .implied inner) => do
      return ms.put step (.table .implied (← assign key v path inner false))
    | some (.tables done last) => do
      return ms.put step (.tables done (← assign key v path last false))

/-- Changes the table at the end of a path of headers; the tables on the way are made. -/
def within (change : Members → Option Members) : List String → Members → Option Members
  | [], ms => change ms
  | step :: path, ms =>
    match ms.find? step with
    | none => do return ms.put step (.table .implied (← within change path []))
    | some (.value _) => none
    | some (.table origin inner) => do
      return ms.put step (.table origin (← within change path inner))
    | some (.tables done last) => do
      return ms.put step (.tables done (← within change path last))

/-- Opens the table of a header. -/
def openTable (key : String) (ms : Members) : Option Members :=
  match ms.find? key with
  | none => some (ms.put key (.table .header []))
  | some (.table .implied inner) => some (ms.put key (.table .header inner))
  | _ => none

/-- Opens a further table of a list of tables. -/
def openFurther (key : String) (ms : Members) : Option Members :=
  match ms.find? key with
  | none => some (ms.put key (.tables [] []))
  | some (.tables done last) => some (ms.put key (.tables (done ++ [last]) []))
  | _ => none

end Members

mutual

/-- What is under a key, when nothing more is added. -/
def Item.finish : Item → Value
  | .value v => v
  | .table _ ms => .table (finishAll ms)
  | .tables done last => .list (finishEach done ++ [.table (finishAll last)])

/-- The members of a table, when nothing more is added. -/
def finishAll : List (String × Item) → List (String × Value)
  | [] => []
  | (key, item) :: ms => (key, item.finish) :: finishAll ms

/-- The tables of a list, when nothing more is added. -/
def finishEach : List (List (String × Item)) → List Value
  | [] => []
  | ms :: rest => .table (finishAll ms) :: finishEach rest

end

end CloudRoster.Toml
