import CloudRoster.Json.Codec

/-!
# Places of faults

Where in a text a reader stands when it gives up: the line, and how many bytes of that line lie
behind it. A reader takes a text from left to right, so a fault shows in every beginning of the text
that reaches far enough, and the shortest such beginning ends where the reader stands. It is found
by halving. A few faults are noticed a little before that point or behind it.
-/

namespace CloudRoster.Json

/-- A place in a text. -/
structure Place where
  /-- The line, counted from one. -/
  line : Nat
  /-- The bytes of the line in front of the place. -/
  column : Nat
  deriving Repr, DecidableEq

namespace Place

/-- The place in front of a text. -/
def start : Place := ⟨1, 0⟩

/-- The place behind a character of which some bytes have been taken. -/
def past (p : Place) (c : Char) (bytes : Nat) : Place :=
  if c = '\n' then ⟨p.line + 1, 0⟩ else ⟨p.line, p.column + bytes⟩

/-- The place behind some characters. -/
def behind (cs : List Char) : Place := cs.foldl (fun p c => p.past c c.utf8Size) start

/-- The place behind some characters of whose last one only the first byte has been taken. -/
def intoLast (cs : List Char) : Place :=
  match cs.getLast? with
  | none => start
  | some c => (behind cs.dropLast).past c 1

/-- How a diagnostic names a place. -/
def text (p : Place) : String :=
  "line " ++ toString p.line ++ " column " ++ toString p.column

end Place

/-- The first number from `low` on that has a property, or `high` if none below has it, for a
property that all later numbers keep. -/
def firstWith (holds : Nat → Bool) (low high : Nat) : Nat :=
  if low < high then
    let middle := (low + high) / 2
    if holds middle then firstWith holds low middle else firstWith holds (middle + 1) high
  else high
termination_by high - low

/-- The search does not leave its bounds. -/
theorem firstWith_le {holds : Nat → Bool} {low high : Nat} (h : low ≤ high) :
    low ≤ firstWith holds low high ∧ firstWith holds low high ≤ high := by
  fun_induction firstWith holds low high with
  | case1 low high hlt middle hit ih =>
    have := ih (by omega)
    omega
  | case2 low high hlt middle hmiss ih =>
    have := ih (by omega)
    omega
  | case3 low high hstop => omega

/-- Whether a fault is that the text ends. -/
def Fault.isEnd : Fault → Bool
  | .endInList | .endInMap | .endInText | .endInValue => true
  | _ => false

/-- Whether a character can stand in a number. -/
def isNumeral (c : Char) : Bool := c.isDigit || ['+', '-', '.', 'e', 'E'].contains c

namespace Codec

/-- The fault of the first characters of a text. -/
def faultOf? {α : Type} (c : Codec α) (cs : List Char) (n : Nat) : Option Fault :=
  match c.decode (String.ofList (cs.take n)) with
  | .ok _ => none
  | .error f => some f

/-- How many characters of a text a reader has taken when it meets a fault other than the end. An
opening bracket that is not wanted is left alone, a number is taken to its end, and a whole object
or array is left before a fault of its keys or its length is told. -/
def taken {α : Type} (c : Codec α) (cs : List Char) (f : Fault) : Nat :=
  let n := firstWith (fun n => c.faultOf? cs n = some f) 0 cs.length
  let rest := cs.drop n
  let blanks := (rest.takeWhile Scanner.isBlank).length
  match f with
  | .wrongKind .sequence _ | .wrongKind .map _ => n - 1
  | .wrongKind (.number _) _ | .integerOutOfRange _ _ | .numberOutOfRange =>
    n + (rest.takeWhile isNumeral).length
  | .duplicateField _ => n + blanks + if rest[blanks]? = some '}' then 1 else 0
  | .trailingCharacters =>
    if cs[n - 1]? = some ',' ∧ (c.faultOf? cs (n - 1)).isSome then n + blanks + 1 else n
  | .valueExpected => if c.faultOf? cs (n - 1) = some .endInMap then n - 1 else n
  | _ => n

/-- The place at which a reader of a text meets its fault. -/
def placeOf {α : Type} (c : Codec α) (s : String) (f : Fault) : Place :=
  if f.isEnd then .behind s.toList
  else .intoLast (s.toList.take (c.taken s.toList f))

end Codec

end CloudRoster.Json
