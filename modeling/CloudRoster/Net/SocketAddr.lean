/-!
# Socket addresses

An address of a host together with a port, in its two families, as it is read and written. Reading
is strict: it takes the whole text or nothing. Writing is canonical: the longest run of zero groups
is left out, the first of several, and an address of the old family inside the new one is written
with dots.
-/

namespace CloudRoster.Net

/-- A socket address. -/
inductive SocketAddr where
  | v4 (octets : List UInt8) (port : UInt16)
  /-- The eight groups of the address; the scope is that of a link, or zero. -/
  | v6 (groups : List UInt16) (scope : UInt32) (port : UInt16)
  deriving Repr, DecidableEq

namespace SocketAddr

/-! ## Reading -/

/-- Takes a character off the front of a text. -/
def expect (c : Char) : List Char → Option (List Char)
  | [] => none
  | d :: cs => if c = d then some cs else none

/-- The value of a digit up to a base of sixteen. -/
def digitValue? (base : Nat) (c : Char) : Option Nat :=
  let v :=
    if '0' ≤ c ∧ c ≤ '9' then c.toNat - '0'.toNat
    else if 'a' ≤ c ∧ c ≤ 'f' then c.toNat - 'a'.toNat + 10
    else if 'A' ≤ c ∧ c ≤ 'F' then c.toNat - 'A'.toNat + 10
    else base
  if v < base then some v else none

/-- Reads a number below a bound, with as many digits as there are: at most `maxDigits`, and no
leading zero unless it is allowed. -/
def number (base bound : Nat) (maxDigits : Option Nat) (leadingZero : Bool) (cs : List Char) :
    Option (Nat × List Char) :=
  let digits := (cs.takeWhile fun c => (digitValue? base c).isSome).filterMap (digitValue? base)
  let value := digits.foldl (fun n d => n * base + d) 0
  if digits.isEmpty || !(maxDigits.all (digits.length ≤ ·)) ||
      (!leadingZero && digits.head? = some 0 && 1 < digits.length) || bound ≤ value then none
  else some (value, cs.drop digits.length)

/-- Reads one part of an address; every part but the first follows a separator. -/
def part {α : Type} (separator : Char) (first : Bool) (read : List Char → Option (α × List Char))
    (cs : List Char) : Option (α × List Char) :=
  if first then read cs else expect separator cs >>= read

/-- Reads an octet. -/
def octet (cs : List Char) : Option (UInt8 × List Char) :=
  (number 10 256 (some 3) false cs).map fun (n, cs) => (.ofNat n, cs)

/-- Reads four octets with dots between them. -/
def octets (cs : List Char) : Option (List UInt8 × List Char) := do
  let (a, cs) ← part '.' true octet cs
  let (b, cs) ← part '.' false octet cs
  let (c, cs) ← part '.' false octet cs
  let (d, cs) ← part '.' false octet cs
  return ([a, b, c, d], cs)

/-- Two octets as one group. -/
def groupOf (a b : UInt8) : UInt16 := .ofNat (a.toNat * 256 + b.toNat)

/-- Reads a group of hexadecimal digits. -/
def group (cs : List Char) : Option (UInt16 × List Char) :=
  (number 16 65536 (some 4) true cs).map fun (n, cs) => (.ofNat n, cs)

/-- Reads up to `room` groups with colons between them. Four octets may stand for the last two, and
end the groups; the flag tells whether they do. -/
def groups (first : Bool) : Nat → List Char → List UInt16 × Bool × List Char
  | 0, cs => ([], false, cs)
  | room + 1, cs =>
    let dotted := if room = 0 then none else part ':' first octets cs
    match dotted with
    | some ([a, b, c, d], cs) => ([groupOf a b, groupOf c d], true, cs)
    | _ =>
      match part ':' first group cs with
      | none => ([], false, cs)
      | some (g, cs) =>
        let (gs, dotted, cs) := groups false room cs
        (g :: gs, dotted, cs)

/-- Reads the eight groups of an address. Two colons stand for at least one group of zero; octets
with dots cannot stand before them. -/
def address (cs : List Char) : Option (List UInt16 × List Char) := do
  let (front, dotted, cs) := groups true 8 cs
  if front.length = 8 then return (front, cs)
  if dotted then none
  let cs ← expect ':' cs >>= expect ':'
  let (back, _, cs) := groups true (7 - front.length) cs
  return (front ++ List.replicate (8 - front.length - back.length) 0 ++ back, cs)

/-- Reads a port after a colon. -/
def portNumber (cs : List Char) : Option (UInt16 × List Char) := do
  let cs ← expect ':' cs
  let (n, cs) ← number 10 65536 none true cs
  return (.ofNat n, cs)

/-- Reads a scope, if there is one. -/
def scopeNumber (cs : List Char) : UInt32 × List Char :=
  match expect '%' cs >>= number 10 4294967296 none true with
  | some (n, cs) => (.ofNat n, cs)
  | none => (0, cs)

/-- Reads four octets and a port. -/
def readV4 (cs : List Char) : Option (SocketAddr × List Char) := do
  let (os, cs) ← octets cs
  let (port, cs) ← portNumber cs
  return (v4 os port, cs)

/-- Reads an address in brackets and a port. -/
def readV6 (cs : List Char) : Option (SocketAddr × List Char) := do
  let cs ← expect '[' cs
  let (gs, cs) ← address cs
  let (scope, cs) := scopeNumber cs
  let cs ← expect ']' cs
  let (port, cs) ← portNumber cs
  return (v6 gs scope port, cs)

/-- The address that a text names. -/
def ofText? (s : String) : Option SocketAddr :=
  match readV4 s.toList <|> readV6 s.toList with
  | some (a, []) => some a
  | _ => none

/-! ## Writing -/

/-- Octets with dots between them. -/
def octetsText (os : List UInt8) : String := ".".intercalate (os.map fun o => toString o.toNat)

/-- A group in hexadecimal digits, without leading zeros. -/
def groupText (g : UInt16) : String := String.ofList (Nat.toDigits 16 g.toNat)

/-- Groups with colons between them. -/
def groupsText (gs : List UInt16) : String := ":".intercalate (gs.map groupText)

/-- The number of groups of zero at the front. -/
def zerosAhead (gs : List UInt16) : Nat := (gs.takeWhile (· = 0)).length

/-- Where the longest run of groups of zero begins, the first of several, and how long it is. -/
def longestZeros : List UInt16 → Nat × Nat
  | [] => (0, 0)
  | g :: gs =>
    let (start, length) := longestZeros gs
    let here := zerosAhead (g :: gs)
    if length ≤ here then (0, here) else (start + 1, length)

/-- The text of an address of eight groups. -/
def addressText (gs : List UInt16) : String :=
  match gs with
  | [0, 0, 0, 0, 0, 0xffff, a, b] =>
    "::ffff:" ++ octetsText [.ofNat (a.toNat / 256), .ofNat (a.toNat % 256),
      .ofNat (b.toNat / 256), .ofNat (b.toNat % 256)]
  | _ =>
    let (start, length) := longestZeros gs
    if 1 < length then
      groupsText (gs.take start) ++ "::" ++ groupsText (gs.drop (start + length))
    else groupsText gs

/-- The text of a socket address. -/
def text : SocketAddr → String
  | v4 os port => octetsText os ++ ":" ++ toString port.toNat
  | v6 gs scope port =>
    let scope := if scope = 0 then "" else "%" ++ toString scope.toNat
    "[" ++ addressText gs ++ scope ++ "]:" ++ toString port.toNat

end SocketAddr

end CloudRoster.Net
