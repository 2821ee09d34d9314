import CloudRoster.Decimal.Binary64
import CloudRoster.Text.Hex
import CloudRoster.Toml.Reader
import CloudRoster.Toml.Value

/-!
# Texts, numbers and points in time

The four kinds of quoted texts, whole numbers in four bases, fractional numbers, and points in time.
Whole numbers have a sign and 64 bits. A fractional number that is too large for 64 bits is refused;
a point in time must exist in the calendar.
-/

namespace CloudRoster.Toml

/-! ## Texts -/

/-- Reads a character by its number in a fixed count of hexadecimal digits. -/
def numbered (count : Nat) (cs : List Char) : Option (List Char × List Char) := do
  if cs.length < count then none
  let n ← Text.Hex.number? (cs.take count)
  if n.isValidChar then some ([.ofNat n], cs.drop count) else none

/-- Reads what follows a backslash. -/
def escaped : Reader (List Char)
  | 'b' :: cs => some (['\x08'], cs)
  | 't' :: cs => some (['\t'], cs)
  | 'n' :: cs => some (['\n'], cs)
  | 'f' :: cs => some (['\x0c'], cs)
  | 'r' :: cs => some (['\r'], cs)
  | '"' :: cs => some (['"'], cs)
  | '\\' :: cs => some (['\\'], cs)
  | 'u' :: cs => numbered 4 cs
  | 'U' :: cs => numbered 8 cs
  | _ => none

/-- Reads a piece of a text on one line. -/
def linePiece (quote : Char) (escapes : Bool) : Reader (List Char)
  | [] => none
  | c :: cs =>
    if c = quote then none
    else if escapes && c = '\\' then escaped cs
    else if isPlain c then some ([c], cs)
    else none

/-- Reads a text on one line. -/
def lineText (quote : Char) (escapes : Bool) : Reader String
  | [] => none
  | c :: cs => do
    if c ≠ quote then none
    let (pieces, cs) := Reader.many (linePiece quote escapes) cs
    let cs ← Reader.word [quote] cs
    return (String.ofList pieces.flatten, cs)

/-- Takes a backslash that joins lines, with the blanks and line ends after it. -/
def joined (cs : List Char) : Option (List Char) := do
  let cs ← lineEnd (skipBlanks cs)
  return (Reader.many (fun
    | '\n' :: cs | '\r' :: '\n' :: cs | ' ' :: cs | '\t' :: cs => some ((), cs)
    | _ => none) cs).2

/-- Reads a piece of a text on several lines. The end of a line is a line feed, however it is
written. One or two quotes are a piece if no further quote follows. -/
def blockPiece (quote : Char) (escapes : Bool) : Reader (List Char)
  | [] => none
  | c :: cs =>
    if c = quote then
      match cs with
      | d :: e :: rest =>
        if d ≠ quote then some ([c], d :: e :: rest)
        else if e ≠ quote then some ([c, d], e :: rest)
        else none
      | [d] => if d ≠ quote then some ([c], [d]) else none
      | [] => none
    else if escapes && c = '\\' then
      match joined cs with
      | some cs => some ([], cs)
      | none => escaped cs
    else match lineEnd (c :: cs) with
      | some cs => some (['\n'], cs)
      | none => if isPlain c then some ([c], cs) else none

/-- Reads a text on several lines. The line end right after the opening quotes is no part of it;
up to two quotes right before the closing ones are. -/
def blockText (quote : Char) (escapes : Bool) (cs : List Char) : Option (String × List Char) := do
  let cs ← Reader.word [quote, quote, quote] cs
  let (pieces, cs) := Reader.many (blockPiece quote escapes) ((lineEnd cs).getD cs)
  let quotes := (cs.takeWhile (· = quote)).length
  if quotes < 3 then none
  let extra := min (quotes - 3) 2
  return (String.ofList (pieces.flatten ++ List.replicate extra quote), cs.drop (extra + 3))

/-- Reads a text of any kind. -/
def anyText : Reader String :=
  Reader.orElse (blockText '"' true) <| Reader.orElse (lineText '"' true) <|
    Reader.orElse (blockText '\'' false) (lineText '\'' false)

/-! ## Numbers -/

/-- Reads a digit of a base. -/
def digit (base : Nat) : Reader Nat
  | [] => none
  | c :: cs => (Text.Hex.value? c).bind fun v => if v < base then some (v, cs) else none

/-- Reads a digit, or an underscore and a digit. -/
def laterDigit (base : Nat) : Reader Nat
  | '_' :: cs => digit base cs
  | cs => digit base cs

/-- Reads digits, between which single underscores may stand. -/
def digits (base : Nat) (cs : List Char) : Option (List Nat × List Char) := do
  let (first, cs) ← digit base cs
  let (more, cs) := Reader.many (laterDigit base) cs
  return (first :: more, cs)

/-- The natural number with the given digits. -/
def ofDigits (base : Nat) (ds : List Nat) : Nat := ds.foldl (fun n d => n * base + d) 0

/-- Takes a sign, if there is one; the flag tells whether it is a minus. -/
def sign : List Char → Bool × List Char
  | '-' :: cs => (true, cs)
  | '+' :: cs => (false, cs)
  | cs => (false, cs)

/-- Reads the digits of a whole number in base ten: no zero stands before another digit. -/
def wholeDigits (cs : List Char) : Option (List Nat × List Char) :=
  match cs with
  | '0' :: cs => some ([0], cs)
  | cs => digits 10 cs

/-- A whole number within 64 bits. -/
def bounded (n : Int) : Option Value :=
  if -9223372036854775808 ≤ n ∧ n < 9223372036854775808 then some (.integer n) else none

/-- Reads a whole number. -/
def integer (cs : List Char) : Option (Value × List Char) :=
  let based (base : Nat) (cs : List Char) : Option (Value × List Char) := do
    let (ds, cs) ← digits base cs
    return (← bounded (ofDigits base ds), cs)
  match cs with
  | '0' :: 'x' :: cs => based 16 cs
  | '0' :: 'o' :: cs => based 8 cs
  | '0' :: 'b' :: cs => based 2 cs
  | cs => do
    let (minus, cs) := sign cs
    let (ds, cs) ← wholeDigits cs
    let n : Int := ofDigits 10 ds
    return (← bounded (if minus then -n else n), cs)

/-- Whether the nearest number of the 64-bit binary format to `n · 10 ^ e` is finite. -/
def isFinite (n : Nat) (e : Int) : Bool :=
  let size : Int := (Nat.toDigits 10 n).length + e
  if n = 0 || size < 300 then true
  else if 320 < size then false
  else
    let (num, den) := Decimal.decimalRatio n e
    (Decimal.Binary64.ofRatio false num den).isSome

/-- Reads the digits after a point, if there are any. -/
def fraction (cs : List Char) : Option (List Nat × List Char) :=
  match cs with
  | '.' :: cs => digits 10 cs
  | cs => some ([], cs)

/-- Reads an exponent, if there is one. -/
def exponent (cs : List Char) : Option (Int × List Char) :=
  match cs with
  | 'e' :: cs | 'E' :: cs => do
    let (minus, cs) := sign cs
    let (ds, cs) ← digits 10 cs
    let n : Int := ofDigits 10 ds
    return (if minus then -n else n, cs)
  | cs => some (0, cs)

/-- What a reader has taken off a text. -/
def taken (before after : List Char) : String :=
  String.ofList (before.take (before.length - after.length))

/-- Reads a fractional number. -/
def fractional (text : List Char) : Option (Value × List Char) := do
  let (minus, cs) := sign text
  match cs with
  | 'i' :: 'n' :: 'f' :: cs | 'n' :: 'a' :: 'n' :: cs => return (.fractional (taken text cs), cs)
  | cs =>
    let (whole, afterWhole) ← wholeDigits cs
    let (part, cs) ← fraction afterWhole
    let (e, cs) ← exponent cs
    if cs.length = afterWhole.length then none
    if !minus && !isFinite (ofDigits 10 (whole ++ part)) (e - part.length) then none
    return (.fractional (taken text cs), cs)

/-! ## Points in time -/

/-- Reads a number of a fixed count of digits within bounds. -/
def fixed (count low high : Nat) (cs : List Char) : Option (Nat × List Char) := do
  let ds ← (cs.take count).mapM fun c => if c.isDigit then Text.Hex.value? c else none
  if ds.length < count then none
  let n := ofDigits 10 ds
  if low ≤ n ∧ n ≤ high then some (n, cs.drop count) else none

/-- The number of days of a month. -/
def daysOf (year month : Nat) : Nat :=
  if month = 2 then
    if year % 4 = 0 ∧ (year % 100 ≠ 0 ∨ year % 400 = 0) then 29 else 28
  else if month = 4 ∨ month = 6 ∨ month = 9 ∨ month = 11 then 30
  else 31

/-- Reads a date. -/
def date (cs : List Char) : Option (List Char) := do
  let (year, cs) ← fixed 4 0 9999 cs
  let cs ← Reader.word ['-'] cs
  let (month, cs) ← fixed 2 1 12 cs
  let cs ← Reader.word ['-'] cs
  let (_, cs) ← fixed 2 1 (daysOf year month) cs
  return cs

/-- Reads a time of day. -/
def timeOfDay (cs : List Char) : Option (List Char) := do
  let (_, cs) ← fixed 2 0 23 cs
  let cs ← Reader.word [':'] cs
  let (_, cs) ← fixed 2 0 59 cs
  let cs ← Reader.word [':'] cs
  let (_, cs) ← fixed 2 0 60 cs
  match cs with
  | '.' :: d :: cs => if d.isDigit then return cs.dropWhile Char.isDigit else none
  | ['.'] => none
  | cs => return cs

/-- Takes the distance from universal time, if it is there. -/
def offset (cs : List Char) : Option (List Char) :=
  let distance (cs : List Char) : Option (List Char) := do
    let (_, cs) ← fixed 2 0 23 cs
    let cs ← Reader.word [':'] cs
    let (_, cs) ← fixed 2 0 59 cs
    return cs
  match cs with
  | 'Z' :: cs | 'z' :: cs => some cs
  | '+' :: cs | '-' :: cs => distance cs
  | cs => some cs

/-- Takes the time of day that follows a date, with its offset, if it is there. -/
def timeAfterDate (cs : List Char) : Option (List Char) :=
  match cs with
  | 'T' :: rest | 't' :: rest | ' ' :: rest =>
    match timeOfDay rest with
    | some rest => offset rest
    | none => some cs
  | cs => some cs

/-- Reads a point in time. -/
def time (text : List Char) : Option (Value × List Char) := do
  let cs ← match date text with
    | some cs => timeAfterDate cs
    | none => timeOfDay text
  return (.time (taken text cs), cs)

/-! ## Any of them -/

/-- Reads a value that is no list and no table. -/
def scalar (cs : List Char) : Option (Value × List Char) :=
  match cs with
  | '"' :: _ | '\'' :: _ => (anyText cs).map fun (s, cs) => (.text s, cs)
  | 't' :: _ => (Reader.word "true".toList cs).map fun cs => (.boolean true, cs)
  | 'f' :: _ => (Reader.word "false".toList cs).map fun cs => (.boolean false, cs)
  | cs => Reader.orElse time (Reader.orElse fractional integer) cs

end CloudRoster.Toml
