import CloudRoster.Json.Fault
import CloudRoster.Text.Hex

/-!
# JSON tokens

The scanner turns the characters of a text into tokens. It runs over the characters once, as a fold
of `Scanner.step`, and keeps the literal it is in the middle of as its state.

A literal can be wrong in two degrees. A string such as `"\ud800"` is complete but names no text: it
is a fault only for a reader that wants its value. A literal such as `tru` is not complete: nothing
after it is looked at. Where a reader that skips the value and one that wants it disagree about the
fault, the token carries both.

Bytes that belong to no UTF-8 character are units of the input like characters; they are harmless
until a string that holds one is wanted.
-/

namespace CloudRoster.Json

/-- One unit of a text: a character, or `none` for a byte that belongs to no UTF-8 character. -/
abbrev Unit8 := Option Char

/-- The kinds of literals. -/
inductive Literal where
  | word
  | number
  | text
  deriving Repr, DecidableEq

/-- A token of a JSON text. -/
inductive Token where
  | openList
  | closeList
  | openMap
  | closeMap
  | comma
  | colon
  | null
  | boolean (value : Bool)
  | number (value : Number)
  | text (value : String)
  /-- A complete literal without a value. -/
  | unreadable (kind : Literal) (fault : Fault)
  /-- A literal that breaks off; `wanted` is the fault for a reader of its value and `skipped` the
  fault for a reader that skips it. -/
  | broken (kind : Literal) (wanted skipped : Fault)
  /-- A character that begins no token. -/
  | junk
  deriving Repr, DecidableEq

/-! ## Numbers -/

/-- The value of a digit. -/
def digitValue (c : Char) : Nat := c.toNat - '0'.toNat

/-- The parts of a number; digits stand in reading order reversed. -/
structure Numeral where
  /-- Whether a minus sign stands in front. -/
  negative : Bool
  /-- The digits before the point, last one first. -/
  whole : List Char
  /-- The digits after the point, last one first; `none` without a point. -/
  fraction : Option (List Char)
  /-- The exponent's sign (`true` for minus) and digits, last one first. -/
  exponent : Option (Bool × List Char)
  deriving Repr, DecidableEq

/-- The significand collected so far, the tens it is to be multiplied with, and whether a digit has
been dropped because the significand would have left 64 bits. -/
structure Significand where
  /-- The digits kept, as a number below `2 ^ 64`. -/
  value : Nat
  /-- The power of ten. -/
  tens : Int
  /-- Whether all further digits are dropped. -/
  full : Bool
  deriving Repr, DecidableEq

namespace Significand

/-- The first natural that needs more than 64 bits. -/
def limit : Nat := 18446744073709551616

/-- Takes a digit before the point: a dropped digit still counts as a power of ten. -/
def wholeDigit (s : Significand) (c : Char) : Significand :=
  let next := s.value * 10 + digitValue c
  if s.full || limit ≤ next then { s with tens := s.tens + 1, full := true }
  else { s with value := next }

/-- Takes a digit after the point: a dropped digit is lost. -/
def fractionDigit (s : Significand) (c : Char) : Significand :=
  let next := s.value * 10 + digitValue c
  if s.full || limit ≤ next then { s with full := true }
  else { s with value := next, tens := s.tens - 1 }

end Significand

namespace Numeral

/-- The digits before the point as a significand. -/
def wholePart (n : Numeral) : Significand :=
  n.whole.reverse.foldl Significand.wholeDigit ⟨0, 0, false⟩

/-- All digits as a significand. -/
def significand (n : Numeral) : Significand :=
  (n.fraction.getD []).reverse.foldl Significand.fractionDigit { n.wholePart with full := false }

/-- The natural that a list of digits, last one first, stands for. -/
def digitsValue (digits : List Char) : Nat :=
  digits.foldr (fun c n => n * 10 + digitValue c) 0

/-- The largest exponent that is read; a larger one makes the number zero or too large. -/
def exponentLimit : Nat := 2147483648

/-- The value of a number. Without point and exponent it is an integer as long as it fits into 64
bits, signed if negative; minus zero and all other numbers are floating-point numbers. -/
def value (n : Numeral) : Except Fault Number :=
  let real (digits : Nat) (tens : Int) : Except Fault Number :=
    match Decimal.Binary64.ofDecimal n.negative digits tens with
    | some x => .ok (.real x)
    | none => .error .numberOutOfRange
  let s := n.significand
  match n.fraction, n.exponent with
  | none, none =>
    if n.wholePart.full then real s.value s.tens
    else if !n.negative then .ok (.integer s.value)
    else if s.value = 0 || 9223372036854775808 < s.value then real s.value 0
    else .ok (.integer (-s.value))
  | _, none => real s.value s.tens
  | _, some (minus, digits) =>
    let e := digitsValue digits
    if exponentLimit ≤ e then
      if s.value = 0 || minus then .ok (.real (Decimal.Binary64.zero n.negative))
      else .error .numberOutOfRange
    else real s.value (if minus then s.tens - e else s.tens + e)

/-- The token of a complete number. -/
def token (n : Numeral) : Token :=
  match n.value with
  | .ok v => .number v
  | .error fault => .unreadable .number fault

end Numeral

/-- How far a number has been read. -/
inductive NumeralPart where
  /-- After the minus sign. -/
  | sign
  /-- After a digit before the point. -/
  | whole
  /-- Right after the point. -/
  | point
  /-- After a digit behind the point. -/
  | fraction
  /-- Right after the exponent mark. -/
  | mark
  /-- After the sign of the exponent. -/
  | markSign
  /-- After a digit of the exponent. -/
  | exponent
  deriving Repr, DecidableEq

/-! ## Strings -/

/-- A string that is being read. -/
structure Quotation where
  /-- The characters read, last one first. -/
  chars : List Char
  /-- Whether a byte outside UTF-8 was read. -/
  stray : Bool
  /-- The first fault of the string as a text. -/
  fault : Option Fault
  /-- A leading surrogate that waits for its trailing one. -/
  leading : Option Nat
  deriving Repr, DecidableEq

namespace Quotation

/-- A string of which nothing has been read. -/
def empty : Quotation := ⟨[], false, none, none⟩

/-- Notes a fault, unless there is an earlier one. -/
def note (q : Quotation) (f : Fault) : Quotation :=
  { q with fault := some (q.fault.getD f) }

/-- A leading surrogate that is not followed by another escape is a fault. -/
def settle (q : Quotation) : Quotation :=
  match q.leading with
  | none => q
  | some _ => { q.note .surrogateCutShort with leading := none }

/-- Adds a character. -/
def push (q : Quotation) (c : Char) : Quotation := { q with chars := c :: q.chars }

/-- Adds the code unit of a numeric escape. -/
def pushCode (q : Quotation) (n : Nat) : Quotation :=
  match q.leading with
  | some high =>
    let q := { q with leading := none }
    if 0xDC00 ≤ n && n ≤ 0xDFFF then
      q.push (Char.ofNat (0x10000 + (high - 0xD800) * 0x400 + (n - 0xDC00)))
    else q.note .loneSurrogate
  | none =>
    if 0xDC00 ≤ n && n ≤ 0xDFFF then q.note .loneSurrogate
    else if 0xD800 ≤ n && n ≤ 0xDBFF then { q with leading := some n }
    else q.push (Char.ofNat n)

/-- The fault that a reader of the text meets if the string breaks off with `f`. -/
def wanted (q : Quotation) (f : Fault) : Fault := q.fault.getD f

/-- The token of a string that breaks off with `f`. -/
def broken (q : Quotation) (f : Fault) : Token := .broken .text (q.wanted f) f

/-- The token of a complete string. -/
def token (q : Quotation) : Token :=
  let q := q.settle
  match q.fault with
  | some f => .unreadable .text f
  | none =>
    if q.stray then .unreadable .text .invalidCodePoint
    else .text (String.ofList q.chars.reverse)

end Quotation

/-- The character that a backslash and a letter stand for. -/
def simpleEscape? (c : Char) : Option Char :=
  match c with
  | '"' => some '"'
  | '\\' => some '\\'
  | '/' => some '/'
  | 'b' => some '\x08'
  | 'f' => some '\x0c'
  | 'n' => some '\n'
  | 'r' => some '\r'
  | 't' => some '\t'
  | _ => none

/-! ## The scanner -/

/-- What the scanner is in the middle of. -/
inductive Scanning where
  /-- Between tokens. -/
  | idle
  /-- In a word: the letters that must follow and the token it will be. -/
  | word (rest : List Char) (token : Token)
  | numeral (read : Numeral) (part : NumeralPart)
  | quotation (read : Quotation)
  /-- After a backslash. -/
  | escape (read : Quotation)
  /-- In a numeric escape: the bytes taken and the value of the digits, if all were digits. -/
  | code (read : Quotation) (bytes : Nat) (value : Option Nat)
  /-- Behind a token that nothing may follow. -/
  | stopped
  deriving Repr, DecidableEq

/-- The scanner: its state and the tokens found, last one first. -/
structure Scanner where
  /-- What the scanner is in the middle of. -/
  state : Scanning
  /-- The tokens found, last one first. -/
  tokens : List Token
  deriving Repr, DecidableEq

namespace Scanner

/-- A scanner at the start of a text. -/
def start : Scanner := ⟨.idle, []⟩

/-- Adds a complete token. -/
def emit (tokens : List Token) (t : Token) : Scanner := ⟨.idle, t :: tokens⟩

/-- Adds a token that nothing may follow. -/
def stop (tokens : List Token) (t : Token) : Scanner := ⟨.stopped, t :: tokens⟩

/-- Whether a character is insignificant between tokens. -/
def isBlank (c : Char) : Bool := c = ' ' || c = '\n' || c = '\t' || c = '\r'

/-- Whether a character is a decimal digit. -/
def isDigit (c : Char) : Bool := '0' ≤ c && c ≤ '9'

/-- Takes a unit between two tokens. -/
def begin (tokens : List Token) : Unit8 → Scanner
  | none => stop tokens .junk
  | some c =>
    if isBlank c then ⟨.idle, tokens⟩
    else if isDigit c then ⟨.numeral ⟨false, [c], none, none⟩ .whole, tokens⟩
    else match c with
      | '[' => emit tokens .openList
      | ']' => emit tokens .closeList
      | '\x7b' => emit tokens .openMap
      | '\x7d' => emit tokens .closeMap
      | ',' => emit tokens .comma
      | ':' => emit tokens .colon
      | '"' => ⟨.quotation .empty, tokens⟩
      | '-' => ⟨.numeral ⟨true, [], none, none⟩ .sign, tokens⟩
      | 't' => ⟨.word ['r', 'u', 'e'] (.boolean true), tokens⟩
      | 'f' => ⟨.word ['a', 'l', 's', 'e'] (.boolean false), tokens⟩
      | 'n' => ⟨.word ['u', 'l', 'l'] .null, tokens⟩
      | _ => stop tokens .junk

/-- Takes a unit inside a word. -/
def inWord (tokens : List Token) (rest : List Char) (t : Token) (u : Unit8) : Scanner :=
  match rest with
  | [] => begin (t :: tokens) u
  | c :: rest =>
    if u = some c then
      if rest = [] then emit tokens t else ⟨.word rest t, tokens⟩
    else stop tokens (.broken .word .wordExpected .wordExpected)

/-- Takes a unit inside a number. A number ends before the first unit that cannot continue it. -/
def inNumeral (tokens : List Token) (n : Numeral) (part : NumeralPart) (u : Unit8) : Scanner :=
  let wrong := stop tokens (.broken .number .invalidNumber .invalidNumber)
  let complete := begin (n.token :: tokens) u
  let digit? := u.filter isDigit
  match part with
  | .sign =>
    match digit? with
    | some c => ⟨.numeral { n with whole := [c] } .whole, tokens⟩
    | none => wrong
  | .whole =>
    match digit? with
    | some c =>
      if n.whole = ['0'] then wrong
      else ⟨.numeral { n with whole := c :: n.whole } .whole, tokens⟩
    | none =>
      if u = some '.' then ⟨.numeral { n with fraction := some [] } .point, tokens⟩
      else if u = some 'e' || u = some 'E' then
        ⟨.numeral { n with exponent := some (false, []) } .mark, tokens⟩
      else complete
  | .point =>
    match digit? with
    | some c => ⟨.numeral { n with fraction := some [c] } .fraction, tokens⟩
    | none => wrong
  | .fraction =>
    match digit? with
    | some c => ⟨.numeral { n with fraction := some (c :: n.fraction.getD []) } .fraction, tokens⟩
    | none =>
      if u = some 'e' || u = some 'E' then
        ⟨.numeral { n with exponent := some (false, []) } .mark, tokens⟩
      else complete
  | .mark =>
    match digit? with
    | some c => ⟨.numeral { n with exponent := some (false, [c]) } .exponent, tokens⟩
    | none =>
      if u = some '+' then ⟨.numeral n .markSign, tokens⟩
      else if u = some '-' then ⟨.numeral { n with exponent := some (true, []) } .markSign, tokens⟩
      else wrong
  | .markSign =>
    match digit? with
    | some c =>
      ⟨.numeral { n with exponent := n.exponent.map fun (s, _) => (s, [c]) } .exponent, tokens⟩
    | none => wrong
  | .exponent =>
    match digit? with
    | some c =>
      ⟨.numeral { n with exponent := n.exponent.map fun (s, ds) => (s, c :: ds) } .exponent, tokens⟩
    | none => complete

/-- Takes a unit inside a string. -/
def inQuotation (tokens : List Token) (q : Quotation) : Unit8 → Scanner
  | none => ⟨.quotation { q.settle with stray := true }, tokens⟩
  | some c =>
    if c = '"' then emit tokens q.token
    else if c = '\\' then ⟨.escape q, tokens⟩
    else if c.toNat < 0x20 then stop tokens (q.settle.broken .controlCharacter)
    else ⟨.quotation (q.settle.push c), tokens⟩

/-- Takes the unit after a backslash. -/
def inEscape (tokens : List Token) (q : Quotation) : Unit8 → Scanner
  | none => stop tokens (q.settle.broken .invalidEscape)
  | some c =>
    if c = 'u' then ⟨.code q 0 (some 0), tokens⟩
    else match simpleEscape? c with
      | some d => ⟨.quotation (q.settle.push d), tokens⟩
      | none => stop tokens (q.settle.broken .invalidEscape)

/-- Takes a unit of a numeric escape, which is complete once four bytes have been taken. -/
def inCode (tokens : List Token) (q : Quotation) (bytes : Nat) (value : Option Nat) (u : Unit8) :
    Scanner :=
  let bytes := bytes + (u.map Char.utf8Size).getD 1
  let value := do
    let v ← value
    let d ← u >>= Text.Hex.value?
    return v * 16 + d
  if bytes < 4 then ⟨.code q bytes value, tokens⟩
  else match value with
    | some v => ⟨.quotation (q.pushCode v), tokens⟩
    | none => stop tokens (q.broken .invalidEscape)

/-- Takes a unit of the text. -/
def step (s : Scanner) (u : Unit8) : Scanner :=
  match s with
  | ⟨.idle, tokens⟩ => begin tokens u
  | ⟨.word rest t, tokens⟩ => inWord tokens rest t u
  | ⟨.numeral n part, tokens⟩ => inNumeral tokens n part u
  | ⟨.quotation q, tokens⟩ => inQuotation tokens q u
  | ⟨.escape q, tokens⟩ => inEscape tokens q u
  | ⟨.code q bytes value, tokens⟩ => inCode tokens q bytes value u
  | ⟨.stopped, tokens⟩ => ⟨.stopped, tokens⟩

/-- The tokens once the text has ended, in order. -/
def finish (s : Scanner) : List Token :=
  match s.state with
  | .idle | .stopped => s.tokens.reverse
  | .word [] t => (t :: s.tokens).reverse
  | .word _ _ => (.broken .word .endInValue .endInValue :: s.tokens).reverse
  | .numeral n .whole | .numeral n .fraction | .numeral n .exponent => (n.token :: s.tokens).reverse
  | .numeral _ _ => (.broken .number .endInValue .invalidNumber :: s.tokens).reverse
  | .quotation q => (q.broken .endInText :: s.tokens).reverse
  | .escape q => (q.broken .endInText :: s.tokens).reverse
  | .code q _ _ => (q.broken .endInText :: s.tokens).reverse

end Scanner

/-- The tokens of a text given in units. -/
def tokens (units : List Unit8) : List Token :=
  (units.foldl Scanner.step .start).finish

/-- The tokens of a text. -/
def tokensOfText (s : String) : List Token :=
  (s.foldl (fun scanner c => Scanner.step scanner (some c)) Scanner.start).finish

theorem tokensOfText_eq (s : String) : tokensOfText s = tokens (s.toList.map some) := by
  simp [tokensOfText, tokens, String.foldl_eq_foldl_toList, List.foldl_map]

end CloudRoster.Json
