import CloudRoster.Decimal.Binary64

/-!
# The shortest decimal that reads back

A binary number is shown with the fewest decimal digits that only this number is nearest to, and
among those with the digits nearest to it. Digits are searched grid by grid: on the grid of
`n` significant digits only the two neighbours of the number can lie in the interval of reals that
round to it.
-/

namespace CloudRoster.Decimal

/-- `digits · 10 ^ (exponent - (number of digits - 1))`: the first digit stands for
`10 ^ exponent`. -/
structure Scientific where
  /-- The significant digits, without trailing zeros. -/
  digits : List Char
  /-- The power of ten of the first digit. -/
  exponent : Int
  deriving Repr, DecidableEq

/-- The exponent of the greatest power of ten that is at most `num / den`, searched downwards from
`e` in at most `fuel` steps. -/
def decimalExponent (num den : Nat) : Nat → Int → Int
  | 0, e => e
  | fuel + 1, e =>
    let (p, q) := decimalRatio 1 e
    if num * q < den * p then decimalExponent num den fuel (e - 1) else e

/-- The interval of reals that round to a number, as numerators over one denominator: its lower
end, the number itself, its upper end, and the denominator. Below a power of two the gap to the
next smaller number is half as wide. -/
def roundingInterval (x : Binary64) : Nat × Nat × Nat × Nat :=
  let m := x.significand
  let (p, q) := dyadic 1 (x.exponent - 2)
  let below := if m = Binary64.leastNormal ∧ Binary64.minExponent < x.exponent then 1 else 2
  ((4 * m - below) * p, 4 * m * p, (4 * m + 2) * p, q)

/-- The neighbour of a number on the grid of multiples of `10 ^ e` that rounds to it and is nearest
to it, if any. -/
def gridPoint (x : Binary64) (e : Int) : Option Nat :=
  let (lo, v, hi, den) := roundingInterval x
  let even := x.significand % 2 == 0
  let (p, q) := decimalRatio 1 e
  -- multiples of the grid are compared as `k * p * den` against `end * q`
  let unit := p * den
  let below := v * q / unit
  let above := below + 1
  let fits (k : Nat) : Bool :=
    if even then lo * q ≤ k * unit && k * unit ≤ hi * q
    else lo * q < k * unit && k * unit < hi * q
  match fits below, fits above with
  | true, true => if v * q - below * unit ≤ above * unit - v * q then some below else some above
  | true, false => some below
  | false, true => some above
  | false, false => none

/-- Searches the grids of `n`, `n + 1`, … significant digits. -/
def searchGrids (x : Binary64) (exponent : Int) : Nat → Nat → Nat × Int
  | 0, _ => (x.significand, 0)
  | fuel + 1, n =>
    let e := exponent - (n - 1 : Int)
    match gridPoint x e with
    | some k => (k, e)
    | none => searchGrids x exponent fuel (n + 1)

/-- The shortest decimal of a number that is not zero. -/
def shortest (x : Binary64) : Scientific :=
  let (num, den) := x.ratio
  let exponent := decimalExponent num den 700 309
  let (k, e) := searchGrids x exponent 17 1
  let digits := Nat.toDigits 10 k
  let kept := (digits.reverse.dropWhile (· = '0')).reverse
  ⟨kept, e + (digits.length - 1 : Int)⟩

/-- How numbers are spelled: positionally where the first digit stands for a power of ten from
`-5` to `15`, with a fraction in every case, and with an exponent that shows its sign otherwise. -/
def Scientific.text (s : Scientific) : String :=
  let n := s.digits.length
  if -5 ≤ s.exponent ∧ s.exponent ≤ 15 then
    if s.exponent < 0 then
      String.ofList ('0' :: '.' :: List.replicate (-s.exponent - 1).toNat '0' ++ s.digits)
    else
      let whole := s.exponent.toNat + 1
      if n ≤ whole then
        String.ofList (s.digits ++ List.replicate (whole - n) '0' ++ ['.', '0'])
      else
        String.ofList (s.digits.take whole ++ '.' :: s.digits.drop whole)
  else
    let mantissa := match s.digits with
      | d :: (r :: rest) => d :: '.' :: r :: rest
      | ds => ds
    let mark := if s.exponent < 0 then ['e', '-'] else ['e', '+']
    let power := Nat.toDigits 10 s.exponent.natAbs
    String.ofList (mantissa ++ mark ++ power)

/-- The text of a binary number. -/
def Binary64.text (x : Binary64) : String :=
  let sign := if x.negative then "-" else ""
  if x.significand = 0 then sign ++ "0.0" else sign ++ (shortest x).text

end CloudRoster.Decimal
