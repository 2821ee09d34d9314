/-!
# Binary floating-point numbers

Magnitudes of the 64-bit binary format, and rounding of a ratio of naturals to the nearest one.
Everything is exact arithmetic on naturals, so the rounding can be computed and reasoned about.
-/

namespace CloudRoster.Decimal

/-- A finite binary number: `significand · 2 ^ exponent`, with a sign that zero has as well. -/
structure Binary64 where
  /-- Whether the number carries a minus sign. -/
  negative : Bool
  /-- The significand, at most `2 ^ 53`. -/
  significand : Nat
  /-- The power of two, at least `-1074`. -/
  exponent : Int
  deriving Repr, DecidableEq

/-- The quotient of two naturals, rounded to the nearest natural, a half to the even one. -/
def roundHalfEven (num den : Nat) : Nat :=
  let q := num / den
  let r := num % den
  if 2 * r < den then q
  else if den < 2 * r then q + 1
  else q + q % 2

/-- The ratio of a number of the form `n · 2 ^ e`, as numerator and denominator. -/
def dyadic (n : Nat) (e : Int) : Nat × Nat :=
  (n * Nat.pow 2 e.toNat, Nat.pow 2 (-e).toNat)

/-- The ratio of a number of the form `n · 10 ^ e`, as numerator and denominator. -/
def decimalRatio (n : Nat) (e : Int) : Nat × Nat :=
  (n * Nat.pow 10 e.toNat, Nat.pow 10 (-e).toNat)

/-- The exponent of the greatest power of two that is at most `num / den`. -/
def binaryExponent (num den : Nat) : Int :=
  let estimate : Int := (num.log2 : Int) - den.log2
  let (p, q) := dyadic 1 estimate
  if num * q < den * p then estimate - 1 else estimate

namespace Binary64

/-- The smallest power of two that a significand is multiplied with. -/
def minExponent : Int := -1074

/-- The largest power of two that a significand below `2 ^ 53` is multiplied with. -/
def maxExponent : Int := 971

/-- The smallest significand of a number that is not subnormal: `2 ^ 52`. -/
def leastNormal : Nat := 4503599627370496

/-- The zero of a given sign. -/
def zero (negative : Bool) : Binary64 := ⟨negative, 0, minExponent⟩

/-- The number nearest to `num / den`; nothing where it would be too large for the format. -/
def ofRatio (negative : Bool) (num den : Nat) : Option Binary64 :=
  if num = 0 then some (zero negative)
  else
    let e := max minExponent (binaryExponent num den - 52)
    let (p, q) := dyadic 1 e
    let m := roundHalfEven (num * q) (den * p)
    let (m, e) := if m = 2 * leastNormal then (leastNormal, e + 1) else (m, e)
    if maxExponent < e then none else some ⟨negative, m, e⟩

/-- The magnitude as a ratio of naturals. -/
def ratio (x : Binary64) : Nat × Nat := dyadic x.significand x.exponent

/-- The product of two numbers, rounded; the sign is that of the first. -/
def mul (x y : Binary64) : Option Binary64 :=
  let (a, b) := x.ratio
  let (c, d) := y.ratio
  ofRatio x.negative (a * c) (b * d)

/-- The quotient of two numbers, rounded; the sign is that of the first. -/
def div (x y : Binary64) : Option Binary64 :=
  let (a, b) := x.ratio
  let (c, d) := y.ratio
  ofRatio x.negative (a * d) (b * c)

/-- The number nearest to a power of ten; nothing from `10 ^ 309` on. -/
def powerOfTen (n : Nat) : Option Binary64 := ofRatio false (Nat.pow 10 n) 1

/-- Scales by a power of ten in steps of at most `10 ^ 308`, rounding after every step, as the
reader of decimal numbers does. Nothing where the result would be too large. -/
def scale (fuel : Nat) (x : Binary64) (tens : Int) : Option Binary64 :=
  match fuel with
  | 0 => some x
  | fuel + 1 =>
    if 0 ≤ tens then
      if x.significand = 0 then some x
      else if 308 < tens then none
      else powerOfTen tens.toNat >>= x.mul
    else if tens < -308 then
      if x.significand = 0 then some x
      else do
        let y ← powerOfTen 308 >>= x.div
        scale fuel y (tens + 308)
    else powerOfTen (-tens).toNat >>= x.div

/-- The value of `digits · 10 ^ tens`. The digits are rounded first, then each scaling step. -/
def ofDecimal (negative : Bool) (digits : Nat) (tens : Int) : Option Binary64 := do
  let x ← ofRatio negative digits 1
  scale 4 x tens

end Binary64

end CloudRoster.Decimal
