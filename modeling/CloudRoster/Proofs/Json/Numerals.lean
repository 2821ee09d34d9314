import CloudRoster.Proofs.Json.Literals

/-!
# Numbers as they are scanned

A number has digits, and may have a sign, a fraction and an exponent. Every number of the grammar is
scanned as one token, which is complete once something stands behind it. Integers of at most 64 bits
are written with their decimal digits, and have themselves as value.
-/

namespace CloudRoster.Json

open Scanner

/-- Digits, of which there is at least one. -/
structure Digits where
  chars : List Char
  nonempty : chars ≠ []
  digits : ∀ c ∈ chars, isDigit c = true

/-- The exponent of a number. -/
structure Exponent where
  /-- Whether the mark is a capital letter. -/
  capital : Bool
  /-- The sign, if there is one; `true` for minus. -/
  sign : Option Bool
  digits : Digits

/-- A number as the grammar admits it. -/
structure Figure where
  negative : Bool
  whole : Digits
  noLeadingZero : whole.chars = ['0'] ∨ whole.chars.head? ≠ some '0'
  fraction : Option Digits
  exponent : Option Exponent

namespace Figure

/-- The sign of a number. -/
def signChars (negative : Bool) : List Char := if negative then ['-'] else []

/-- The point with the digits behind it. -/
def fractionChars : Option Digits → List Char
  | none => []
  | some ds => '.' :: ds.chars

/-- The sign of an exponent. -/
def exponentSign : Option Bool → List Char
  | none => []
  | some true => ['-']
  | some false => ['+']

/-- The exponent with its mark. -/
def exponentChars : Option Exponent → List Char
  | none => []
  | some e => (if e.capital then 'E' else 'e') :: (exponentSign e.sign ++ e.digits.chars)

/-- The characters of a number. -/
def chars (f : Figure) : List Char :=
  signChars f.negative ++ f.whole.chars ++ fractionChars f.fraction ++ exponentChars f.exponent

/-- The parts of a number as they are read. -/
def numeral (f : Figure) : Numeral where
  negative := f.negative
  whole := f.whole.chars.reverse
  fraction := f.fraction.map (·.chars.reverse)
  exponent := f.exponent.map fun e => (e.sign.getD false, e.digits.chars.reverse)

/-- The token of a number. -/
def token (f : Figure) : Token := f.numeral.token

end Figure

theorem isBlank_of_isDigit {c : Char} (h : isDigit c = true) : isBlank c = false := by
  refine Bool.eq_false_iff.2 fun hblank => ?_
  simp only [isBlank, Bool.or_eq_true, decide_eq_true_eq] at hblank
  rcases hblank with ((rfl | rfl) | rfl) | rfl <;> exact absurd h (by decide)

/-- Digits are read one after another. -/
theorem scan_digits (negative : Bool) {ds : List Char} (hds : ∀ c ∈ ds, isDigit c = true)
    {read : List Char} (hne : read ≠ []) (hzero : read ≠ ['0'] ∨ ds = []) (ts : List Token) :
    (⟨.numeral ⟨negative, read, none, none⟩ .whole, ts⟩ : Scanner).scan ds =
      ⟨.numeral ⟨negative, ds.reverse ++ read, none, none⟩ .whole, ts⟩ := by
  induction ds generalizing read with
  | nil => rfl
  | cons c ds ih =>
    -- a single zero takes no further digit, and what is longer is no single zero
    have hread : read ≠ ['0'] := hzero.resolve_right (by simp)
    have hc : isDigit c = true := hds c List.mem_cons_self
    have hstep : (⟨.numeral ⟨negative, read, none, none⟩ .whole, ts⟩ : Scanner).step (some c) =
        ⟨.numeral ⟨negative, c :: read, none, none⟩ .whole, ts⟩ := by
      simp [step, inNumeral, Option.filter, hc, hread]
    have hlonger : c :: read ≠ ['0'] := by
      intro h
      exact hne (List.cons.inj h).2
    rw [scan_cons, hstep, ih (fun c hc => hds c (List.mem_cons_of_mem _ hc)) (by simp)
      (Or.inl hlonger)]
    simp

/-- Where one more digit is one more digit of a part, so are many. -/
theorem scan_run {f : List Char → Numeral} {part : NumeralPart} {ts : List Token}
    (hstep : ∀ read c, isDigit c = true →
      (⟨.numeral (f read) part, ts⟩ : Scanner).step (some c) = ⟨.numeral (f (c :: read)) part, ts⟩)
    {ds : List Char} (hds : ∀ c ∈ ds, isDigit c = true) (read : List Char) :
    (⟨.numeral (f read) part, ts⟩ : Scanner).scan ds =
      ⟨.numeral (f (ds.reverse ++ read)) part, ts⟩ := by
  induction ds generalizing read with
  | nil => rfl
  | cons c ds ih =>
    rw [scan_cons, hstep read c (hds c List.mem_cons_self),
      ih fun d hd => hds d (List.mem_cons_of_mem _ hd)]
    simp

namespace Figure

theorem scan_whole (f : Figure) (ts : List Token) :
    (⟨.idle, ts⟩ : Scanner).scan (signChars f.negative ++ f.whole.chars) =
      ⟨.numeral ⟨f.negative, f.whole.chars.reverse, none, none⟩ .whole, ts⟩ := by
  obtain ⟨d, ds, hchars⟩ := List.exists_cons_of_ne_nil f.whole.nonempty
  have hall := f.whole.digits
  rw [hchars] at hall
  have hd : isDigit d = true := hall d List.mem_cons_self
  have hds : ∀ c ∈ ds, isDigit c = true := fun c hc => hall c (List.mem_cons_of_mem _ hc)
  have hzero : [d] ≠ ['0'] ∨ ds = [] := by
    rcases f.noLeadingZero with h | h
    · rw [hchars] at h
      exact .inr (List.cons.inj h).2
    · rw [hchars] at h
      exact .inl fun e => h (congrArg some (List.cons.inj e).1)
  -- the sign only opens the number; from the first digit on both are read alike
  have hfirst : (⟨.idle, ts⟩ : Scanner).scan (signChars f.negative ++ [d]) =
      ⟨.numeral ⟨f.negative, [d], none, none⟩ .whole, ts⟩ := by
    cases f.negative with
    | false =>
      show begin ts (some d) = _
      simp [begin, isBlank_of_isDigit hd, hd]
    | true =>
      show inNumeral ts ⟨true, [], none, none⟩ .sign (some d) = _
      simp [inNumeral, Option.filter, hd]
  have hsplit : signChars f.negative ++ d :: ds = (signChars f.negative ++ [d]) ++ ds := by simp
  rw [hchars, hsplit, scan_append, hfirst, scan_digits f.negative hds (by simp) hzero]
  simp

theorem scan_fraction (negative : Bool) (whole : List Char) (ds : Digits) (ts : List Token) :
    (⟨.numeral ⟨negative, whole, none, none⟩ .whole, ts⟩ : Scanner).scan (fractionChars (some ds)) =
      ⟨.numeral ⟨negative, whole, some ds.chars.reverse, none⟩ .fraction, ts⟩ := by
  obtain ⟨d, more, hchars⟩ := List.exists_cons_of_ne_nil ds.nonempty
  have hall := ds.digits
  rw [hchars] at hall
  have hfirst : (⟨.numeral ⟨negative, whole, some [], none⟩ .point, ts⟩ : Scanner).step (some d) =
      ⟨.numeral ⟨negative, whole, some [d], none⟩ .fraction, ts⟩ := by
    simp [step, inNumeral, Option.filter, hall d List.mem_cons_self]
  have hpoint : (⟨.numeral ⟨negative, whole, none, none⟩ .whole, ts⟩ : Scanner).step (some '.') =
      ⟨.numeral ⟨negative, whole, some [], none⟩ .point, ts⟩ := rfl
  have hmore : (⟨.numeral ⟨negative, whole, some [d], none⟩ .fraction, ts⟩ : Scanner).scan more =
      ⟨.numeral ⟨negative, whole, some (more.reverse ++ [d]), none⟩ .fraction, ts⟩ :=
    scan_run (f := fun read => ⟨negative, whole, some read, none⟩)
      (fun read c hc => by simp [step, inNumeral, Option.filter, hc])
      (fun c hc => hall c (List.mem_cons_of_mem _ hc)) [d]
  rw [fractionChars, hchars, scan_cons, hpoint, scan_cons, hfirst, hmore]
  simp

theorem scan_exponent (n : Numeral) {part : NumeralPart} (hpart : part = .whole ∨ part = .fraction)
    (e : Exponent) (ts : List Token) :
    (⟨.numeral n part, ts⟩ : Scanner).scan (exponentChars (some e)) =
      ⟨.numeral { n with exponent := some (e.sign.getD false, e.digits.chars.reverse) } .exponent,
        ts⟩ := by
  obtain ⟨d, more, hchars⟩ := List.exists_cons_of_ne_nil e.digits.nonempty
  have hall := e.digits.digits
  rw [hchars] at hall
  have hd : isDigit d = true := hall d List.mem_cons_self
  have hmark : (⟨.numeral n part, ts⟩ : Scanner).step (some (if e.capital then 'E' else 'e')) =
      ⟨.numeral { n with exponent := some (false, []) } .mark, ts⟩ := by
    rcases hpart with rfl | rfl <;> cases e.capital <;> rfl
  -- with a sign or without one, the first digit stands alone behind it
  have hfirst : (⟨.numeral { n with exponent := some (false, []) } .mark, ts⟩ : Scanner).scan
      (exponentSign e.sign ++ [d]) =
      ⟨.numeral { n with exponent := some (e.sign.getD false, [d]) } .exponent, ts⟩ := by
    cases e.sign with
    | none => simp [exponentSign, step, inNumeral, Option.filter, hd]
    | some minus =>
      have hplus : isDigit '+' = false := by decide
      have hminus : isDigit '-' = false := by decide
      cases minus <;> simp [exponentSign, step, inNumeral, Option.filter, hd, hplus, hminus]
  have hmore : (⟨.numeral { n with exponent := some (e.sign.getD false, [d]) } .exponent, ts⟩ :
      Scanner).scan more = ⟨.numeral
        { n with exponent := some (e.sign.getD false, more.reverse ++ [d]) } .exponent, ts⟩ :=
    scan_run (f := fun read => { n with exponent := some (e.sign.getD false, read) })
      (fun read c hc => by simp [step, inNumeral, Option.filter, hc])
      (fun c hc => hall c (List.mem_cons_of_mem _ hc)) [d]
  have hsplit : exponentSign e.sign ++ d :: more = (exponentSign e.sign ++ [d]) ++ more := by simp
  rw [exponentChars, hchars, hsplit, scan_cons, hmark, scan_append, hfirst, hmore]
  simp

/-- A number is one token once something stands behind it. -/
theorem rests (f : Figure) (ts : List Token) :
    Rests ((⟨.idle, ts⟩ : Scanner).scan f.chars) (f.token :: ts) := by
  have hwhole := f.scan_whole ts
  unfold chars
  rw [scan_append, scan_append, hwhole]
  obtain ⟨negative, whole, hleading, fraction, exponent⟩ := f
  cases fraction with
  | none =>
    cases exponent with
    | none => exact .numeral _ .whole ts
    | some e =>
      rw [fractionChars, scan_nil, scan_exponent _ (.inl rfl)]
      exact .numeral _ .exponent ts
  | some ds =>
    rw [scan_fraction]
    cases exponent with
    | none => exact .numeral _ .fraction ts
    | some e =>
      rw [scan_exponent _ (.inr rfl)]
      exact .numeral _ .exponent ts

/-- Numbers that are written alike have the same token. -/
theorem token_congr {f g : Figure} (h : f.chars = g.chars) : f.token = g.token := by
  have hrests := f.rests []
  rw [h] at hrests
  exact (List.cons.inj (hrests.unique (g.rests []))).1

end Figure

/-! ## Integers -/

/-- The decimal digits of a natural, the highest one first. -/
abbrev decimal (n : Nat) : List Char := Nat.toDigits 10 n

/-- A statement about the digits of a natural is about a single digit, or about the digits of a
smaller one with one more behind them. -/
theorem decimal_induction {P : Nat → List Char → Prop}
    (hsingle : ∀ n < 10, P n [Nat.digitChar n])
    (hmore : ∀ n d, 0 < n → d < 10 → P n (decimal n) →
      P (n * 10 + d) (decimal n ++ [Nat.digitChar d])) (n : Nat) : P n (decimal n) := by
  induction n using Nat.strongRecOn with
  | ind n ih =>
    by_cases h : n < 10
    · rw [decimal, Nat.toDigits_of_lt_base h]
      exact hsingle n h
    · have hn : n / 10 * 10 + n % 10 = n := by omega
      have hmore := hmore (n / 10) (n % 10) (by omega) (by omega) (ih (n / 10) (by omega))
      rw [decimal, Nat.toDigits_of_base_le (by omega) (by omega)]
      rwa [hn] at hmore

theorem isDigit_digitChar {d : Nat} (h : d < 10) : isDigit (Nat.digitChar d) = true := by
  have hall : ∀ m : Fin 10, isDigit (Nat.digitChar m) = true := by decide
  exact hall ⟨d, h⟩

theorem digitValue_digitChar {d : Nat} (h : d < 10) : digitValue (Nat.digitChar d) = d := by
  have hall : ∀ m : Fin 10, digitValue (Nat.digitChar m) = m.val := by decide
  exact hall ⟨d, h⟩

theorem digitChar_ne_zero {d : Nat} (h : d < 10) (hd : 0 < d) : Nat.digitChar d ≠ '0' := by
  have hall : ∀ m : Fin 10, 0 < m.val → Nat.digitChar m ≠ '0' := by decide
  exact hall ⟨d, h⟩ hd

theorem isDigit_of_mem_decimal (n : Nat) : ∀ c ∈ decimal n, isDigit c = true := by
  refine decimal_induction (P := fun _ ds => ∀ c ∈ ds, isDigit c = true) ?_ ?_ n
  · intro n hn c hc
    rw [List.mem_singleton.1 hc]
    exact isDigit_digitChar hn
  · intro n d _ hd ih c hc
    rcases List.mem_append.1 hc with hc | hc
    · exact ih c hc
    · rw [List.mem_singleton.1 hc]
      exact isDigit_digitChar hd

/-- The digits begin with a zero only if it is the only one. -/
theorem decimal_eq_cons (n : Nat) : ∃ d ds, decimal n = d :: ds ∧ (d ≠ '0' ∨ ds = []) := by
  have h : 0 < n → ∃ d ds, decimal n = d :: ds ∧ d ≠ '0' := by
    refine decimal_induction (P := fun n cs => 0 < n → ∃ d ds, cs = d :: ds ∧ d ≠ '0') ?_ ?_ n
    · intro n hn hpos
      exact ⟨_, [], rfl, digitChar_ne_zero hn hpos⟩
    · intro n d hn _ ih _
      obtain ⟨e, es, he, hne⟩ := ih hn
      exact ⟨e, es ++ [Nat.digitChar d], by rw [he]; rfl, hne⟩
  rcases Nat.eq_zero_or_pos n with rfl | hn
  · exact ⟨'0', [], by simp [decimal], Or.inr rfl⟩
  · obtain ⟨d, ds, hds, hne⟩ := h hn
    exact ⟨d, ds, hds, Or.inl hne⟩

/-- The digits of a natural of at most 64 bits have its value. -/
theorem wholePart_decimal (negative : Bool) {n : Nat} (h : n < Significand.limit) :
    (⟨negative, (decimal n).reverse, none, none⟩ : Numeral).wholePart = ⟨n, 0, false⟩ := by
  have hfold : n < Significand.limit →
      (decimal n).foldl Significand.wholeDigit ⟨0, 0, false⟩ = ⟨n, 0, false⟩ := by
    refine decimal_induction (P := fun n ds => n < Significand.limit →
      ds.foldl Significand.wholeDigit ⟨0, 0, false⟩ = ⟨n, 0, false⟩) ?_ ?_ n
    · intro n hn hlimit
      have hnext : ¬ Significand.limit ≤ n := by omega
      simp [Significand.wholeDigit, digitValue_digitChar hn, hnext]
    · intro n d _ hd ih hlimit
      have hnext : ¬ Significand.limit ≤ n * 10 + d := by omega
      rw [List.foldl_append, ih (by omega)]
      simp [Significand.wholeDigit, digitValue_digitChar hd, hnext]
  unfold Numeral.wholePart
  rw [List.reverse_reverse]
  exact hfold h

theorem token_decimal {n : Nat} (h : n < Significand.limit) :
    (⟨false, (decimal n).reverse, none, none⟩ : Numeral).token = .number (.integer n) := by
  have hwhole := wholePart_decimal false h
  simp only [Numeral.token, Numeral.value, Numeral.significand, hwhole]
  rfl

theorem token_negative_decimal {n : Nat} (hpos : 0 < n) (h : n ≤ 9223372036854775808) :
    (⟨true, (decimal n).reverse, none, none⟩ : Numeral).token = .number (.integer (-n)) := by
  have hlimit : n < Significand.limit := by unfold Significand.limit; omega
  have hwhole := wholePart_decimal true hlimit
  have hzero : n ≠ 0 := by omega
  have hrange : ¬ 9223372036854775808 < n := by omega
  simp only [Numeral.token, Numeral.value, Numeral.significand, hwhole]
  simp [hzero, hrange]

/-- An integer of at most 64 bits: without a sign, or with a minus sign and the range of signed
integers. -/
def IsWord (n : Int) : Prop := -9223372036854775808 ≤ n ∧ n < 18446744073709551616

theorem decimal_ne_nil (n : Nat) : decimal n ≠ [] := by
  obtain ⟨d, ds, hchars, -⟩ := decimal_eq_cons n
  simp [hchars]

theorem decimal_noLeadingZero (n : Nat) : decimal n = ['0'] ∨ (decimal n).head? ≠ some '0' := by
  obtain ⟨d, ds, hchars, h⟩ := decimal_eq_cons n
  rw [hchars]
  by_cases hd : d = '0'
  · left
    rw [hd, h.resolve_left (not_not_intro hd)]
  · right
    simpa using hd

/-- The digits of an integer as a number of the grammar. -/
def Figure.ofInteger (n : Int) : Figure where
  negative := decide (n < 0)
  whole := ⟨decimal n.natAbs, decimal_ne_nil n.natAbs, isDigit_of_mem_decimal n.natAbs⟩
  noLeadingZero := decimal_noLeadingZero n.natAbs
  fraction := none
  exponent := none

theorem Figure.chars_ofInteger (n : Int) :
    (Figure.ofInteger n).chars = (Number.integer n).text.toList := by
  by_cases h : n < 0 <;>
    simp [Figure.ofInteger, chars, signChars, fractionChars, exponentChars, Number.text, h]

theorem Figure.token_ofInteger {n : Int} (h : IsWord n) :
    (Figure.ofInteger n).token = .number (.integer n) := by
  obtain ⟨hlow, hhigh⟩ := h
  show (⟨decide (n < 0), (decimal n.natAbs).reverse, none, none⟩ : Numeral).token = _
  by_cases hneg : n < 0
  · have hvalue : -(n.natAbs : Int) = n := by omega
    rw [decide_eq_true hneg, token_negative_decimal (by omega) (by omega), hvalue]
  · have hvalue : (n.natAbs : Int) = n := by omega
    rw [decide_eq_false hneg, token_decimal (by unfold Significand.limit; omega), hvalue]

/-- A number that is written as an integer of at most 64 bits has it as value. -/
theorem Figure.value_of_chars {n : Int} (h : IsWord n) (f : Figure)
    (hchars : f.chars = (Number.integer n).text.toList) : f.numeral.value = .ok (.integer n) := by
  have htoken : f.numeral.token = .number (.integer n) :=
    (token_congr (hchars.trans (chars_ofInteger n).symm)).trans (token_ofInteger h)
  unfold Numeral.token at htoken
  cases hvalue : f.numeral.value with
  | ok v =>
    rw [hvalue] at htoken
    exact congrArg Except.ok (Token.number.inj htoken)
  | error fault =>
    rw [hvalue] at htoken
    cases htoken

end CloudRoster.Json
