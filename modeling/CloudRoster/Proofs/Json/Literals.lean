import CloudRoster.Json.Printer
import CloudRoster.Json.Token

/-!
# Blanks and strings as they are scanned

Between tokens stand blanks, which the scanner passes over. It is said to *rest* on tokens: either
they are all found, or the last one is a number, which only the unit behind it completes.

A string can be spelled in many ways: its characters stand for themselves or are escaped, and the
digits of a numeric escape have either case. A spelling carries the proof that the grammar admits
it, so every spelling is scanned as one token. What it says is defined by its characters and code
units alone (`textOf?`), and the scanner is shown to agree with that.
-/

namespace CloudRoster.Json

namespace Scanner

/-- The scanner behind further characters. -/
def scan (s : Scanner) (cs : List Char) : Scanner := cs.foldl (fun s c => step s (some c)) s

@[simp] theorem scan_nil (s : Scanner) : s.scan [] = s := rfl

@[simp] theorem scan_cons (s : Scanner) (c : Char) (cs : List Char) :
    s.scan (c :: cs) = (s.step (some c)).scan cs := rfl

theorem scan_append (s : Scanner) (cs ds : List Char) :
    s.scan (cs ++ ds) = (s.scan cs).scan ds := List.foldl_append

/-- The places of a number behind which nothing is missing. -/
inductive Ends : NumeralPart → Prop
  | whole : Ends .whole
  | fraction : Ends .fraction
  | exponent : Ends .exponent

/-- The tokens that a scanner has found, the last one first, with a number that is only to be
completed. -/
inductive Rests : Scanner → List Token → Prop
  | idle (ts : List Token) : Rests ⟨.idle, ts⟩ ts
  | numeral (n : Numeral) {part : NumeralPart} (hends : Ends part) (ts : List Token) :
    Rests ⟨.numeral n part, ts⟩ (n.token :: ts)

/-- What stands behind a value in a container: a comma, or the bracket that closes it. -/
def IsDelimiter (c : Char) : Prop := c = ',' ∨ c = ']' ∨ c = '\x7d'

/-- A delimiter completes a number, and is then taken like one between two tokens. -/
theorem Rests.step_delimiter {s : Scanner} {ts : List Token} (h : Rests s ts) {c : Char}
    (hc : IsDelimiter c) : s.step (some c) = begin ts (some c) := by
  cases h with
  | idle => rfl
  | numeral n hends ts => cases hends <;> rcases hc with rfl | rfl | rfl <;> rfl

theorem Rests.finish {s : Scanner} {ts : List Token} (h : Rests s ts) : s.finish = ts.reverse := by
  cases h with
  | idle => rfl
  | numeral n hends ts => cases hends <;> rfl

/-- A scanner rests on one sequence of tokens only. -/
theorem Rests.unique {s : Scanner} {ts us : List Token} (h : Rests s ts) (h' : Rests s us) :
    ts = us := by
  cases h with
  | idle => cases h'; rfl
  | numeral n hends ts => cases h'; rfl

end Scanner

open Scanner

/-! ## Blanks -/

/-- A character that may stand between two tokens. -/
inductive Blank where
  | space
  | tab
  | lineFeed
  | carriageReturn
  deriving Repr, DecidableEq

/-- The character. -/
def Blank.char : Blank → Char
  | space => ' '
  | tab => '\t'
  | lineFeed => '\n'
  | carriageReturn => '\r'

/-- What may stand between two tokens. -/
abbrev Blanks := List Blank

/-- The characters. -/
def Blanks.chars (bs : Blanks) : List Char := bs.map Blank.char

@[simp] theorem Blanks.chars_nil : Blanks.chars [] = [] := rfl

/-- A blank completes a number and is passed over. -/
theorem Scanner.Rests.step_blank {s : Scanner} {ts : List Token} (h : Rests s ts) (b : Blank) :
    s.step (some b.char) = ⟨.idle, ts⟩ := by
  cases h with
  | idle => cases b <;> rfl
  | numeral n hends ts => cases hends <;> cases b <;> rfl

theorem scan_blanks (ts : List Token) (bs : Blanks) :
    (⟨.idle, ts⟩ : Scanner).scan bs.chars = ⟨.idle, ts⟩ := by
  induction bs with
  | nil => rfl
  | cons b bs ih =>
    show ((⟨.idle, ts⟩ : Scanner).step (some b.char)).scan (Blanks.chars bs) = _
    rw [(Rests.idle ts).step_blank, ih]

theorem Scanner.Rests.scan_blanks {s : Scanner} {ts : List Token} (h : Rests s ts) (bs : Blanks) :
    Rests (s.scan bs.chars) ts := by
  cases bs with
  | nil => exact h
  | cons b bs =>
    show Rests ((s.step (some b.char)).scan (Blanks.chars bs)) ts
    rw [h.step_blank, Json.scan_blanks]
    exact .idle ts

/-! ## Strings -/

/-- The escapes by a letter or a sign. -/
inductive Escape where
  | quote
  | backslash
  | slash
  | backspace
  | formFeed
  | lineFeed
  | carriageReturn
  | tab
  deriving Repr, DecidableEq

namespace Escape

/-- What stands behind the backslash. -/
def letter : Escape → Char
  | quote => '"'
  | backslash => '\\'
  | slash => '/'
  | backspace => 'b'
  | formFeed => 'f'
  | lineFeed => 'n'
  | carriageReturn => 'r'
  | tab => 't'

/-- The character that an escape stands for. -/
def char : Escape → Char
  | quote => '"'
  | backslash => '\\'
  | slash => '/'
  | backspace => '\x08'
  | formFeed => '\x0c'
  | lineFeed => '\n'
  | carriageReturn => '\r'
  | tab => '\t'

end Escape

/-- A digit of a numeric escape, in either case. -/
structure HexDigit where
  value : Fin 16
  capital : Bool
  deriving Repr, DecidableEq

namespace HexDigit

/-- The character of a digit. -/
def char (d : HexDigit) : Char :=
  if d.capital then (Text.Hex.digit d.value).toUpper else Text.Hex.digit d.value

theorem value?_char (d : HexDigit) : Text.Hex.value? d.char = some d.value.val := by
  have hall : ∀ (value : Fin 16) (capital : Bool),
      Text.Hex.value? (char ⟨value, capital⟩) = some value.val := by decide
  exact hall d.value d.capital

theorem utf8Size_char (d : HexDigit) : d.char.utf8Size = 1 := by
  have hall : ∀ (value : Fin 16) (capital : Bool), (char ⟨value, capital⟩).utf8Size = 1 := by decide
  exact hall d.value d.capital

end HexDigit

/-- A piece of a string. -/
inductive Piece where
  /-- A character that stands for itself. -/
  | plain (c : Char) (hquote : c ≠ '"') (hbackslash : c ≠ '\\') (hprintable : ¬ c.toNat < 0x20)
  | escape (e : Escape)
  /-- A numeric escape of four digits. -/
  | unit (a b c d : HexDigit)
  deriving Repr, DecidableEq

/-- What a piece of a string says: a character, or a code unit of UTF-16. -/
inductive Meaning where
  | char (c : Char)
  | unit (n : Nat)

namespace Piece

/-- The characters of a piece. -/
def chars : Piece → List Char
  | plain c _ _ _ => [c]
  | escape e => ['\\', e.letter]
  | unit a b c d => ['\\', 'u', a.char, b.char, c.char, d.char]

/-- What a piece says. -/
def meaning : Piece → Meaning
  | plain c _ _ _ => .char c
  | escape e => .char e.char
  | unit a b c d =>
    .unit (((a.value.val * 16 + b.value.val) * 16 + c.value.val) * 16 + d.value.val)

end Piece

/-- Whether a code unit is the first one of a pair. -/
def IsLeading (n : Nat) : Prop := 0xD800 ≤ n ∧ n ≤ 0xDBFF

/-- Whether a code unit is the second one of a pair. -/
def IsTrailing (n : Nat) : Prop := 0xDC00 ≤ n ∧ n ≤ 0xDFFF

/-- The check of a first unit. -/
instance instDecidableIsLeading (n : Nat) : Decidable (IsLeading n) :=
  inferInstanceAs (Decidable (_ ∧ _))

/-- The check of a second unit. -/
instance instDecidableIsTrailing (n : Nat) : Decidable (IsTrailing n) :=
  inferInstanceAs (Decidable (_ ∧ _))

/-- The characters that a sequence of characters and code units says. The units of a pair stand
together; with one of them alone it says nothing. -/
def charsOf? : List Meaning → Option (List Char)
  | [] => some []
  | .char c :: ms => (charsOf? ms).map (c :: ·)
  | .unit n :: .unit m :: ms =>
    if IsLeading n then
      if IsTrailing m then
        (charsOf? ms).map (Char.ofNat (0x10000 + (n - 0xD800) * 0x400 + (m - 0xDC00)) :: ·)
      else none
    else if IsTrailing n then none
    else (charsOf? (.unit m :: ms)).map (Char.ofNat n :: ·)
  | .unit n :: ms =>
    if IsLeading n ∨ IsTrailing n then none else (charsOf? ms).map (Char.ofNat n :: ·)

/-- The text that the pieces of a string say, if they say one. -/
def textOf? (ps : List Piece) : Option String := (charsOf? (ps.map Piece.meaning)).map String.ofList

/-- A string between its quotation marks. -/
def stringChars (ps : List Piece) : List Char := '"' :: (ps.flatMap Piece.chars ++ ['"'])

namespace Quotation

/-- Takes what a piece of a string says. -/
def take (q : Quotation) : Meaning → Quotation
  | .char c => q.settle.push c
  | .unit n => q.pushCode n

/-- A text of which some characters have been read, without any fault. -/
def sound (chars : List Char) : Quotation := ⟨chars, false, none, none⟩

theorem take_char (read : List Char) (c : Char) : (sound read).take (.char c) = sound (c :: read) :=
  rfl

theorem take_unit {n : Nat} (hleading : ¬ IsLeading n) (htrailing : ¬ IsTrailing n)
    (read : List Char) : (sound read).take (.unit n) = sound (Char.ofNat n :: read) := by
  unfold IsLeading at hleading
  unfold IsTrailing at htrailing
  simp [take, pushCode, sound, hleading, htrailing, push]

theorem take_leading {n : Nat} (h : IsLeading n) (read : List Char) :
    (sound read).take (.unit n) = { sound read with leading := some n } := by
  have hnot : ¬ IsTrailing n := by
    unfold IsTrailing IsLeading at *
    omega
  unfold IsLeading at h
  unfold IsTrailing at hnot
  simp [take, pushCode, sound, h, hnot]

theorem take_pair {n m : Nat} (hleading : IsLeading n) (htrailing : IsTrailing m)
    (read : List Char) : ((sound read).take (.unit n)).take (.unit m) =
      sound (Char.ofNat (0x10000 + (n - 0xD800) * 0x400 + (m - 0xDC00)) :: read) := by
  rw [take_leading hleading]
  unfold IsTrailing at htrailing
  simp [take, pushCode, sound, htrailing, push]

/-- A string that says a text is read without any fault. -/
theorem foldl_take {ms : List Meaning} {cs : List Char} (h : charsOf? ms = some cs)
    (before : List Char) : ms.foldl take (sound before) = sound (cs.reverse ++ before) := by
  fun_induction charsOf? ms generalizing cs before with
  | case1 =>
    cases h
    rfl
  | case2 c ms ih =>
    obtain ⟨ds, hds, rfl⟩ := Option.map_eq_some_iff.1 h
    rw [List.foldl_cons, take_char, ih hds]
    simp
  | case3 n m ms hleading htrailing ih =>
    obtain ⟨ds, hds, rfl⟩ := Option.map_eq_some_iff.1 h
    rw [List.foldl_cons, List.foldl_cons, take_pair hleading htrailing, ih hds]
    simp
  | case4 => cases h
  | case5 => cases h
  | case6 n m ms hleading htrailing ih =>
    obtain ⟨ds, hds, rfl⟩ := Option.map_eq_some_iff.1 h
    rw [List.foldl_cons, take_unit hleading htrailing, ih hds]
    simp
  | case7 => cases h
  | case8 n ms _ hneither ih =>
    obtain ⟨ds, hds, rfl⟩ := Option.map_eq_some_iff.1 h
    rw [List.foldl_cons, take_unit (fun hl => hneither (.inl hl)) (fun ht => hneither (.inr ht)),
      ih hds]
    simp

/-- The text of a complete string, or why it is none. -/
def outcome (q : Quotation) : Except Fault String :=
  match q.settle.fault with
  | some f => .error f
  | none =>
    if q.settle.stray then .error .invalidCodePoint
    else .ok (String.ofList q.settle.chars.reverse)

theorem fault_take_trailing {n : Nat} (h : IsTrailing n) (read : List Char) :
    ((sound read).take (.unit n)).fault = some .loneSurrogate := by
  unfold IsTrailing at h
  simp [take, pushCode, sound, h, note]

theorem fault_settle {q : Quotation} {f : Fault} (h : q.fault = some f) :
    q.settle.fault = some f := by
  unfold settle
  split <;> simp [note, h]

/-- The first fault of a string stays. -/
theorem fault_take {q : Quotation} {f : Fault} (h : q.fault = some f) (m : Meaning) :
    (q.take m).fault = some f := by
  cases m with
  | char c => exact fault_settle h
  | unit n =>
    show (q.pushCode n).fault = some f
    unfold pushCode
    repeat' split
    all_goals simp [note, push, h]

theorem fault_foldl_take {f : Fault} (ms : List Meaning) : {q : Quotation} → q.fault = some f →
    (ms.foldl take q).fault = some f := by
  induction ms with
  | nil => exact id
  | cons m ms ih => exact fun h => ih (fault_take h m)

theorem outcome_of_fault {q : Quotation} {f : Fault} (h : q.fault = some f) :
    q.outcome = .error f := by
  unfold outcome
  rw [fault_settle h]

/-- A string that says no text is not read. -/
theorem outcome_foldl_take {ms : List Meaning} (h : charsOf? ms = none) (before : List Char) :
    ∃ f, (ms.foldl take (sound before)).outcome = .error f := by
  fun_induction charsOf? ms generalizing before with
  | case1 => cases h
  | case2 c ms ih => exact ih (Option.map_eq_none_iff.1 h) (c :: before)
  | case3 n m ms hleading htrailing ih =>
    rw [List.foldl_cons, List.foldl_cons, take_pair hleading htrailing]
    exact ih (Option.map_eq_none_iff.1 h) _
  | case4 n m ms hleading htrailing =>
    refine ⟨.loneSurrogate, outcome_of_fault (fault_foldl_take ms ?_)⟩
    rw [take_leading hleading]
    unfold IsTrailing at htrailing
    simp [take, pushCode, sound, note, htrailing]
  | case5 n m ms _ htrailing =>
    exact ⟨_, outcome_of_fault (fault_foldl_take (.unit m :: ms) (fault_take_trailing htrailing _))⟩
  | case6 n m ms hleading htrailing ih =>
    rw [List.foldl_cons, take_unit hleading htrailing]
    exact ih (Option.map_eq_none_iff.1 h) _
  | case7 n ms hlast hlone =>
    rcases hlone with hleading | htrailing
    · -- what follows the first unit of a pair is no unit, and settles it
      rw [List.foldl_cons, take_leading hleading]
      cases ms with
      | nil => exact ⟨_, rfl⟩
      | cons m ms =>
        cases m with
        | char c => exact ⟨_, outcome_of_fault (fault_foldl_take ms rfl)⟩
        | unit m => exact (hlast m ms rfl).elim
    · exact ⟨_, outcome_of_fault (fault_foldl_take ms (fault_take_trailing htrailing _))⟩
  | case8 n ms _ hneither ih =>
    rw [List.foldl_cons, take_unit (fun hl => hneither (.inl hl)) (fun ht => hneither (.inr ht))]
    exact ih (Option.map_eq_none_iff.1 h) _

end Quotation

/-- The token of a string of which this has come. -/
def Token.ofText : Except Fault String → Token
  | .ok s => .text s
  | .error f => .unreadable .text f

theorem Quotation.token_eq (q : Quotation) : q.token = .ofText q.outcome := by
  unfold token outcome
  generalize q.settle = settled
  obtain ⟨chars, stray, fault, leading⟩ := settled
  cases fault with
  | some f => rfl
  | none => cases stray <;> rfl

/-- What comes of a string. -/
def stringOutcome (ps : List Piece) : Except Fault String :=
  ((ps.map Piece.meaning).foldl Quotation.take .empty).outcome

/-- Of a string that says a text comes that text. -/
theorem stringOutcome_of_textOf? {ps : List Piece} {s : String} (h : textOf? ps = some s) :
    stringOutcome ps = .ok s := by
  obtain ⟨cs, hchars, rfl⟩ := Option.map_eq_some_iff.1 h
  have hempty : Quotation.empty = .sound [] := rfl
  unfold stringOutcome
  rw [hempty, Quotation.foldl_take hchars]
  show Except.ok (String.ofList (cs.reverse ++ []).reverse) = _
  simp

/-- Of a string comes the text that it says, if it says one. -/
theorem stringOutcome_eq_ok {ps : List Piece} {s : String} :
    stringOutcome ps = .ok s ↔ textOf? ps = some s := by
  refine ⟨fun h => ?_, stringOutcome_of_textOf?⟩
  cases htext : textOf? ps with
  | some t =>
    rw [stringOutcome_of_textOf? htext] at h
    exact congrArg some (Except.ok.inj h)
  | none =>
    obtain ⟨f, hf⟩ := Quotation.outcome_foldl_take (Option.map_eq_none_iff.1 htext) []
    have hfault : stringOutcome ps = .error f := hf
    rw [hfault] at h
    cases h

/-- A digit of a numeric escape counts for one byte and four bits. -/
theorem inCode_digit (d : HexDigit) (ts : List Token) (q : Quotation) (bytes v : Nat) :
    inCode ts q bytes (some v) (some d.char) =
      if bytes + 1 < 4 then ⟨.code q (bytes + 1) (some (v * 16 + d.value.val)), ts⟩
      else ⟨.quotation (q.pushCode (v * 16 + d.value.val)), ts⟩ := by
  have hbytes : (Option.map Char.utf8Size (some d.char)).getD 1 = 1 := d.utf8Size_char
  unfold inCode
  rw [hbytes]
  simp only [Option.bind_eq_bind, Option.bind_some, d.value?_char]
  rfl

/-- A piece of a string is read as what it says. -/
theorem scan_piece (q : Quotation) (ts : List Token) (p : Piece) :
    (⟨.quotation q, ts⟩ : Scanner).scan p.chars = ⟨.quotation (q.take p.meaning), ts⟩ := by
  cases p with
  | plain c hquote hbackslash hprintable =>
    show inQuotation ts q (some c) = _
    simp only [inQuotation, if_neg hquote, if_neg hbackslash, if_neg hprintable]
    rfl
  | escape e => cases e <;> rfl
  | unit a b c d =>
    show step (step (step (inCode ts q 0 (some 0) (some a.char)) (some b.char)) (some c.char))
      (some d.char) = _
    rw [inCode_digit]
    show step (step (inCode ts q 1 (some (0 * 16 + a.value.val)) (some b.char)) (some c.char))
      (some d.char) = _
    rw [inCode_digit]
    show step (inCode ts q 2 _ (some c.char)) (some d.char) = _
    rw [inCode_digit]
    show inCode ts q 3 _ (some d.char) = _
    rw [inCode_digit, Nat.zero_mul, Nat.zero_add]
    rfl

/-- A string is one token. -/
theorem scan_string (ps : List Piece) (ts : List Token) :
    (⟨.idle, ts⟩ : Scanner).scan (stringChars ps) =
      ⟨.idle, .ofText (stringOutcome ps) :: ts⟩ := by
  have hfold : ∀ (ps : List Piece) (q : Quotation),
      (⟨.quotation q, ts⟩ : Scanner).scan (ps.flatMap Piece.chars) =
        ⟨.quotation ((ps.map Piece.meaning).foldl Quotation.take q), ts⟩ := by
    intro ps
    induction ps with
    | nil => intro q; rfl
    | cons p ps ih => intro q; simp [scan_append, scan_piece, ih]
  have hopen : (⟨.idle, ts⟩ : Scanner).step (some '"') = ⟨.quotation .empty, ts⟩ := rfl
  unfold stringChars
  rw [scan_cons, hopen, scan_append, hfold]
  show (⟨.idle, Quotation.token _ :: ts⟩ : Scanner) = _
  rw [Quotation.token_eq]
  rfl

end CloudRoster.Json
