import CloudRoster.Text.Hex

/-!
# Texts on a terminal

A terminal takes some characters as commands: the escape character begins one, and a few controls
are commands of their own. A text of foreign origin is made harmless either by showing the
characters that can begin a command by number (`escaped`), or by leaving commands out (`stripped`).
-/

namespace CloudRoster.Text.Terminal

/-! ## Showing -/

/-- How a character is shown: those that can begin a command are shown by number. -/
def escapedChar (c : Char) : List Char :=
  let n := c.toNat
  if [0x07, 0x08, 0x0C, 0x1B, 0x7F].contains n then
    ['\\', 'x', Hex.digit (n / 16), Hex.digit (n % 16)]
  else if 0x80 ≤ n ∧ n ≤ 0x9F then ['\\', 'u', '\x7b'] ++ Nat.toDigits 16 n ++ ['\x7d']
  else [c]

/-- The text with commands shown by number. -/
def escaped (s : String) : String := String.ofList (s.toList.flatMap escapedChar)

/-! ## Leaving out -/

/-- Where a terminal stands in a command. -/
inductive Mode where
  /-- Outside any command. -/
  | plain
  /-- Behind the escape character. -/
  | escape
  /-- Behind the escape character and signs that ask for one more. -/
  | escapeMore
  /-- In a control sequence, which ends with a letter. -/
  | sequence
  /-- In a command that holds a text; `bell` tells whether the bell ends it. -/
  | string (bell : Bool)
  deriving Repr, DecidableEq

/-- Whether a character is a control that belongs to running text. -/
def isSpacing (c : Char) : Bool := c = '\t' || c = '\n' || c = '\x0c' || c = '\r'

/-- Where a sign behind the escape character leads. -/
def modeOfSign (c : Char) : Mode :=
  if c = '[' then .sequence
  else if c = ']' then .string true
  else if ['P', 'X', '^', '_'].contains c then .string false
  else if c < '0' then .escapeMore
  else .plain

/-- Where a character leads, and whether it is shown. -/
def step (m : Mode) (c : Char) : Mode × Bool :=
  if c = '\x1b' then (.escape, false)
  else if c = '\x18' || c = '\x1a' then (.plain, false)
  else
    let isSign := ' ' ≤ c && c < '\x7f'
    match m with
    | .plain => (.plain, isSpacing c || (' ' ≤ c && c ≠ '\x7f'))
    | .string bell => (if bell && c = '\x07' then .plain else m, false)
    | .escape => if isSpacing c then (.plain, true) else (if isSign then modeOfSign c else m, false)
    | .escapeMore =>
      if isSpacing c then (.plain, true) else (if isSign && '0' ≤ c then .plain else m, false)
    | .sequence =>
      if isSpacing c then (.plain, true) else (if isSign && '@' ≤ c then .plain else m, false)

/-- The characters that are shown of a text from a place in a command on. -/
def shownFrom (m : Mode) : List Char → List Char
  | [] => []
  | c :: cs =>
    let (next, shown) := step m c
    if shown then c :: shownFrom next cs else shownFrom next cs

/-- The text without commands. -/
def stripped (s : String) : String := String.ofList (shownFrom .plain s.toList)

end CloudRoster.Text.Terminal
