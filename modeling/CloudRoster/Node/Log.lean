import CloudRoster.Text.AsciiCase
import CloudRoster.Text.Terminal

/-!
# Log lines

What a node says of its course, how serious it is, and which part says it. A filter decides which
lines are shown: either all up to a severity, or by directives, of which the most particular one
counts that is about a line: the one for the longest beginning of the part's name, then one that
asks for a field, and of equal ones the last.
-/

namespace CloudRoster

/-- How serious a line is. -/
inductive Severity where
  | error
  | warn
  | info
  | debug
  | trace
  deriving Repr, DecidableEq

namespace Severity

/-- The rank of a severity, the most serious first. -/
def rank : Severity → Nat
  | error => 1
  | warn => 2
  | info => 3
  | debug => 4
  | trace => 5

/-- The written name of a severity. -/
def name : Severity → String
  | error => "ERROR"
  | warn => "WARN"
  | info => "INFO"
  | debug => "DEBUG"
  | trace => "TRACE"

end Severity

/-- A line of the log. -/
structure LogLine where
  severity : Severity
  /-- The part of the program that says it. -/
  part : String
  text : String
  deriving Repr, DecidableEq

namespace LogLine

/-- The line as it is shown, without its time. A text with line breaks takes several lines; a
carriage return may belong to a break. -/
def shown (l : LogLine) : List String :=
  ((l.severity.name ++ " " ++ Text.Terminal.escaped l.text).replace "\r\n" "\n").splitOn "\n"

end LogLine

/-! ## Directives -/

/-- What is shown of some lines. -/
structure Directive where
  /-- How the names of the parts begin; without it all parts are meant. -/
  part : Option String
  /-- The name of the span in which the lines stand, if they must. -/
  span : Option String
  /-- The field that the lines must have, perhaps with its value. -/
  field : Option String
  /-- The greatest rank that is shown. -/
  rank : Nat
  deriving Repr, DecidableEq

/-- Why a text is no directive. -/
inductive DirectiveError where
  | malformed
  | unknownLevel
  deriving Repr, DecidableEq

namespace DirectiveError

/-- The wording of an error. -/
def message : DirectiveError → String
  | malformed => "invalid filter directive"
  | unknownLevel => "error parsing level filter: expected one of \"off\", \"error\", \"warn\", " ++
    "\"info\", \"debug\", \"trace\", or a number 0-5"

end DirectiveError

namespace Directive

/-- The rank that stands for a level when none is given. -/
def greatestRank : Nat := Severity.trace.rank

/-- The number of a level: digits with a plus sign or without. -/
def rankOfNumber? (word : String) : Option Nat :=
  let digits := match word.toList with
    | '+' :: ds => ds
    | ds => ds
  if digits.isEmpty || !digits.all Char.isDigit then none
  else
    let n := digits.foldl (fun n c => 10 * n + (c.toNat - '0'.toNat)) 0
    if n ≤ greatestRank then some n else none

/-- The rank of a level of severity; zero shows nothing. -/
def rankOf? (word : String) : Option Nat :=
  rankOfNumber? word <|>
    [("off", 0), ("error", 1), ("warn", 2), ("info", 3), ("debug", 4), ("trace", 5)].lookup
      (Text.asciiLower word)

/-- What has been read of a directive; the piece in work has its last character first. -/
inductive Reading where
  | start
  /-- A level or the beginning of a part's name. -/
  | word (piece : List Char)
  | span (piece : List Char)
  | field (piece : List Char)
  | afterField
  | afterSpan
  | level (piece : List Char)
  deriving Repr, DecidableEq

/-- A piece as a text. -/
def pieceText (piece : List Char) : String := String.ofList piece.reverse

/-- Whether a directive without brackets can begin with a character. -/
def isFirst (c : Char) : Bool := c.isAlphanum || ['-', ':', '_'].contains c || 0x80 ≤ c.toNat

/-- Reads a character; `kept` is what goes into the piece in work. -/
def step : Directive × Reading → Char × Char → Except DirectiveError (Directive × Reading)
  | (d, .start), (c, kept) =>
    if c = '[' then .ok (d, .span [])
    else if isFirst c then .ok (d, .word [kept])
    else .error .malformed
  | (d, .word piece), (c, kept) =>
    if c = '=' then .ok ({ d with part := some (pieceText piece) }, .level [])
    else if c = '[' then .ok ({ d with part := some (pieceText piece) }, .span [])
    else .ok (d, .word (kept :: piece))
  | (d, .span piece), (c, kept) =>
    if c = ']' then .ok ({ d with span := some (pieceText piece) }, .afterSpan)
    else if c = '\x7b' then
      .ok ({ d with span := if piece.isEmpty then none else some (pieceText piece) }, .field [])
    else .ok (d, .span (kept :: piece))
  | (d, .field piece), (c, kept) =>
    if c ≠ '\x7d' then .ok (d, .field (kept :: piece))
    else if piece.isEmpty then .error .malformed
    else .ok ({ d with field := some (pieceText piece) }, .afterField)
  | (d, .afterField), (c, _) => if c = ']' then .ok (d, .afterSpan) else .error .malformed
  | (d, .afterSpan), (c, _) => if c = '=' then .ok (d, .level []) else .error .malformed
  | (d, .level piece), (_, kept) => .ok (d, .level (kept :: piece))

/-- The directive once its text ends; `rest` still belongs to the last piece. -/
def finish (rest : List Char) : Directive × Reading → Except DirectiveError Directive
  | (d, .word piece) =>
    let word := pieceText piece ++ String.ofList rest
    match rankOf? word with
    | some rank => .ok { d with rank := rank }
    | none => .ok { d with part := some word }
  | (d, .level piece) =>
    match pieceText piece ++ String.ofList rest with
    | "" => .ok d
    | word =>
      match rankOf? word with
      | some rank => .ok { d with rank := rank }
      | none => .error .unknownLevel
  | (d, .afterSpan) => .ok d
  | _ => .error .malformed

/-- Whether a character is a blank of any script. -/
def isBlank (c : Char) : Bool :=
  let n := c.toNat
  (0x09 ≤ n && n ≤ 0x0D) || (0x2000 ≤ n && n ≤ 0x200A) ||
    [0x20, 0x85, 0xA0, 0x1680, 0x2028, 0x2029, 0x202F, 0x205F, 0x3000].contains n

/-- The directive that a text describes. The signs are looked for between the blanks at its ends,
but the pieces are counted off from its very beginning, so one with blanks around a word is about
parts of which none has such a name. -/
def ofText (s : String) : Except DirectiveError Directive := do
  let cs := s.toList
  let signs := ((cs.dropWhile isBlank).reverse.dropWhile isBlank).reverse
  let read ← (signs.zip cs).foldlM step (⟨none, none, none, greatestRank⟩, .start)
  finish (cs.drop signs.length) read

/-- Whether a directive can be about lines that stand in no span: it names none, and asks for no
value of a field. -/
def isStatic (d : Directive) : Bool := d.span.isNone && d.field.all (!·.toList.contains '=')

/-- Whether a directive is about the lines of a part. The only field of a line is its message. -/
def concerns (d : Directive) (part : String) : Bool :=
  d.isStatic && d.part.all (·.toList.isPrefixOf part.toList) && d.field.all (· = "message")

/-- How particular a directive is: a longer name goes before a field. -/
def weight (d : Directive) : Nat :=
  2 * d.part.elim 0 (·.length + 1) + if d.field.isSome then 1 else 0

end Directive

/-! ## Filters -/

/-- Which lines are shown. -/
inductive LogFilter where
  /-- Those up to a rank. -/
  | upTo (rank : Nat)
  | byPart (directives : List Directive)
  deriving Repr, DecidableEq

namespace LogFilter

/-- The texts between the commas of a setting. -/
def textsOf (s : String) : List String := (s.splitOn ",").filter (· ≠ "")

/-- The filter that a list of directives with commas describes. Without any, errors are shown. -/
def ofText (s : String) : LogFilter :=
  match (textsOf s).filterMap fun t => (Directive.ofText t).toOption with
  | [] => upTo Severity.error.rank
  | ds => byPart ds

/-- What is said of the texts that are no directives. -/
def complaintsOf (s : String) : List String := (textsOf s).filterMap fun t =>
  match Directive.ofText t with
  | .ok _ => none
  | .error e => some ("ignoring `" ++ t ++ "`: " ++ e.message)

/-- The rank up to which lines of a part are shown. -/
def rankFor (part : String) : LogFilter → Nat
  | upTo rank => rank
  | byPart ds =>
    (ds.foldl (fun (best : Option Directive) d =>
      if d.concerns part && best.all (·.weight ≤ d.weight) then some d else best)
      none).elim 0 (·.rank)

/-- Whether a line is shown. -/
def shows (f : LogFilter) (l : LogLine) : Bool := decide (l.severity.rank ≤ f.rankFor l.part)

end LogFilter

end CloudRoster
