/-!
# Readers

A reader takes something off the front of a text and gives the rest, or refuses the text. This
module holds the readers of blanks, line ends and comments, and the ways to put readers together.
-/

namespace CloudRoster.Toml

/-- Takes a value off the front of a text. -/
abbrev Reader (α : Type) := List Char → Option (α × List Char)

namespace Reader

/-- Reads one thing after another as long as the reader takes something off the text. -/
def many {α : Type} (read : Reader α) (cs : List Char) : List α × List Char :=
  match read cs with
  | none => ([], cs)
  | some (a, rest) =>
    if rest.length < cs.length then
      let (as, rest) := many read rest
      (a :: as, rest)
    else ([a], rest)
termination_by cs.length

/-- Reads things with a separator between them, as many as there are. A separator that nothing
follows is left. -/
def separated {α : Type} (separator : Char) (read : Reader α) (cs : List Char) :
    List α × List Char :=
  match read cs with
  | none => ([], cs)
  | some (a, rest) =>
    let (as, rest) := many (fun
      | [] => none
      | c :: cs => if c = separator then read cs else none) rest
    (a :: as, rest)

/-- Takes a text off the front. -/
def word : List Char → List Char → Option (List Char)
  | [], cs => some cs
  | _ :: _, [] => none
  | w :: ws, c :: cs => if w = c then word ws cs else none

/-- Tries two readers in turn. -/
def orElse {α : Type} (first second : Reader α) : Reader α := fun cs => first cs <|> second cs

end Reader

/-! ## Characters -/

/-- Blanks within a line. -/
def isBlank (c : Char) : Bool := c = ' ' || c = '\t'

/-- Characters that may stand in a comment; those of texts are among them. -/
def isPlain (c : Char) : Bool := c = '\t' || (' ' ≤ c && c ≠ '\x7f')

/-- Characters that may stand in a key without quotes. -/
def isBare (c : Char) : Bool := c.isAlphanum || c = '-' || c = '_'

/-! ## Blanks, line ends and comments -/

/-- The text without the blanks at its front. -/
def skipBlanks (cs : List Char) : List Char := cs.dropWhile isBlank

/-- Takes the end of a line off the front. -/
def lineEnd : List Char → Option (List Char)
  | '\n' :: cs => some cs
  | '\r' :: '\n' :: cs => some cs
  | _ => none

/-- The text without the comment at its front. -/
def skipComment : List Char → List Char
  | '#' :: cs => cs.dropWhile isPlain
  | cs => cs

/-- Takes the end of a line, or of the text, with the blanks and the comment before it. -/
def finishLine (cs : List Char) : Option (List Char) :=
  match skipComment (skipBlanks cs) with
  | [] => some []
  | cs => lineEnd cs

/-- Takes blanks, a comment or the end of a line off the front. -/
def gap : Reader Unit
  | '\n' :: cs | '\r' :: '\n' :: cs | ' ' :: cs | '\t' :: cs => some ((), cs)
  | '#' :: cs => some ((), cs.dropWhile isPlain)
  | _ => none

/-- The text without the blanks, comments and line ends at its front. -/
def skipGaps (cs : List Char) : List Char := (Reader.many gap cs).2

end CloudRoster.Toml
