import CloudRoster.Json.Value
import CloudRoster.Text.Hex

/-!
# Writing JSON

The compact form has no insignificant space. The indented form puts every item on a line of its
own, two spaces deeper than the line that opens its container; empty containers stay closed.
Strings escape the quotation mark, the backslash and the control characters below the space, and
nothing else.

Each writer extends a text, so that a value of many megabytes is written in one pass.
-/

namespace CloudRoster.Json

/-- How a character is written inside a string. -/
def escaped (c : Char) : List Char :=
  if c = '"' then ['\\', '"']
  else if c = '\\' then ['\\', '\\']
  else if c.toNat < 0x20 then
    if c = '\n' then ['\\', 'n']
    else if c = '\r' then ['\\', 'r']
    else if c = '\t' then ['\\', 't']
    else if c = '\x08' then ['\\', 'b']
    else if c = '\x0c' then ['\\', 'f']
    else ['\\', 'u', '0', '0', Text.Hex.digit (c.toNat / 16), Text.Hex.digit (c.toNat % 16)]
  else [c]

/-- Extends a text by the written form of one character of a string. -/
def pushEscaped (out : String) (c : Char) : String :=
  if c = '"' || c = '\\' || c.toNat < 0x20 then (escaped c).foldl String.push out else out.push c

/-- Extends a text by a string between quotation marks. -/
def writeText (out s : String) : String :=
  (s.foldl pushEscaped (out.push '"')).push '"'

mutual

/-- Extends a text by the compact form of a value. -/
def write (out : String) : Json → String
  | .null => out ++ "null"
  | .boolean true => out ++ "true"
  | .boolean false => out ++ "false"
  | .number n => out ++ n.text
  | .text s => writeText out s
  | .list [] => out ++ "[]"
  | .list (item :: items) => (writeItems (write (out.push '[') item) items).push ']'
  | .map [] => out ++ "\x7b\x7d"
  | .map ((key, value) :: members) =>
    (writeMembers (write ((writeText (out.push '\x7b') key).push ':') value) members).push '\x7d'

/-- Extends a text by further items of an array. -/
def writeItems (out : String) : List Json → String
  | [] => out
  | item :: items => writeItems (write (out.push ',') item) items

/-- Extends a text by further members of an object. -/
def writeMembers (out : String) : List (String × Json) → String
  | [] => out
  | (key, value) :: members =>
    writeMembers (write ((writeText (out.push ',') key).push ':') value) members

end

/-- The compact form of a value. -/
def compact (v : Json) : String := write "" v

/-- Extends a text by a new line that is indented to a depth. -/
def newLine (out : String) (depth : Nat) : String :=
  (List.replicate (2 * depth) ' ').foldl String.push (out.push '\n')

mutual

/-- Extends a text by the indented form of a value that stands at a depth. -/
def writeIndented (depth : Nat) (out : String) : Json → String
  | .list (item :: items) =>
    let first := writeIndented (depth + 1) (newLine (out.push '[') (depth + 1)) item
    (newLine (writeIndentedItems (depth + 1) first items) depth).push ']'
  | .map ((key, value) :: members) =>
    let opened := writeText (newLine (out.push '\x7b') (depth + 1)) key
    let first := writeIndented (depth + 1) (opened ++ ": ") value
    (newLine (writeIndentedMembers (depth + 1) first members) depth).push '\x7d'
  | .null => out ++ "null"
  | .boolean true => out ++ "true"
  | .boolean false => out ++ "false"
  | .number n => out ++ n.text
  | .text s => writeText out s
  | .list [] => out ++ "[]"
  | .map [] => out ++ "\x7b\x7d"

/-- Extends a text by further items of an indented array. -/
def writeIndentedItems (depth : Nat) (out : String) : List Json → String
  | [] => out
  | item :: items =>
    writeIndentedItems depth (writeIndented depth (newLine (out.push ',') depth) item) items

/-- Extends a text by further members of an indented object. -/
def writeIndentedMembers (depth : Nat) (out : String) : List (String × Json) → String
  | [] => out
  | (key, value) :: members =>
    let opened := writeText (newLine (out.push ',') depth) key
    writeIndentedMembers depth (writeIndented depth (opened ++ ": ") value) members

end

/-- The indented form of a value. -/
def indented (v : Json) : String := writeIndented 0 "" v

end CloudRoster.Json
