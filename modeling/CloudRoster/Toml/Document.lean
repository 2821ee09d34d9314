import CloudRoster.Toml.Scalar
import CloudRoster.Toml.Table

/-!
# Configuration texts

A configuration text is a row of lines: blank ones, members of the open table, and headers that open
a table. Lists and tables within values nest to a bounded depth, and so do dotted keys.
-/

namespace CloudRoster.Toml

/-- Lists, tables and the parts of keys nest less deep than this. -/
def depthLimit : Nat := 80

/-! ## Keys -/

/-- Reads a part of a key. -/
def simpleKey (cs : List Char) : Option (String × List Char) :=
  match cs with
  | '"' :: _ => lineText '"' true cs
  | '\'' :: _ => lineText '\'' false cs
  | cs =>
    match cs.takeWhile isBare with
    | [] => none
    | name => some (String.ofList name, cs.dropWhile isBare)

/-- Reads a dotted key: the parts before the last, and the last. -/
def dottedKey (cs : List Char) : Option ((List String × String) × List Char) := do
  let blank (cs : List Char) : Option (String × List Char) := do
    let (name, cs) ← simpleKey (skipBlanks cs)
    return (name, skipBlanks cs)
  let (names, cs) := Reader.separated '.' blank cs
  if depthLimit ≤ names.length then none
  return ((names.dropLast, ← names.getLast?), cs)

/-! ## Values -/

/-- Reads a member of a table: a key, the sign of equality and a value. -/
def member (value : Reader Value) (cs : List Char) :
    Option ((List String × String × Value) × List Char) := do
  let ((path, key), cs) ← dottedKey cs
  let cs ← Reader.word ['='] cs
  let (v, cs) ← value (skipBlanks cs)
  return ((path, key, v), cs)

/-- Reads the items of a list and its closing bracket. -/
def listTail (value : Reader Value) (cs : List Char) : Option (Value × List Char) := do
  let (items, cs) := Reader.separated ',' (fun cs => do
    let (v, cs) ← value (skipGaps cs)
    return (v, skipGaps cs)) cs
  let cs := match items, cs with
    | _ :: _, ',' :: cs => cs
    | _, cs => cs
  let cs ← Reader.word [']'] (skipGaps cs)
  return (.list items, cs)

/-- Reads the members of a table on one line and its closing brace. -/
def tableTail (value : Reader Value) (cs : List Char) : Option (Value × List Char) := do
  let (members, cs) := Reader.separated ',' (fun cs => do
    let (m, cs) ← member value cs
    return (m, skipBlanks cs)) cs
  let cs ← Reader.word ['\x7d'] (skipBlanks cs)
  let table ← members.foldlM (fun ms (path, key, v) => Members.assign key v path ms true) []
  return (.table (finishAll table), cs)

/-- Reads a value in which lists and tables nest less deep than a limit. -/
def valueWithin : Nat → Reader Value
  | 0 => fun _ => none
  | depth + 1 => fun cs =>
    match cs with
    | '[' :: cs => if depth = 0 then none else listTail (valueWithin depth) cs
    | '\x7b' :: cs => if depth = 0 then none else tableTail (valueWithin depth) cs
    | cs => scalar cs

/-- Reads a value. -/
def value : Reader Value := valueWithin depthLimit

/-! ## Lines -/

/-- A text as far as it has been read: the whole table, and the path to the open one. -/
structure Progress where
  root : Members
  path : List String

/-- Reads the key of a header and its closing brackets. -/
def headerKey (closing : List Char) (cs : List Char) :
    Option ((List String × String) × List Char) := do
  let (key, cs) ← dottedKey cs
  let cs ← Reader.word closing cs
  return (key, ← finishLine cs)

/-- Reads a line. -/
def line (p : Progress) (cs : List Char) : Option (Progress × List Char) :=
  match cs with
  | [] => none
  | '[' :: '[' :: cs => do
    let ((path, key), cs) ← headerKey [']', ']'] cs
    return (⟨← p.root.within (Members.openFurther key) path, path ++ [key]⟩, cs)
  | '[' :: cs => do
    let ((path, key), cs) ← headerKey [']'] cs
    return (⟨← p.root.within (Members.openTable key) path, path ++ [key]⟩, cs)
  | c :: rest =>
    if c = '#' || c = '\n' || c = '\r' then do return (p, ← finishLine (c :: rest))
    else do
      let ((path, key, v), cs) ← member value (c :: rest)
      let cs ← finishLine cs
      return (⟨← p.root.within (fun ms => ms.assign key v path true) p.path, p.path⟩, cs)

/-- Reads all lines. -/
def lines (p : Progress) (cs : List Char) : Option Members :=
  match skipBlanks cs with
  | [] => some p.root
  | text =>
    match line p text with
    | none => none
    | some (p, rest) => if rest.length < cs.length then lines p rest else none
termination_by cs.length

/-- The members of the table that a configuration text describes. A byte order mark in front of it
is no part of it. -/
def ofText? (s : String) : Option (List (String × Value)) :=
  let cs := match s.toList with
    | '\ufeff' :: cs => cs
    | cs => cs
  (lines ⟨[], []⟩ cs).map finishAll

end CloudRoster.Toml
