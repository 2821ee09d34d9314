/-!
# Directories of files

A directory as the stores use it: a map from names to files and further directories, in no
particular order, which may itself be missing. Operations fail with the text of the system error.

The directory is one of a Unix system: names are told apart by case, and only `/` and NUL cannot
stand in one. A name is a text, so files whose names are no Unicode do not occur, and of the errors
of the system only those of `SystemError` do.
-/

namespace CloudRoster.Storage

/-- What stands under a name. -/
inductive Entry where
  | file (bytes : ByteArray)
  | directory

/-- Entries are compared for equality. -/
instance instDecidableEqEntry : DecidableEq Entry
  | .file a, .file b =>
    match ByteArray.instDecidableEq a b with
    | isTrue h => isTrue (congrArg Entry.file h)
    | isFalse h => isFalse fun e => h (Entry.file.inj e)
  | .directory, .directory => isTrue rfl
  | .file _, .directory => isFalse (nofun)
  | .directory, .file _ => isFalse (nofun)

/-- A directory of files. -/
structure Directory where
  /-- Where the directory stands. -/
  path : String
  /-- Whether it exists. -/
  present : Bool
  /-- What it holds, by name. -/
  entries : List (String × Entry)
  deriving DecidableEq

/-- Why the system refused an operation. -/
inductive SystemError where
  | notFound
  | isDirectory
  | nameTooLong
  | nulInName
  | notUtf8
  deriving Repr, DecidableEq

namespace SystemError

/-- The text of a system error. -/
def text : SystemError → String
  | notFound => "No such file or directory (os error 2)"
  | isDirectory => "Is a directory (os error 21)"
  | nameTooLong => "File name too long (os error 36)"
  | nulInName => "file name contained an unexpected NUL byte"
  | notUtf8 => "stream did not contain valid UTF-8"

end SystemError

namespace Directory

/-- A directory that exists and is empty. -/
def new (path : String) : Directory := ⟨path, true, []⟩

/-- The greatest number of bytes of a name. -/
def maxNameBytes : Nat := 255

/-- The entry of a name. -/
def find? (d : Directory) (name : String) : Option Entry :=
  (d.entries.find? (·.1 = name)).map (·.2)

/-- The directory without a name. -/
def erase (d : Directory) (name : String) : Directory :=
  { d with entries := d.entries.filter (·.1 ≠ name) }

/-- The directory with an entry under a name, in place of any other. -/
def insert (d : Directory) (name : String) (e : Entry) : Directory :=
  { d with entries := d.entries.filter (·.1 ≠ name) ++ [(name, e)] }

/-- Whether the system can look a name up in the directory at all. -/
def lookUp (d : Directory) (name : String) : Except SystemError Unit :=
  if name.toList.contains '\x00' then .error .nulInName
  else if !d.present then .error .notFound
  else if maxNameBytes < name.utf8ByteSize then .error .nameTooLong
  else .ok ()

/-- Writes a file, in place of an earlier one of the same name. -/
def write (d : Directory) (name : String) (bytes : ByteArray) : Except SystemError Directory := do
  d.lookUp name
  if d.find? name = some .directory then throw .isDirectory
  return d.insert name (.file bytes)

/-- Removes a file. -/
def remove (d : Directory) (name : String) : Except SystemError Directory := do
  d.lookUp name
  match d.find? name with
  | none => throw .notFound
  | some .directory => throw .isDirectory
  | some (.file _) => return d.erase name

/-- The text of an entry. -/
def Entry.text : Entry → Except SystemError String
  | .directory => .error .isDirectory
  | .file bytes =>
    match String.fromUTF8? bytes with
    | some s => .ok s
    | none => .error .notUtf8

/-- The part of a name behind its last point, if there is anything in front of that point. -/
def extension? (name : String) : Option String :=
  let after := (name.toList.reverse.takeWhile (· ≠ '.')).reverse
  let before := name.toList.reverse.dropWhile (· ≠ '.')
  match before with
  | [] | [_] => none
  | _ :: _ :: _ => some (String.ofList after)

end Directory

end CloudRoster.Storage
