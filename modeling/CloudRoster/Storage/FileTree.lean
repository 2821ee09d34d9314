import CloudRoster.Storage.Directory

/-!
# Trees of files

Files and directories as they stand inside each other, and the ways of the system from one to the
other. A path is followed name by name, and every step but the last ends in a directory that is
there: also a step up, or one that stays, starts from a directory. Names and whole paths have a
greatest length, and none holds the character NUL.

Paths are those of a Unix system, with `/` between the names and no drives. A name is a text: names
that are no Unicode, which such a system allows, do not occur, and neither do symbolic links and
permissions.
-/

namespace CloudRoster.Storage

/-- The names on the way to a file or directory. -/
abbrev Path := List String

/-- A file, or a directory with what stands in it by name. -/
inductive FileTree where
  | file (bytes : ByteArray)
  | directory (children : List (String × FileTree))

namespace FileTree

/-- A directory with nothing in it. -/
def empty : FileTree := directory []

/-- What stands in a directory, by name; nothing stands in a file. -/
def children : FileTree → List (String × FileTree)
  | file _ => []
  | directory cs => cs

/-- What stands at the end of a way. -/
def at? (t : FileTree) : Path → Option FileTree
  | [] => some t
  | name :: way => do (← t.children.lookup name).at? way

/-- The tree with something at the end of a way, in place of what stood there. Directories that are
missing on the way are made. -/
def put (new : FileTree) (t : FileTree) : Path → FileTree
  | [] => new
  | name :: way =>
    match t.children.lookup name with
    | some old => directory (t.children.map fun (n, child) =>
        if n = name then (n, put new old way) else (n, child))
    | none => directory (t.children ++ [(name, put new empty way)])

/-! ## Following a path -/

/-- A step on the way that a path describes. -/
inductive Step where
  | into (name : String)
  | up
  | stay
  deriving Repr, DecidableEq

/-- The step that a part of a path describes. -/
def stepOf : String → Step
  | "" | "." => .stay
  | ".." => .up
  | name => .into name

/-- The steps that a path describes. -/
def stepsOf (s : String) : List Step :=
  (s.toList.splitOn '/').map fun part => stepOf (String.ofList part)

/-- The greatest number of bytes of a path. -/
def maxPathBytes : Nat := 4095

/-- Whether the system follows a path at all. -/
def isUsable (s : String) : Bool :=
  !s.toList.contains '\x00' && s.utf8ByteSize ≤ maxPathBytes

/-- Goes some steps on from a place, which is given by its names, the last one first. Directories
that are missing are made if `make` says so. -/
def follow (make : Bool) (t : FileTree) (place : Path) : List Step → FileTree × Option Path
  | [] => (t, some place)
  | step :: steps =>
    match t.at? place.reverse with
    | some (directory cs) =>
      match step with
      | .stay => follow make t place steps
      | .up => follow make t place.tail steps
      | .into name =>
        if Directory.maxNameBytes < name.utf8ByteSize then (t, none)
        else if (cs.lookup name).isSome then follow make t (name :: place) steps
        else if make then
          follow make (put empty t (name :: place).reverse) (name :: place) steps
        else (t, none)
    | _ => (t, none)

/-- The way to what a path describes, if it is there. -/
def find? (t : FileTree) (path : String) : Option Path :=
  if isUsable path then (follow false t [] (stepsOf path)).2.map List.reverse else none

/-- What a path describes, if it is there. -/
def look? (t : FileTree) (path : String) : Option FileTree := do t.at? (← t.find? path)

/-- The text of a file. -/
def text? (t : FileTree) (path : String) : Option String :=
  match t.look? path with
  | some (file bytes) => String.fromUTF8? bytes
  | _ => none

/-- Makes the directory that a path describes with those on the way to it. What has been made stays,
also if something is in the way further on. -/
def makeDirectory (t : FileTree) (path : String) : FileTree × Option Path :=
  if isUsable path then
    let (t, place) := follow true t [] (stepsOf path)
    let way := place.map List.reverse
    match way.bind t.at? with
    | some (directory _) => (t, way)
    | _ => (t, none)
  else (t, none)

/-- Writes a file, with the directories on the way to it. -/
def addFile (t : FileTree) (path : String) (bytes : ByteArray) : FileTree :=
  match (stepsOf path).reverse with
  | .into name :: before =>
    match follow true t [] before.reverse with
    | (t, some place) => put (file bytes) t (name :: place).reverse
    | (t, none) => t
  | _ => t

/-- A tree of the given files. -/
def ofFiles (files : List (String × String)) : FileTree :=
  files.foldl (fun t (path, text) => t.addFile path text.toUTF8) empty

/-! ## Looking at directories -/

/-- What stands directly in a directory. -/
def entries (t : FileTree) : List (String × Entry) := t.children.map fun (name, child) =>
  (name, match child with
    | file bytes => .file bytes
    | directory _ => .directory)

/-- Opens a directory, which is made if it is not there. -/
def openDirectory (t : FileTree) (path : String) : FileTree × Option Directory :=
  match t.makeDirectory path with
  | (t, none) => (t, none)
  | (t, some way) => (t, (t.at? way).map fun d => ⟨path, true, d.entries⟩)

mutual

/-- The paths of a tree with a name and of all that stands in it; those of directories end with a
slash. -/
def paths (name : String) : FileTree → List String
  | file _ => [name]
  | directory cs => (name ++ "/") :: pathsIn (name ++ "/") cs

/-- The paths of all that stands in a directory. -/
def pathsIn (before : String) : List (String × FileTree) → List String
  | [] => []
  | (name, child) :: cs => child.paths (before ++ name) ++ pathsIn before cs

end

/-- The paths of all that stands in a directory, in order. -/
def listing (t : FileTree) (path : String) : List String :=
  (pathsIn "" ((t.look? path).elim [] children)).mergeSort fun a b => !(b < a)

end FileTree

end CloudRoster.Storage
