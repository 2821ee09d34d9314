import CloudRoster.Cloud.Kind
import CloudRoster.Storage.Directory
import CloudRoster.Sync.Error
import CloudRoster.Text.Quoted

/-!
# Stores

A store keeps the values of a list beyond the life of a node. It is told of every value that is to
be saved or removed. A store on a directory keeps each value as an indented JSON text in a file
named for its key; keys that would leave the directory or hide the file are refused.
-/

namespace CloudRoster.Storage

open CloudRoster.Json (Fault)

/-- What a store is told to do. -/
inductive Order where
  | save
  | remove
  deriving Repr, DecidableEq

/-- A store of values. -/
structure Store where
  /-- The directory that the values are kept in, if any. -/
  directory : Option Directory
  /-- What the store has been told, oldest first. -/
  journal : List (Order × Value)

/-- The file of a key, unless the key is no name for a file of its own in the directory. -/
def fileName (key : String) : Except SyncError String :=
  let cs := key.toList
  if cs.isEmpty || cs.contains '/' || cs.contains '\\' || cs.head? = some '.' then
    .error (.persistence ("invalid file name: " ++ Text.quoted key))
  else .ok (key ++ ".json")

/-- A system error at a file of a directory. -/
def failure (d : Directory) (name : String) (e : SystemError) : SyncError :=
  .persistence (d.path ++ "/" ++ name ++ ": " ++ e.text)

namespace Directory

/-- Saves a value. -/
def save (d : Directory) (k : Kind) (v : k.Val) : Except SyncError Directory := do
  let name ← fileName (k.keyText (k.key v))
  match d.write name (k.codec.write v).indented.toUTF8 with
  | .ok d => return d
  | .error e => throw (failure d name e)

/-- Removes a value; it is no failure if there is none. -/
def discard (d : Directory) (k : Kind) (v : k.Val) : Except SyncError Directory := do
  let name ← fileName (k.keyText (k.key v))
  match d.remove name with
  | .ok d => return d
  | .error .notFound => return d
  | .error e => throw (failure d name e)

/-- Carries out an order. -/
def obey (d : Directory) (k : Kind) (v : k.Val) : Order → Except SyncError Directory
  | .save => d.save k v
  | .remove => d.discard k v

/-- A file of the directory that holds no value of its kind, with the reason. -/
structure Unreadable where
  name : String
  /-- What the file holds. -/
  text : String
  fault : Fault
  deriving Repr, DecidableEq

/-- What loading a directory gave. -/
structure Loaded (k : Kind) where
  values : List k.Val
  /-- The files that were skipped with a warning. -/
  skipped : List Unreadable

/-- Reads the entries with the extension of the stored files. A file that holds no value is skipped;
one that cannot be read as text ends the reading. -/
def loadEntries (k : Kind) : List (String × Entry) → Except SystemError (Loaded k)
  | [] => .ok ⟨[], []⟩
  | (name, entry) :: entries =>
    if extension? name = some "json" then do
      let text ← Entry.text entry
      let rest ← loadEntries k entries
      match k.codec.decode text with
      | .ok v => return { rest with values := v :: rest.values }
      | .error f => return { rest with skipped := ⟨name, text, f⟩ :: rest.skipped }
    else loadEntries k entries

/-- All values of a directory. -/
def load (d : Directory) (k : Kind) : Except SyncError (Loaded k) :=
  if !d.present then .error (.io SystemError.notFound.text)
  else match loadEntries k d.entries with
    | .ok loaded => .ok loaded
    | .error e => .error (.io e.text)

end Directory

namespace Store

/-- A store on a directory. -/
def onDirectory (d : Directory) : Store := ⟨some d, []⟩

/-- A store that only keeps its journal. -/
def journalOnly : Store := ⟨none, []⟩

/-- Carries out an order. -/
def obey (s : Store) (order : Order) (v : Value) : Store × Except SyncError Unit :=
  let s := { s with journal := s.journal ++ [(order, v)] }
  match s.directory with
  | none => (s, .ok ())
  | some d =>
    match d.obey v.1 v.2 order with
    | .ok d => ({ s with directory := some d }, .ok ())
    | .error e => (s, .error e)

end Store

end CloudRoster.Storage
