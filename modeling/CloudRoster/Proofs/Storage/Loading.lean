import CloudRoster.Node.Start
import CloudRoster.Proofs.Storage.Filing

/-!
# What loading a directory gives

A store looks at the files with the extension of its own ones and at no others. A text that holds no
value of the kind is skipped, whether it is no JSON or JSON of another shape. Bytes that are no text
are not: they end the loading, and the values of all other files are lost with it. So a single file
keeps a manager from starting.
-/

namespace CloudRoster

namespace Storage.Directory

/-! ## One entry -/

section

variable (k : Kind) {name : String} {entry : Entry} (entries : List (String × Entry))

/-- What has been loaded, with one more text. -/
def Loaded.add {k : Kind} (name text : String) (rest : Loaded k) : Loaded k :=
  match k.codec.decode text with
  | .ok v => { rest with values := v :: rest.values }
  | .error f => { rest with skipped := ⟨name, text, f⟩ :: rest.skipped }

theorem loadEntries_cons_of_extension_ne (h : extension? name ≠ some "json") :
    loadEntries k ((name, entry) :: entries) = loadEntries k entries := by
  rw [loadEntries, if_neg h]

theorem loadEntries_cons_of_text {text : String} (h : extension? name = some "json")
    (htext : Entry.text entry = .ok text) :
    loadEntries k ((name, entry) :: entries) = (loadEntries k entries).map (.add name text) := by
  rw [loadEntries, if_pos h, htext]
  cases loadEntries k entries with
  | error e => rfl
  | ok rest =>
    simp only [bind, Except.bind, Except.map, Loaded.add]
    cases k.codec.decode text <;> rfl

theorem loadEntries_cons_of_no_text {e : SystemError} (h : extension? name = some "json")
    (htext : Entry.text entry = .error e) :
    loadEntries k ((name, entry) :: entries) = .error e := by
  rw [loadEntries, if_pos h, htext]
  rfl

end

/-! ## Directories of files -/

/-- A directory that holds the given files and nothing else. -/
def ofFiles (path : String) (files : List (String × ByteArray)) : Directory :=
  ⟨path, true, files.map fun (name, bytes) => (name, .file bytes)⟩

/-- Whether a store can read what it looks at: a file with the extension is a text. -/
def IsReadable (file : String × ByteArray) : Prop :=
  extension? file.1 = some "json" → file.2.IsValidUTF8

/-- The check whether bytes are a text. -/
instance instDecidableIsReadable (file : String × ByteArray) : Decidable (IsReadable file) :=
  inferInstanceAs (Decidable (_ → _))

/-- The text that a store reads in a file. -/
def textOf? (file : String × ByteArray) : Option String :=
  if extension? file.1 = some "json" then String.fromUTF8? file.2 else none

/-- The value that a store finds in a file. -/
def valueOf? (k : Kind) (file : String × ByteArray) : Option k.Val :=
  (textOf? file).bind fun text => (k.codec.decode text).toOption

/-- The warning about a file whose text holds no value of the kind. -/
def warningOf? (k : Kind) (file : String × ByteArray) : Option Unreadable :=
  (textOf? file).bind fun text =>
    match k.codec.decode text with
    | .ok _ => none
    | .error f => some ⟨file.1, text, f⟩

/-- What a store makes of files that it can read. -/
def loadedFrom (k : Kind) (files : List (String × ByteArray)) : Loaded k :=
  ⟨files.filterMap (valueOf? k), files.filterMap (warningOf? k)⟩

theorem loadedFrom_cons_of_text {k : Kind} {file : String × ByteArray} {text : String}
    (h : textOf? file = some text) (files : List (String × ByteArray)) :
    loadedFrom k (file :: files) = (loadedFrom k files).add file.1 text := by
  unfold loadedFrom Loaded.add
  cases hdecode : k.codec.decode text <;>
    simp [valueOf?, warningOf?, h, hdecode, Except.toOption]

theorem loadedFrom_cons_of_no_text {k : Kind} {file : String × ByteArray} (h : textOf? file = none)
    (files : List (String × ByteArray)) : loadedFrom k (file :: files) = loadedFrom k files := by
  simp [loadedFrom, valueOf?, warningOf?, h]

theorem loadEntries_ofFiles (k : Kind) (path : String) (files : List (String × ByteArray)) :
    loadEntries k (ofFiles path files).entries =
      if ∀ file ∈ files, IsReadable file then .ok (loadedFrom k files) else .error .notUtf8 := by
  induction files with
  | nil => rfl
  | cons file files ih =>
    have hentries : (ofFiles path (file :: files)).entries =
      (file.1, .file file.2) :: (ofFiles path files).entries := rfl
    rw [hentries]
    by_cases hname : extension? file.1 = some "json"
    · by_cases hbytes : file.2.IsValidUTF8
      · have htext : textOf? file = some (String.fromUTF8 file.2 hbytes) := by
          rw [textOf?, if_pos hname, String.fromUTF8?, dif_pos hbytes]
        have hentry : Entry.text (.file file.2) = .ok (String.fromUTF8 file.2 hbytes) := by
          simp [Entry.text, String.fromUTF8?, hbytes]
        have hreadable : IsReadable file := fun _ => hbytes
        rw [loadEntries_cons_of_text k _ hname hentry, ih, loadedFrom_cons_of_text htext]
        simp only [List.forall_mem_cons, hreadable, true_and]
        split <;> rfl
      · have hentry : Entry.text (.file file.2) = .error .notUtf8 := by
          simp [Entry.text, String.fromUTF8?, hbytes]
        have hunreadable : ¬ ∀ file' ∈ file :: files, IsReadable file' :=
          fun h => hbytes (h file List.mem_cons_self hname)
        rw [loadEntries_cons_of_no_text k _ hname hentry, if_neg hunreadable]
    · have htext : textOf? file = none := if_neg hname
      have hreadable : IsReadable file := fun h => absurd h hname
      rw [loadEntries_cons_of_extension_ne k _ hname, ih, loadedFrom_cons_of_no_text htext]
      simp only [List.forall_mem_cons, hreadable, true_and]

theorem load_ofFiles_of_unreadable {k : Kind} {path : String} {files : List (String × ByteArray)}
    {file : String × ByteArray} (hfile : file ∈ files) (h : ¬ IsReadable file) :
    (ofFiles path files).load k = .error (.io SystemError.notUtf8.text) := by
  have hentries := loadEntries_ofFiles k path files
  rw [if_neg fun hall => h (hall file hfile)] at hentries
  unfold load
  rw [hentries]
  rfl

/-- Of every directory of files, loading gives the values of the files that have the extension of
stored files and hold a value of the kind, and skips all others, if every file with the extension is
a text. If one is not, nothing is loaded. -/
theorem load_ofFiles (k : Kind) (path : String) (files : List (String × ByteArray)) :
    (ofFiles path files).load k =
      if ∀ file ∈ files, IsReadable file then
        .ok ⟨files.filterMap (valueOf? k), files.filterMap (warningOf? k)⟩
      else .error (.io SystemError.notUtf8.text) := by
  split
  · rename_i hreadable
    have hentries := loadEntries_ofFiles k path files
    rw [if_pos hreadable] at hentries
    unfold load
    rw [hentries]
    rfl
  · rename_i hunreadable
    push Not at hunreadable
    obtain ⟨file, hfile, hbad⟩ := hunreadable
    exact load_ofFiles_of_unreadable hfile hbad

/-! ## A file that is no text -/

namespace Scratch

/-- The only template. -/
def base : Template := ⟨"Base", [], []⟩

/-- The file of the template, and one with a single byte that begins no character. -/
def files : List (String × ByteArray) :=
  [("base.json", (Template.codec.write base).indented.toUTF8), ("scratch.json", ⟨#[0xff]⟩)]

theorem not_isReadable_scratch : ¬ IsReadable ("scratch.json", ⟨#[0xff]⟩) := by decide

/-- A template is there to be read, and loading fails on the other file. -/
theorem good_file_lost :
    files.filterMap (valueOf? .template) = [base] ∧
      (ofFiles "templates" files).load .template =
        .error (.io "stream did not contain valid UTF-8") := by
  have hbase : valueOf? .template ("base.json", (Template.codec.write base).indented.toUTF8) =
      some base := by
    have hdecode := Kind.template.faithful_codec.decode_indented base
    have htext : textOf? ("base.json", (Template.codec.write base).indented.toUTF8) =
        some (Template.codec.write base).indented := Text.fromUTF8?_toUTF8 _
    unfold valueOf?
    rw [htext]
    exact congrArg Except.toOption hdecode
  have hscratch : valueOf? .template ("scratch.json", ⟨#[0xff]⟩) = none := by decide
  refine ⟨?_, load_ofFiles_of_unreadable (List.mem_cons_of_mem _ List.mem_cons_self)
    not_isReadable_scratch⟩
  rw [files, List.filterMap_cons_some hbase, List.filterMap_cons_none hscratch, List.filterMap_nil]

end Scratch

end Storage.Directory

/-- A file of the groups that is no text keeps a manager from starting. -/
theorem Node.startWith_of_unreadable (c : NodeConfig) (host : Net.Host) {s : StoreDirectories}
    {path : String} {files : List (String × ByteArray)} {file : String × ByteArray}
    (hgroups : s.groups = .ofFiles path files) (hfile : file ∈ files)
    (hbad : ¬ Storage.Directory.IsReadable file) :
    startWith c host (some s) =
      ([], .error (.stored (.io Storage.SystemError.notUtf8.text))) := by
  have hload : s.groups.load .group = .error (.io Storage.SystemError.notUtf8.text) := by
    rw [hgroups]
    exact Storage.Directory.load_ofFiles_of_unreadable hfile hbad
  simp [startWith, StoreDirectories.loadAny, StoreDirectories.load, hload]

end CloudRoster
