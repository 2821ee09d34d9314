import CloudRoster.Proofs.Cache.Absorb
import CloudRoster.Proofs.Cloud.Messages
import CloudRoster.Proofs.Identity.Uuid
import CloudRoster.Proofs.Json.Indented
import CloudRoster.Storage.Store
import CloudRoster.Text.Utf8
import Mathlib.Data.List.Induction
import Mathlib.Data.List.Nodup
import Mathlib.Data.List.Perm.Basic

/-!
# What orders leave in a directory

A store that was given orders, none of which failed, has a file for every key whose last order was
to save it, and that file holds the value of that order. Keys are kept apart by the names of their
files. Read back, in whatever order the system lists the files, they give those values, each once.
-/

namespace CloudRoster

/-- The texts of keys tell the keys of a kind apart. -/
theorem Kind.keyText_injective (k : Kind) : Function.Injective k.keyText := by
  cases k with
  | player =>
    intro u v h
    have hread : Uuid.ofText? u.text = Uuid.ofText? v.text := congrArg Uuid.ofText? h
    rw [Uuid.ofText?_text, Uuid.ofText?_text] at hread
    exact Option.some.inj hread
  | group | template | wrapper | service =>
    rintro ⟨a⟩ ⟨b⟩ h
    exact congrArg NameKey.mk h

/-- What a value is about. -/
def subjectOf (v : Value) : (k : Kind) × k.Key := ⟨v.1, v.1.key v.2⟩

namespace Storage

/-- The name of the file of a key. -/
def fileOf (k : Kind) (key : k.Key) : String := k.keyText key ++ ".json"

/-- What stands in the file of a value. -/
def stored (k : Kind) (v : k.Val) : Entry := .file (k.codec.write v).indented.toUTF8

/-- What an order leaves under the name of the value that it is about. -/
def Order.leaves (v : Value) : Order → Option Entry
  | save => some (stored v.1 v.2)
  | remove => none

/-- The last of the orders about something. -/
def lastAbout (s : (k : Kind) × k.Key) (orders : List (Order × Value)) : Option (Order × Value) :=
  (orders.filter fun x => subjectOf x.2 = s).getLast?

/-! ## Names -/

theorem fileOf_injective (k : Kind) : Function.Injective (fileOf k) := by
  intro a b h
  refine k.keyText_injective (String.toList_inj.1 ?_)
  have hchars : (fileOf k a).toList = (fileOf k b).toList := congrArg String.toList h
  simpa [fileOf] using hchars

/-- The name of a key that has a file is the key with the extension; the key is not empty. -/
theorem fileName_ok {k : Kind} {key : k.Key} {name : String}
    (h : fileName (k.keyText key) = .ok name) :
    name = fileOf k key ∧ (k.keyText key).toList ≠ [] := by
  unfold fileName at h
  simp only at h
  split at h
  · cases h
  · rename_i hallowed
    cases h
    refine ⟨rfl, fun hempty => hallowed ?_⟩
    simp [hempty]

/-- Files of values have the extension by which they are known. -/
theorem extension?_fileOf {k : Kind} {key : k.Key} (h : (k.keyText key).toList ≠ []) :
    Directory.extension? (fileOf k key) = some "json" := by
  obtain ⟨c, cs, hchars⟩ := List.exists_cons_of_ne_nil (List.reverse_ne_nil_iff.2 h)
  have hreverse : (fileOf k key).toList.reverse = 'n' :: 'o' :: 's' :: 'j' :: '.' :: c :: cs := by
    simp [fileOf, hchars]
  unfold Directory.extension?
  rw [hreverse]
  rfl

/-! ## The last order -/

theorem lastAbout_concat (s : (k : Kind) × k.Key) (orders : List (Order × Value))
    (x : Order × Value) :
    lastAbout s (orders ++ [x]) = if subjectOf x.2 = s then some x else lastAbout s orders := by
  unfold lastAbout
  rw [List.filter_append]
  by_cases h : subjectOf x.2 = s
  · rw [if_pos h, List.filter_cons_of_pos (by simpa using h), List.filter_nil,
      List.getLast?_concat]
  · rw [if_neg h, List.filter_cons_of_neg (by simpa using h), List.filter_nil, List.append_nil]

namespace Directory

variable {d d' : Directory} {k : Kind}

/-! ## Entries by name -/

theorem find?_insert_self (d : Directory) (name : String) (e : Entry) :
    (d.insert name e).find? name = some e := by
  have hnone : d.entries.find? (fun _ => false) = none := List.find?_eq_none.2 (by simp)
  simp [find?, insert, List.find?_filter, hnone]

theorem find?_erase_self (d : Directory) (name : String) : (d.erase name).find? name = none := by
  have hnone : d.entries.find? (fun _ => false) = none := List.find?_eq_none.2 (by simp)
  simp [find?, erase, List.find?_filter, hnone]

theorem find?_erase_of_ne (d : Directory) {name other : String} (h : other ≠ name) :
    (d.erase name).find? other = d.find? other := by
  have hsame : (fun e : String × Entry => !decide (e.1 = name) && decide (e.1 = other)) =
      fun e => decide (e.1 = other) := by
    funext e
    by_cases he : e.1 = other
    · simp [he, h]
    · simp [he]
  simp [find?, erase, List.find?_filter, hsame]

theorem find?_insert_of_ne (d : Directory) {name other : String} (h : other ≠ name) (e : Entry) :
    (d.insert name e).find? other = d.find? other := by
  rw [← d.find?_erase_of_ne h]
  simp [find?, insert, erase, Ne.symm h]

/-- Erasing a name that is not there changes nothing. -/
theorem erase_of_find?_eq_none {name : String} (h : d.find? name = none) : d.erase name = d := by
  have hall : d.entries.filter (·.1 ≠ name) = d.entries := by
    refine List.filter_eq_self.2 fun e he => ?_
    have hne := List.find?_eq_none.1 (Option.map_eq_none_iff.1 h) e he
    simpa using hne
  unfold erase
  rw [hall]

theorem mem_of_find? {name : String} {e : Entry} (h : d.find? name = some e) :
    (name, e) ∈ d.entries := by
  obtain ⟨⟨name', e'⟩, hfind, rfl⟩ := Option.map_eq_some_iff.1 h
  have hname := List.find?_some hfind
  rw [decide_eq_true_eq] at hname
  rw [← hname]
  exact List.mem_of_find?_eq_some hfind

/-- Where names stand once, every entry is found by its name. -/
theorem find?_of_mem (hnodup : (d.entries.map (·.1)).Nodup) {name : String} {e : Entry}
    (h : (name, e) ∈ d.entries) : d.find? name = some e := by
  cases hfind : d.find? name with
  | none =>
    have hne := List.find?_eq_none.1 (Option.map_eq_none_iff.1 hfind) _ h
    simp at hne
  | some e' =>
    have hsame := List.inj_on_of_nodup_map hnodup (mem_of_find? hfind) h rfl
    exact congrArg some (congrArg Prod.snd hsame)

/-! ## One order -/

/-- A value is saved under the name of its key. -/
theorem save_eq {v : k.Val} (h : d.save k v = .ok d') :
    fileName (k.keyText (k.key v)) = .ok (fileOf k (k.key v)) ∧
      d' = d.insert (fileOf k (k.key v)) (stored k v) := by
  unfold save at h
  cases hname : fileName (k.keyText (k.key v)) with
  | error e =>
    rw [hname] at h
    cases h
  | ok name =>
    obtain ⟨rfl, -⟩ := fileName_ok hname
    refine ⟨rfl, ?_⟩
    simp only [hname, bind, Except.bind] at h
    cases hwrite : d.write (fileOf k (k.key v)) (k.codec.write v).indented.toUTF8 with
    | error e =>
      rw [hwrite] at h
      cases h
    | ok written =>
      rw [hwrite] at h
      cases h
      unfold write at hwrite
      cases hlook : d.lookUp (fileOf k (k.key v)) with
      | error e =>
        rw [hlook] at hwrite
        cases hwrite
      | ok u =>
        simp only [hlook, bind, Except.bind] at hwrite
        split at hwrite
        · cases hwrite
        · cases hwrite
          rfl

/-- The removal of a key is refused neither for its name nor by the system. -/
structure Removable (d : Directory) (k : Kind) (key : k.Key) : Prop where
  named : fileName (k.keyText key) = .ok (fileOf k key)
  noNul : '\x00' ∉ (fileOf k key).toList
  short : d.present = true → (fileOf k key).utf8ByteSize ≤ maxNameBytes
  isFile : d.present = true → d.find? (fileOf k key) ≠ some .directory

theorem discard_of_fileName {v : k.Val}
    (h : fileName (k.keyText (k.key v)) = .ok (fileOf k (k.key v))) :
    d.discard k v = match d.remove (fileOf k (k.key v)) with
      | .ok d => .ok d
      | .error .notFound => .ok d
      | .error e => .error (failure d (fileOf k (k.key v)) e) := by
  unfold discard
  rw [h]
  rfl

/-- A removal that is not refused takes away whatever stands under the name of the key; a directory
that is missing stays so. -/
theorem Removable.discard {v : k.Val} (h : d.Removable k (k.key v)) :
    d.discard k v = .ok (if d.present = true then d.erase (fileOf k (k.key v)) else d) := by
  rw [discard_of_fileName h.named]
  by_cases hpresent : d.present = true
  · have hlook : d.lookUp (fileOf k (k.key v)) = .ok () := by
      simp [lookUp, h.noNul, hpresent, h.short hpresent]
    unfold remove
    rw [hlook, if_pos hpresent]
    cases hfind : d.find? (fileOf k (k.key v)) with
    | none =>
      rw [erase_of_find?_eq_none hfind]
      rfl
    | some e =>
      cases e with
      | directory => exact absurd hfind (h.isFile hpresent)
      | file bytes => rfl
  · have hlook : d.lookUp (fileOf k (k.key v)) = .error .notFound := by
      simp [lookUp, h.noNul, hpresent]
    unfold remove
    rw [hlook, if_neg hpresent]
    rfl

/-- A removal that is carried out was not refused. -/
theorem removable_of_discard {v : k.Val} (h : d.discard k v = .ok d') :
    d.Removable k (k.key v) := by
  have hnamed : fileName (k.keyText (k.key v)) = .ok (fileOf k (k.key v)) := by
    unfold Directory.discard at h
    cases hname : fileName (k.keyText (k.key v)) with
    | error e =>
      rw [hname] at h
      cases h
    | ok name => rw [(fileName_ok hname).1]
  rw [discard_of_fileName hnamed] at h
  -- that there is no file is the one error of the system that is not passed on
  have hsystem : ∀ e, e ≠ .notFound → d.remove (fileOf k (k.key v)) ≠ .error e := by
    intro e he hremove
    rw [hremove] at h
    cases e <;> first | exact he rfl | cases h
  have hnul : '\x00' ∉ (fileOf k (k.key v)).toList := by
    intro hnul
    apply hsystem .nulInName nofun
    simp [remove, lookUp, hnul, bind, Except.bind]
  have hshort : d.present = true → (fileOf k (k.key v)).utf8ByteSize ≤ maxNameBytes := by
    intro hpresent
    by_contra hlong
    apply hsystem .nameTooLong nofun
    simp [remove, lookUp, hnul, hpresent, Nat.lt_of_not_le hlong, bind, Except.bind]
  refine ⟨hnamed, hnul, hshort, fun hpresent hfind => ?_⟩
  apply hsystem .isDirectory nofun
  simp [remove, lookUp, hnul, hpresent, Nat.not_lt.2 (hshort hpresent), hfind, bind, Except.bind]
  rfl

/-- A value that is removed leaves nothing under the name of its key. -/
theorem discard_eq (hpresent : d.present = true) {v : k.Val} (h : d.discard k v = .ok d') :
    fileName (k.keyText (k.key v)) = .ok (fileOf k (k.key v)) ∧
      d' = d.erase (fileOf k (k.key v)) := by
  have hremovable := removable_of_discard h
  rw [hremovable.discard, if_pos hpresent] at h
  exact ⟨hremovable.named, (Except.ok.inj h).symm⟩

/-- Where nothing stands under the name of its key, the removal of a value changes nothing. -/
theorem discard_of_find?_eq_none {v : k.Val} (hfind : d.find? (fileOf k (k.key v)) = none)
    (h : d.discard k v = .ok d') : d' = d := by
  rw [(removable_of_discard h).discard, erase_of_find?_eq_none hfind, ite_self] at h
  exact (Except.ok.inj h).symm

/-- A removal that was carried out is carried out again, and changes nothing then. -/
theorem discard_discard {v : k.Val} (h : d.discard k v = .ok d') : d'.discard k v = .ok d' := by
  have hremovable := removable_of_discard h
  by_cases hpresent : d.present = true
  · obtain ⟨-, rfl⟩ := discard_eq hpresent h
    have hfind := d.find?_erase_self (fileOf k (k.key v))
    have hagain : (d.erase (fileOf k (k.key v))).Removable k (k.key v) :=
      ⟨hremovable.named, hremovable.noNul, hremovable.short, fun _ => by simp [hfind]⟩
    rw [hagain.discard, erase_of_find?_eq_none hfind, ite_self]
  · rw [hremovable.discard, if_neg hpresent] at h
    obtain rfl := Except.ok.inj h
    rw [hremovable.discard, if_neg hpresent]

/-! ## Many orders -/

/-- Carries out orders one after another, until one fails. -/
def obeyAll (d : Directory) (orders : List (Order × Value)) : Except SyncError Directory :=
  orders.foldlM (fun d x => d.obey x.2.1 x.2.2 x.1) d

theorem obeyAll_concat (d : Directory) (orders : List (Order × Value)) (x : Order × Value) :
    d.obeyAll (orders ++ [x]) = (d.obeyAll orders).bind fun d => d.obey x.2.1 x.2.2 x.1 := by
  unfold obeyAll
  rw [List.foldlM_append]
  cases orders.foldlM (fun d x => d.obey x.2.1 x.2.2 x.1) d with
  | error e => rfl
  | ok between =>
    show ((between.obey x.2.1 x.2.2 x.1).bind Except.ok) = between.obey x.2.1 x.2.2 x.1
    cases between.obey x.2.1 x.2.2 x.1 <;> rfl

/-- The directory holds what orders about values of a kind have left. -/
structure Reflects (d : Directory) (k : Kind) (orders : List (Order × Value)) : Prop where
  present : d.present = true
  nodup : (d.entries.map (·.1)).Nodup
  /-- Every name is that of a key. -/
  named : ∀ e ∈ d.entries, ∃ key, fileName (k.keyText key) = .ok e.1
  /-- Under the name of a key stands what the last order about it left. -/
  found : ∀ key, d.find? (fileOf k key) =
    (lastAbout ⟨k, key⟩ orders).bind fun x => x.1.leaves x.2

theorem reflects_new (path : String) (k : Kind) : (new path).Reflects k [] where
  present := rfl
  nodup := List.nodup_nil
  named _ he := absurd he List.not_mem_nil
  found _ := rfl

/-- One more order that does not fail. -/
theorem Reflects.obey {orders : List (Order × Value)} (h : d.Reflects k orders) {order : Order}
    {v : k.Val} (hobey : d.obey k v order = .ok d') :
    d'.Reflects k (orders ++ [(order, ⟨k, v⟩)]) := by
  have hnames : ((d.entries.filter (·.1 ≠ fileOf k (k.key v))).map (·.1)).Nodup :=
    h.nodup.sublist (List.filter_sublist.map _)
  have hlast : ∀ key, lastAbout ⟨k, key⟩ (orders ++ [(order, ⟨k, v⟩)]) =
      if k.key v = key then some (order, ⟨k, v⟩) else lastAbout ⟨k, key⟩ orders := by
    intro key
    rw [lastAbout_concat]
    simp [subjectOf]
  cases order with
  | save =>
    obtain ⟨hname, rfl⟩ := save_eq hobey
    refine ⟨h.present, ?_, ?_, fun key => ?_⟩
    · unfold insert
      rw [List.map_append]
      refine List.nodup_append.2 ⟨hnames, List.nodup_singleton _, ?_⟩
      rintro a ha b hb rfl
      obtain ⟨e, he, rfl⟩ := List.mem_map.1 ha
      have hne := (List.mem_filter.1 he).2
      exact absurd (List.mem_singleton.1 hb) (by simpa using hne)
    · intro e he
      rcases List.mem_append.1 he with he | he
      · exact h.named e (List.mem_filter.1 he).1
      · rw [List.mem_singleton.1 he]
        exact ⟨k.key v, hname⟩
    · rw [hlast]
      split
      · subst key
        exact find?_insert_self ..
      · rename_i hne
        rw [find?_insert_of_ne _ fun heq => hne (fileOf_injective k heq).symm, h.found]
  | remove =>
    obtain ⟨-, rfl⟩ := discard_eq h.present hobey
    refine ⟨h.present, hnames, fun e he => h.named e (List.mem_filter.1 he).1,
      fun key => ?_⟩
    rw [hlast]
    split
    · subst key
      exact find?_erase_self ..
    · rename_i hne
      rw [find?_erase_of_ne _ fun heq => hne (fileOf_injective k heq).symm, h.found]

/-- Orders that are carried out in an empty directory, none of them failing. -/
theorem reflects_obeyAll {path : String} {orders : List (Order × Value)}
    (hkind : ∀ x ∈ orders, x.2.1 = k) (h : (new path).obeyAll orders = .ok d) :
    d.Reflects k orders := by
  induction orders using List.reverseRecOn generalizing d with
  | nil =>
    cases h
    exact reflects_new path k
  | append_singleton orders x ih =>
    obtain ⟨order, ⟨j, v⟩⟩ := x
    obtain rfl : j = k := hkind _ (List.mem_append_right _ List.mem_cons_self)
    rw [obeyAll_concat] at h
    cases hbefore : (new path).obeyAll orders with
    | error e =>
      rw [hbefore] at h
      cases h
    | ok before =>
      rw [hbefore] at h
      exact (ih (fun x hx => hkind x (List.mem_append_left _ hx)) hbefore).obey h

/-! ## Reading back -/

/-- The file of a value is read as the text that was written. -/
theorem text_stored (k : Kind) (v : k.Val) :
    Entry.text (stored k v) = .ok (k.codec.write v).indented := by
  unfold stored Entry.text
  simp only [Text.fromUTF8?_toUTF8]

/-- The files of two values of a kind are not the same. -/
theorem stored_injective (k : Kind) : Function.Injective (stored k) := by
  intro u v h
  have htexts := (text_stored k u).symm.trans ((congrArg Entry.text h).trans (text_stored k v))
  have hread : k.codec.decode (k.codec.write u).indented =
      k.codec.decode (k.codec.write v).indented := congrArg k.codec.decode (Except.ok.inj htexts)
  rw [k.faithful_codec.decode_indented, k.faithful_codec.decode_indented] at hread
  exact Except.ok.inj hread

/-- The files of values are read back as those values, and none of them is skipped. -/
theorem loadEntries_stored {vs : List k.Val}
    (h : ∀ v ∈ vs, (k.keyText (k.key v)).toList ≠ []) :
    loadEntries k (vs.map fun v => (fileOf k (k.key v), stored k v)) = .ok ⟨vs, []⟩ := by
  induction vs with
  | nil => rfl
  | cons v vs ih =>
    have hrest := ih fun u hu => h u (List.mem_cons_of_mem v hu)
    have hdecode := k.faithful_codec.decode_indented v
    rw [List.map_cons, loadEntries, if_pos (extension?_fileOf (h v List.mem_cons_self)),
      text_stored, hrest]
    simp only [bind, Except.bind, hdecode]
    rfl

section

open Cache (OrderedMap.get? OrderedMap.get?_of_mem)

variable {orders : List (Order × Value)} {vs : List k.Val}

/-- What the orders have left of each key is the file of the value that has the key. -/
def Mirrors (k : Kind) (orders : List (Order × Value)) (vs : List k.Val) : Prop :=
  ∀ key, (lastAbout ⟨k, key⟩ orders).bind (fun x => x.1.leaves x.2) =
    (OrderedMap.get? k.key vs key).map (stored k)

theorem Reflects.find?_of_mem (h : d.Reflects k orders) (hmirrors : Mirrors k orders vs)
    (hnodup : (vs.map k.key).Nodup) {v : k.Val} (hv : v ∈ vs) :
    d.find? (fileOf k (k.key v)) = some (stored k v) := by
  rw [h.found, hmirrors, OrderedMap.get?_of_mem hnodup hv]
  rfl

/-- The directory has the files of the values and no others. -/
theorem Reflects.perm_entries (h : d.Reflects k orders) (hmirrors : Mirrors k orders vs)
    (hnodup : (vs.map k.key).Nodup) :
    d.entries.Perm (vs.map fun v => (fileOf k (k.key v), stored k v)) := by
  have hfiles : (vs.map fun v => (fileOf k (k.key v), stored k v)).Nodup := by
    refine List.Nodup.of_map Prod.fst ?_
    rw [List.map_map]
    show (vs.map (fileOf k ∘ k.key)).Nodup
    rw [← List.map_map]
    exact hnodup.map (fileOf_injective k)
  refine (List.perm_ext_iff_of_nodup (List.Nodup.of_map _ h.nodup) hfiles).2 fun e => ?_
  rw [List.mem_map]
  constructor
  · intro he
    obtain ⟨name, entry⟩ := e
    obtain ⟨key, hname⟩ := h.named _ he
    obtain rfl : name = fileOf k key := (fileName_ok hname).1
    have hfound := h.found key
    rw [Directory.find?_of_mem h.nodup he, hmirrors] at hfound
    obtain ⟨v, hget, rfl⟩ := Option.map_eq_some_iff.1 hfound.symm
    have hkey : k.key v = key := by simpa using List.find?_some hget
    exact ⟨v, List.mem_of_find?_eq_some hget, by rw [hkey]⟩
  · rintro ⟨v, hv, rfl⟩
    exact mem_of_find? (h.find?_of_mem hmirrors hnodup hv)

/-- Reading the directory gives the values, each once, in whatever order the system lists the
files. -/
theorem Reflects.load (h : d.Reflects k orders) (hmirrors : Mirrors k orders vs)
    (hnodup : (vs.map k.key).Nodup) {listed : Directory} (hpresent : listed.present = true)
    (hlisted : listed.entries.Perm d.entries) :
    ∃ loaded, listed.load k = .ok ⟨loaded, []⟩ ∧ loaded.Perm vs := by
  -- the entries are the files of the values, in some order of them
  obtain ⟨loaded, hentries, hperm⟩ :
      ∃ loaded : List k.Val, listed.entries =
        loaded.map (fun v => (fileOf k (k.key v), stored k v)) ∧ loaded.Perm vs := by
    have hall := hlisted.trans (h.perm_entries hmirrors hnodup)
    exact (congrFun₂ (List.eq_map_comp_perm _) listed.entries vs).mpr hall
  refine ⟨loaded, ?_, hperm⟩
  have hnames : ∀ v ∈ loaded, (k.keyText (k.key v)).toList ≠ [] := by
    intro v hv
    obtain ⟨key, hname⟩ := h.named _
      (mem_of_find? (h.find?_of_mem hmirrors hnodup (hperm.mem_iff.1 hv)))
    obtain ⟨hfile, hkey⟩ := fileName_ok hname
    rwa [fileOf_injective k hfile]
  unfold Directory.load
  rw [hpresent, hentries, loadEntries_stored hnames]
  rfl

end

end Directory

end Storage

end CloudRoster
