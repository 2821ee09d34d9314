import CloudRoster.Proofs.Node.Burst
import CloudRoster.Proofs.Storage.Filing
import CloudRoster.Proofs.Text.AsciiCase
import CloudRoster.Proofs.Text.Lowercase

/-!
# Names as identities

Values are found by their names through keys, and a key is its own key: it may be given in place of
the name, and so may the name of the file that a value is stored in. Managers and updaters also scan
for names, with a comparison that ignores the case of ASCII letters only. What such a scan takes for
the same name has the same key.
-/

namespace CloudRoster

open Cache (Entries)
open Text (sameIgnoringAsciiCase)

/-- The key of a name is its own key. -/
theorem NameKey.ofName_text_ofName (name : String) : ofName (ofName name).text = ofName name :=
  congrArg NameKey.mk (Text.lowercase_lowercase name)

/-- Values that stand under their own keys are found by them. -/
theorem Cache.Entries.Tidy.find?_of_mem_values {K V : Type} [DecidableEq K] {identify : V → K}
    {es : Entries K V} (h : es.Tidy identify) {v : V} (hv : v ∈ es.values) :
    es.find? (identify v) = some v :=
  (h.get?_values _).symm.trans (Cache.OrderedMap.get?_of_mem h.nodup_values hv)

/-! ## Looking up by name -/

namespace Kind

/-- The name of a value. -/
def nameOf : (k : Kind) → k.Val → String
  | player => Player.name
  | group => Group.name
  | template => Template.name
  | wrapper => Wrapper.name
  | service => Service.name

/-- The key under which a name is looked up. Players are not told apart by their names. -/
def keyOfName? : (k : Kind) → String → Option k.Key
  | player, _ => none
  | group, name | template, name | wrapper, name | service, name => some (.ofName name)

variable {k : Kind}

theorem keyOfName?_nameOf (hk : k ≠ .player) (v : k.Val) :
    k.keyOfName? (k.nameOf v) = some (k.key v) := by
  cases k with
  | player => exact absurd rfl hk
  | group | template | wrapper | service => rfl

/-- The text of a key is looked up under the same key as the name. -/
theorem keyOfName?_keyText (hk : k ≠ .player) (v : k.Val) :
    k.keyOfName? (k.keyText (k.key v)) = some (k.key v) := by
  cases k with
  | player => exact absurd rfl hk
  | group | template | wrapper | service => exact congrArg some (NameKey.ofName_text_ofName _)

theorem keyOfName?_eq_of_same {s t : String} (h : sameIgnoringAsciiCase s t = true) :
    k.keyOfName? s = k.keyOfName? t := by
  cases k with
  | player => rfl
  | group | template | wrapper | service =>
    exact congrArg some (NameKey.ofName_eq_of_sameIgnoringAsciiCase h)

end Kind

namespace Node

/-- The value of a name. -/
def byName (n : Node) (k : Kind) (name : String) : Option k.Val :=
  (k.keyOfName? name).bind (n.lists.get k).find?

/-- The values of a node are found by what is derived from their names, and its scans for names stay
within one key. -/
structure KnowsByName (n : Node) : Prop where
  /-- A value is found by the text of its own key. -/
  key : ∀ k ≠ Kind.player, ∀ v ∈ n.values k, n.byName k (k.keyText (k.key v)) = some v
  /-- A value is found by the name of the file that it is stored in, without the extension. -/
  file : ∀ k ≠ Kind.player, ∀ v ∈ n.values k, ∀ file,
    Storage.fileName (k.keyText (k.key v)) = .ok file →
    ∃ stem, file = stem ++ ".json" ∧ n.byName k stem = some v
  /-- A value is found by every spelling of its name that differs in the case of ASCII letters. -/
  spelling : ∀ k ≠ Kind.player, ∀ v ∈ n.values k, ∀ name,
    sameIgnoringAsciiCase name (k.nameOf v) = true → n.byName k name = some v
  /-- The services of a group name one group. -/
  group : ∀ group, ∀ s ∈ n.servicesOfGroup group, NameKey.ofName s.groupName = .ofName group
  /-- The services on a wrapper name one wrapper. -/
  wrapper : ∀ wrapper, ∀ s ∈ n.servicesOnWrapper wrapper,
    ∃ name, s.wrapperName = some name ∧ NameKey.ofName name = .ofName wrapper
  /-- The players on a server name one server. -/
  server : ∀ server, ∀ p ∈ n.playersOnServer server,
    ∃ name, p.serverName = some name ∧ NameKey.ofName name = .ofName server

/-- What a scan for a name finds in a field that may be missing has the key of the name. -/
theorem key_of_any {field : Option String} {name : String}
    (h : field.any (sameIgnoringAsciiCase · name) = true) :
    ∃ found, field = some found ∧ NameKey.ofName found = .ofName name := by
  cases field with
  | none => cases h
  | some found => exact ⟨found, rfl, NameKey.ofName_eq_of_sameIgnoringAsciiCase h⟩

theorem Tidy.knowsByName {n : Node} (h : n.Tidy) : n.KnowsByName where
  key k hk v hv := by
    unfold byName
    rw [Kind.keyOfName?_keyText hk]
    exact (h k).find?_of_mem_values hv
  file k hk v hv file hfile := by
    refine ⟨k.keyText (k.key v), (Storage.fileName_ok hfile).1, ?_⟩
    unfold byName
    rw [Kind.keyOfName?_keyText hk]
    exact (h k).find?_of_mem_values hv
  spelling k hk v hv name hname := by
    unfold byName
    rw [Kind.keyOfName?_eq_of_same hname, Kind.keyOfName?_nameOf hk]
    exact (h k).find?_of_mem_values hv
  group _ _ hs := NameKey.ofName_eq_of_sameIgnoringAsciiCase (List.mem_filter.1 hs).2
  wrapper _ _ hs := key_of_any (List.mem_filter.1 hs).2
  server _ _ hp := key_of_any (List.mem_filter.1 hp).2

end Node

/-- What the removal of a name takes out of a list of names has the key of the name. -/
theorem Template.key_of_removed {names : List String} {name old : String} (hold : old ∈ names)
    (hgone : old ∉ removeName names name) : NameKey.ofName old = .ofName name := by
  apply NameKey.ofName_eq_of_sameIgnoringAsciiCase
  by_contra hdiffers
  exact hgone (List.mem_filter.2 ⟨hold, by simpa using hdiffers⟩)

/-- Keys of names are a normal form: a key is its own key, whatever the characters, and names that
differ at most in the case of ASCII letters have the same key. So in every list of names and on
every node, whatever has happened to it, what is found by its name is found by its key and by its
file as well, and what a scan takes for one name is one identity. -/
theorem keys_are_normal_forms :
    (∀ name, NameKey.ofName (NameKey.ofName name).text = .ofName name) ∧
    (∀ s t, sameIgnoringAsciiCase s t = true → NameKey.ofName s = .ofName t) ∧
    (∀ names name, ∀ old ∈ names, old ∉ Template.removeName names name →
      NameKey.ofName old = .ofName name) ∧
    ∀ n : Node, n.Reachable → n.KnowsByName :=
  ⟨NameKey.ofName_text_ofName, fun _ _ => NameKey.ofName_eq_of_sameIgnoringAsciiCase,
    fun _ _ _ => Template.key_of_removed, fun _ h => h.tidy.knowsByName⟩

/-! ### A name whose capital sigma stands behind an ASCII letter -/

namespace FinalSigma

/-- The steps by which a template of such a name is put into a list. -/
def steps : List Step :=
  [.start 0 (.change ⟨.template, .new "AΣ", .update, false, false⟩), .poll 0]

def node : Node :=
  (((Traffic.new [.new .standard .none none none]).run steps).world[0]?).getD
    (.new .standard .none none none)

theorem reachable_node : node.Reachable := by
  refine ⟨[.new .standard .none none none], steps, 0, ?_, rfl⟩
  intro m hm
  exact ⟨_, _, _, _, List.mem_singleton.1 hm⟩

/-- The sigma is final, whatever the case of the letter in front of it. The template is found by
its key, by its file and with the small letter, and the edit that removes the other spelling removes
the name. -/
theorem keys_are_normal_forms_sigma :
    (NameKey.ofName "AΣ").text = "aς" ∧ NameKey.ofName "aς" = .ofName "AΣ" ∧
    sameIgnoringAsciiCase "aΣ" "AΣ" = true ∧ NameKey.ofName "aΣ" = .ofName "AΣ" ∧
    "AΣ" ∉ Template.removeName ["AΣ"] "aΣ" ∧ NameKey.ofName "AΣ" = .ofName "aΣ" ∧
    node.Reachable ∧ node.byName .template "aς" = some (Template.new "AΣ") ∧
    (∃ stem, "aς.json" = stem ++ ".json" ∧ node.byName .template stem = some (Template.new "AΣ")) ∧
    node.byName .template "aΣ" = some (Template.new "AΣ") := by
  obtain ⟨hsettled, hspelling, hremoved, hknows⟩ := keys_are_normal_forms
  have hknows' := hknows node reachable_node
  have hkey : (NameKey.ofName "AΣ").text = "aς" := by decide +kernel
  have hsame : sameIgnoringAsciiCase "aΣ" "AΣ" = true := by decide +kernel
  have hgone : "AΣ" ∉ Template.removeName ["AΣ"] "aΣ" := by decide +kernel
  have hmem : Template.new "AΣ" ∈ node.values .template := by decide +kernel
  have htext : Kind.template.keyText (Kind.template.key (Template.new "AΣ")) = "aς" := hkey
  have hbykey := hknows'.key .template (by decide) _ hmem
  have hbyfile := hknows'.file .template (by decide) _ hmem "aς.json"
  rw [htext] at hbykey hbyfile
  exact ⟨hkey, hkey ▸ hsettled "AΣ", hsame, hspelling _ _ hsame, hgone,
    hremoved ["AΣ"] "aΣ" "AΣ" List.mem_cons_self hgone, reachable_node, hbykey,
    hbyfile (by decide +kernel), hknows'.spelling .template (by decide) _ hmem "aΣ" hsame⟩

end FinalSigma

end CloudRoster
