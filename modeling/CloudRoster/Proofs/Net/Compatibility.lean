import CloudRoster.Proofs.Json.Tolerance
import CloudRoster.Proofs.Net.RoundTrip

/-!
# Peers of other versions

A peer of another version may know fields that are not known here, or not know all that are. Which
of its texts are understood is decided by the fields that may be left out: those of an optional
value, and those with a default.
-/

namespace CloudRoster

open Json (Blanks Member Piece Script textOf?)

/-- Every compatible text of a value of any kind, or of a hello, decodes to it; and no text is
accepted that lacks one of the other fields or has a field twice. -/
theorem records_tolerant :
    Player.record.Tolerant ["connected_proxy_name", "connected_server_name"] ∧
    Group.record.Tolerant ["max_online_count", "priority", "start_port", "permission"] ∧
    Template.record.Tolerant ["inherited_template_names", "module_names_to_copy"] ∧
    Wrapper.record.Tolerant [] ∧
    Service.record.Tolerant ["wrapper_name"] ∧
    Hello.record.Tolerant ["list_names"] :=
  ⟨Player.lawful_record.tolerant rfl, Group.lawful_record.tolerant rfl,
    Template.lawful_record.tolerant rfl, Wrapper.lawful_record.tolerant rfl,
    Service.lawful_record.tolerant rfl, Hello.lawful_record.tolerant rfl⟩

namespace NewerPeer

/-- A string without escapes. -/
def plainly (s : String) : List Piece :=
  s.toList.filterMap fun c =>
    if h : c ≠ '"' ∧ c ≠ '\\' ∧ ¬ c.toNat < 0x20 then some (.plain c h.1 h.2.1 h.2.2) else none

/-- The members of a hello without names of lists: one that is not known here, the name of the node,
with an escape in its key, and the version. -/
def members : List (Member Script) := [
  ⟨[.space], plainly "features", [], [.tab],
    .list [⟨[], .map [⟨[], plainly "version", [], [], .list [] [.space], []⟩] [], []⟩] [], []⟩,
  ⟨[.lineFeed], .unit ⟨0, false⟩ ⟨0, false⟩ ⟨6, false⟩ ⟨14, true⟩ :: plainly "ode_name", [.space],
    [], .text (plainly "Manager"), [.carriageReturn]⟩,
  ⟨[], plainly "version", [], [], .number (.ofInteger 1), []⟩]

theorem spelled_members : Hello.record.Spelled ⟨1, "Manager", []⟩ members where
  keys := by
    simp only [members, List.forall_mem_cons]
    exact ⟨⟨"features", rfl⟩, ⟨"node_name", rfl⟩, ⟨"version", rfl⟩, by simp⟩
  fields := by
    have hversion : (Script.number (.ofInteger 1)).Says (.number (.integer 1)) := by
      rw [Script.Says, Json.IsWord]
      exact ⟨by decide, rfl⟩
    have hname : (Script.text (plainly "Manager")).Says (.text "Manager") := by
      rw [Script.Says]
      rfl
    exact ⟨.given rfl hversion, .given rfl hname, .omitted rfl rfl, trivial⟩

/-- The hello is understood; without the version, or with the version twice, it is not. -/
theorem records_tolerant_hello :
    Hello.codec.decode ("\x7b \"features\":\t[\x7b\"version\":[ ]\x7d],\n" ++
      "\"\\u006Eode_name\" :\"Manager\"\r,\"version\":1\x7d\n") = .ok ⟨1, "Manager", []⟩ ∧
    (∃ fault, Hello.codec.decode
      "\x7b\n\"\\u006Eode_name\" :\"Manager\"\r\x7d" = .error fault) ∧
    ∃ fault, Hello.codec.decode "\x7b\"version\":1,\"version\":1\x7d" = .error fault := by
  obtain ⟨-, -, -, -, -, htolerant⟩ := records_tolerant
  have hversion : .required "version" .uint32 ∈ Hello.record.fields := List.mem_cons_self
  exact ⟨htolerant.decode_spelled _ members spelled_members [] [] [.lineFeed],
    htolerant.decode_missing _ hversion (by decide) [members[1]] rfl [] [] [],
    htolerant.decode_repeated _ hversion [members[2], members[2]] (by decide) [] [] []⟩

end NewerPeer

end CloudRoster
