import CloudRoster.Proofs.Json.Faithful

/-!
# The indented form is read back

Between the tokens of the indented form stand line breaks and spaces, which are blanks. So it is the
text of a script that says the value, like the compact form, and decodes to the same.
-/

namespace CloudRoster.Json

/-! ## Line breaks -/

/-- A line break that is followed by the indentation of a depth. -/
def lineBreak (depth : Nat) : Blanks := .lineFeed :: List.replicate (2 * depth) .space

theorem toList_newLine (out : String) (depth : Nat) :
    (newLine out depth).toList = out.toList ++ (lineBreak depth).chars := by
  have hfold : ∀ (n : Nat) (out : String),
      ((List.replicate n ' ').foldl String.push out).toList =
        out.toList ++ List.replicate n ' ' := by
    intro n
    induction n with
    | zero => intro out; simp
    | succ n ih => intro out; simp [List.replicate_succ, ih]
  unfold newLine lineBreak Blanks.chars
  rw [hfold, String.toList_push]
  simp [Blank.char]

/-! ## Values -/

mutual

/-- The indented form of a value is that of a script that says it. -/
theorem writes_indented (depth : Nat) : (v : Json) → Plain v →
    Writes (writeIndented depth · v) v
  | .null, h => by simpa [writeIndented, write] using writes_compact .null h
  | .boolean true, h => by simpa [writeIndented, write] using writes_compact (.boolean true) h
  | .boolean false, h => by simpa [writeIndented, write] using writes_compact (.boolean false) h
  | .number n, h => by simpa [writeIndented, write] using writes_compact (.number n) h
  | .text s, h => by simpa [writeIndented, write] using writes_compact (.text s) h
  | .list [], h => by simpa [writeIndented, write] using writes_compact (.list []) h
  | .map [], h => by simpa [writeIndented, write] using writes_compact (.map []) h
  | .list (item :: items), h => by
    have hplain : Plain item ∧ PlainItems items := by simpa [Plain, PlainItems] using h
    obtain ⟨s, hsaid, hs⟩ := writes_indented (depth + 1) item hplain.1
    obtain ⟨ss, hsay, hss⟩ := writes_indentedItems (depth + 1) items hplain.2
    refine ⟨.list (⟨lineBreak (depth + 1), s, []⟩ :: ss) (lineBreak depth), ?_, fun out => ?_⟩
    · rw [Script.Says, ItemsSay]
      exact ⟨hsaid, hsay⟩
    · simp [writeIndented, hs, hss, toList_newLine, Script.chars, itemsChars, separatorChars]
  | .map ((key, value) :: members), h => by
    have hplain : Plain value ∧ PlainMembers members := by simpa [Plain, PlainMembers] using h
    obtain ⟨ps, hchars, htext⟩ := exists_pieces key
    obtain ⟨s, hsaid, hs⟩ := writes_indented (depth + 1) value hplain.1
    obtain ⟨ss, hsay, hss⟩ := writes_indentedMembers (depth + 1) members hplain.2
    refine ⟨.map (⟨lineBreak (depth + 1), ps, [], [.space], s, []⟩ :: ss) (lineBreak depth), ?_,
      fun out => ?_⟩
    · rw [Script.Says, MembersSay]
      exact ⟨htext, hsaid, hsay⟩
    · simp [writeIndented, hs, hss, toList_newLine, toList_writeText, hchars, Script.chars,
        membersChars, separatorChars, Blanks.chars, Blank.char]

/-- Further items are written as items that say them. -/
theorem writes_indentedItems (depth : Nat) : (items : List Json) → PlainItems items →
    WritesItems (writeIndentedItems depth · items) items
  | [], _ => ⟨[], trivial, fun out => by simp [writeIndentedItems, itemsChars]⟩
  | item :: items, h => by
    have hplain : Plain item ∧ PlainItems items := by simpa [PlainItems] using h
    obtain ⟨s, hsaid, hs⟩ := writes_indented depth item hplain.1
    obtain ⟨ss, hsay, hss⟩ := writes_indentedItems depth items hplain.2
    refine ⟨⟨lineBreak depth, s, []⟩ :: ss, ?_, fun out => ?_⟩
    · rw [ItemsSay]
      exact ⟨hsaid, hsay⟩
    · simp [writeIndentedItems, hs, hss, toList_newLine, itemsChars, separatorChars]

/-- Further members are written as members that say them. -/
theorem writes_indentedMembers (depth : Nat) : (members : List (String × Json)) →
    PlainMembers members → WritesMembers (writeIndentedMembers depth · members) members
  | [], _ => ⟨[], trivial, fun out => by simp [writeIndentedMembers, membersChars]⟩
  | (key, value) :: members, h => by
    have hplain : Plain value ∧ PlainMembers members := by simpa [PlainMembers] using h
    obtain ⟨ps, hchars, htext⟩ := exists_pieces key
    obtain ⟨s, hsaid, hs⟩ := writes_indented depth value hplain.1
    obtain ⟨ss, hsay, hss⟩ := writes_indentedMembers depth members hplain.2
    refine ⟨⟨lineBreak depth, ps, [], [.space], s, []⟩ :: ss, ?_, fun out => ?_⟩
    · rw [MembersSay]
      exact ⟨htext, hsaid, hsay⟩
    · simp [writeIndentedMembers, hs, hss, toList_newLine, toList_writeText, hchars, membersChars,
        separatorChars, Blanks.chars, Blank.char]

end

/-! ## Texts -/

/-- The indented form of a plain value is the text of its draft, with nothing behind it. -/
theorem ofText_indented {v : Json} (h : Plain v) :
    Document.ofText v.indented = ⟨v.draft, false⟩ := ofText_of_writes (writes_indented 0 v h)

/-- An indented text decodes to the value that it was written for. -/
theorem Codec.Faithful.decode_indented {α : Type} {c : Codec α} (h : c.Faithful) (a : α) :
    c.decode (c.write a).indented = .ok a := by
  unfold Codec.decode
  rw [ofText_indented (h.plain a), Codec.readDocument, h.read_draft]
  rfl

end CloudRoster.Json
