import CloudRoster.Proofs.Json.Script

/-!
# The compact form is read back

A value whose numbers are integers of at most 64 bits is written with the characters of a script
that says it (`writes_compact`), so the text is that of the draft of the value (`ofText_compact`).
The induction over the value is one over what its writer adds to a text.
-/

namespace CloudRoster.Json

/-! ## What a value is written with -/

mutual

/-- All numbers of a value are integers of at most 64 bits. -/
def Plain : Json → Prop
  | .null | .boolean _ | .text _ => True
  | .number (.integer n) => IsWord n
  | .number (.real _) => False
  | .list items => PlainItems items
  | .map members => PlainMembers members

/-- All items are plain. -/
def PlainItems : List Json → Prop
  | [] => True
  | item :: items => Plain item ∧ PlainItems items

/-- The values of all members are plain. -/
def PlainMembers : List (String × Json) → Prop
  | [] => True
  | (_, value) :: members => Plain value ∧ PlainMembers members

end

/-! ## Strings -/

/-- A text between quotation marks. -/
def quoted (s : String) : List Char := '"' :: (s.toList.flatMap escaped ++ ['"'])

theorem toList_pushEscaped (out : String) (c : Char) :
    (pushEscaped out c).toList = out.toList ++ escaped c := by
  have hfold : ∀ (cs : List Char) (out : String),
      (cs.foldl String.push out).toList = out.toList ++ cs := by
    intro cs
    induction cs with
    | nil => intro out; simp
    | cons d cs ih => intro out; simp [ih]
  unfold pushEscaped
  split
  · exact hfold _ _
  · rename_i h
    have hplain : escaped c = [c] := by
      simp only [Bool.or_eq_true, decide_eq_true_eq, not_or] at h
      simp [escaped, h]
    rw [hplain, String.toList_push]

theorem toList_writeText (out s : String) : (writeText out s).toList = out.toList ++ quoted s := by
  have hfold : ∀ (cs : List Char) (out : String),
      (cs.foldl pushEscaped out).toList = out.toList ++ cs.flatMap escaped := by
    intro cs
    induction cs with
    | nil => intro out; simp
    | cons c cs ih => intro out; simp [ih, toList_pushEscaped]
  unfold writeText quoted
  rw [String.toList_push, String.foldl_eq_foldl_toList, hfold, String.toList_push]
  simp

/-- A code unit that is no half of a pair says a character, whatever follows. -/
theorem charsOf?_unit {n : Nat} (hleading : ¬ IsLeading n) (htrailing : ¬ IsTrailing n)
    (ms : List Meaning) : charsOf? (.unit n :: ms) = (charsOf? ms).map (Char.ofNat n :: ·) := by
  match ms with
  | [] => simp [charsOf?, hleading, htrailing]
  | .char c :: ms => simp [charsOf?, hleading, htrailing]
  | .unit m :: ms => rw [charsOf?, if_neg hleading, if_neg htrailing]

/-- A character of a string is written as a piece that says it. -/
theorem exists_piece (c : Char) : ∃ p : Piece, p.chars = escaped c ∧
    ∀ ms, charsOf? (p.meaning :: ms) = (charsOf? ms).map (c :: ·) := by
  by_cases hescape : ∃ e : Escape, e.char = c ∧ escaped c = ['\\', e.letter]
  · obtain ⟨e, rfl, hchars⟩ := hescape
    exact ⟨.escape e, hchars.symm, fun ms => by rw [Piece.meaning, charsOf?]⟩
  -- a character without an escape of its own stands for itself or is written by number
  have hne : ∀ e : Escape, escaped e.char = ['\\', e.letter] → c ≠ e.char := by
    rintro e hchars rfl
    exact hescape ⟨e, rfl, hchars⟩
  have hquote : c ≠ '"' := hne .quote rfl
  have hslash : c ≠ '\\' := hne .backslash rfl
  by_cases hlow : c.toNat < 0x20
  · have hfeed : c ≠ '\n' := hne .lineFeed rfl
    have hreturn : c ≠ '\r' := hne .carriageReturn rfl
    have htab : c ≠ '\t' := hne .tab rfl
    have hback : c ≠ '\x08' := hne .backspace rfl
    have hform : c ≠ '\x0c' := hne .formFeed rfl
    have hcode : ((0 * 16 + 0) * 16 + c.toNat / 16) * 16 + c.toNat % 16 = c.toNat := by omega
    have hleading : ¬ IsLeading c.toNat := by unfold IsLeading; omega
    have htrailing : ¬ IsTrailing c.toNat := by unfold IsTrailing; omega
    refine ⟨.unit ⟨0, false⟩ ⟨0, false⟩ ⟨⟨c.toNat / 16, by omega⟩, false⟩
      ⟨⟨c.toNat % 16, by omega⟩, false⟩, ?_, fun ms => ?_⟩
    · simp only [escaped, if_neg hquote, if_neg hslash, if_pos hlow, if_neg hfeed, if_neg hreturn,
        if_neg htab, if_neg hback, if_neg hform]
      rfl
    · show charsOf? (.unit (((0 * 16 + 0) * 16 + c.toNat / 16) * 16 + c.toNat % 16) :: ms) = _
      rw [hcode, charsOf?_unit hleading htrailing, Char.ofNat_toNat]
  · refine ⟨.plain c hquote hslash hlow, ?_, fun ms => by rw [Piece.meaning, charsOf?]⟩
    simp only [escaped, if_neg hquote, if_neg hslash, if_neg hlow]
    rfl

/-- A string is written with pieces that say it. -/
theorem exists_pieces (s : String) : ∃ ps, stringChars ps = quoted s ∧ textOf? ps = some s := by
  have hall : ∀ cs : List Char, ∃ ps : List Piece, ps.flatMap Piece.chars = cs.flatMap escaped ∧
      charsOf? (ps.map Piece.meaning) = some cs := by
    intro cs
    induction cs with
    | nil => exact ⟨[], rfl, rfl⟩
    | cons c cs ih =>
      obtain ⟨p, hchars, hsaid⟩ := exists_piece c
      obtain ⟨ps, hrest, hread⟩ := ih
      refine ⟨p :: ps, ?_, ?_⟩
      · rw [List.flatMap_cons, List.flatMap_cons, hchars, hrest]
      · rw [List.map_cons, hsaid, hread, Option.map_some]
  obtain ⟨ps, hchars, hread⟩ := hall s.toList
  refine ⟨ps, ?_, ?_⟩
  · unfold stringChars quoted
    rw [hchars]
  · unfold textOf?
    rw [hread, Option.map_some, String.ofList_toList]

/-! ## Values -/

/-- A writer extends any text by the characters of a script that says the value. -/
def Writes (write : String → String) (v : Json) : Prop :=
  ∃ s : Script, s.Says v ∧ ∀ out, (write out).toList = out.toList ++ s.chars

/-- A writer extends any text by the characters of further items. -/
def WritesItems (write : String → String) (values : List Json) : Prop :=
  ∃ items, ItemsSay items values ∧
    ∀ out, (write out).toList = out.toList ++ itemsChars false items

/-- A writer extends any text by the characters of further members. -/
def WritesMembers (write : String → String) (values : List (String × Json)) : Prop :=
  ∃ members, MembersSay members values ∧
    ∀ out, (write out).toList = out.toList ++ membersChars false members

theorem writes_integer {n : Int} (h : IsWord n) :
    Writes (· ++ (Number.integer n).text) (.number (.integer n)) := by
  refine ⟨.number (.ofInteger n), ?_, fun out => ?_⟩
  · rw [Script.Says]
    exact ⟨h, Figure.chars_ofInteger n⟩
  · rw [String.toList_append, Script.chars, Figure.chars_ofInteger]

theorem writes_text (s : String) : Writes (writeText · s) (.text s) := by
  obtain ⟨ps, hchars, hsaid⟩ := exists_pieces s
  refine ⟨.text ps, ?_, fun out => ?_⟩
  · rw [Script.Says]
    exact hsaid
  · rw [toList_writeText, Script.chars, hchars]

mutual

/-- The compact form of a value is that of a script that says it. -/
theorem writes_compact : (v : Json) → Plain v → Writes (write · v) v
  | .null, _ => ⟨.null, trivial, fun out => by simp [write, Script.chars]⟩
  | .boolean true, _ => ⟨.boolean true, rfl, fun out => by simp [write, Script.chars]⟩
  | .boolean false, _ => ⟨.boolean false, rfl, fun out => by simp [write, Script.chars]⟩
  | .number (.integer n), h => writes_integer (by simpa [Plain] using h)
  | .number (.real x), h => by simp [Plain] at h
  | .text s, _ => writes_text s
  | .list [], _ => ⟨.list [] [], trivial, fun out => by simp [write, Script.chars, itemsChars]⟩
  | .list (item :: items), h => by
    have hplain : Plain item ∧ PlainItems items := by simpa [Plain, PlainItems] using h
    obtain ⟨s, hsaid, hs⟩ := writes_compact item hplain.1
    obtain ⟨ss, hsay, hss⟩ := writes_compactItems items hplain.2
    refine ⟨.list (⟨[], s, []⟩ :: ss) [], ?_, fun out => ?_⟩
    · rw [Script.Says, ItemsSay]
      exact ⟨hsaid, hsay⟩
    · simp [write, hs, hss, Script.chars, itemsChars, separatorChars]
  | .map [], _ => ⟨.map [] [], trivial, fun out => by simp [write, Script.chars, membersChars]⟩
  | .map ((key, value) :: members), h => by
    have hplain : Plain value ∧ PlainMembers members := by simpa [Plain, PlainMembers] using h
    obtain ⟨ps, hchars, htext⟩ := exists_pieces key
    obtain ⟨s, hsaid, hs⟩ := writes_compact value hplain.1
    obtain ⟨ss, hsay, hss⟩ := writes_compactMembers members hplain.2
    refine ⟨.map (⟨[], ps, [], [], s, []⟩ :: ss) [], ?_, fun out => ?_⟩
    · rw [Script.Says, MembersSay]
      exact ⟨htext, hsaid, hsay⟩
    · simp [write, hs, hss, toList_writeText, hchars, Script.chars, membersChars, separatorChars]

/-- Further items are written as items that say them. -/
theorem writes_compactItems : (items : List Json) → PlainItems items →
    WritesItems (writeItems · items) items
  | [], _ => ⟨[], trivial, fun out => by simp [writeItems, itemsChars]⟩
  | item :: items, h => by
    have hplain : Plain item ∧ PlainItems items := by simpa [PlainItems] using h
    obtain ⟨s, hsaid, hs⟩ := writes_compact item hplain.1
    obtain ⟨ss, hsay, hss⟩ := writes_compactItems items hplain.2
    refine ⟨⟨[], s, []⟩ :: ss, ?_, fun out => ?_⟩
    · rw [ItemsSay]
      exact ⟨hsaid, hsay⟩
    · simp [writeItems, hs, hss, itemsChars, separatorChars]

/-- Further members are written as members that say them. -/
theorem writes_compactMembers : (members : List (String × Json)) → PlainMembers members →
    WritesMembers (writeMembers · members) members
  | [], _ => ⟨[], trivial, fun out => by simp [writeMembers, membersChars]⟩
  | (key, value) :: members, h => by
    have hplain : Plain value ∧ PlainMembers members := by simpa [PlainMembers] using h
    obtain ⟨ps, hchars, htext⟩ := exists_pieces key
    obtain ⟨s, hsaid, hs⟩ := writes_compact value hplain.1
    obtain ⟨ss, hsay, hss⟩ := writes_compactMembers members hplain.2
    refine ⟨⟨[], ps, [], [], s, []⟩ :: ss, ?_, fun out => ?_⟩
    · rw [MembersSay]
      exact ⟨htext, hsaid, hsay⟩
    · simp [writeMembers, hs, hss, toList_writeText, hchars, membersChars, separatorChars]

end

/-- What is written by way of a script that says the value is the text of that script. -/
theorem Writes.exists_inText {w : String → String} {v : Json} (h : Writes w v) :
    ∃ s : Script, s.Says v ∧ w "" = s.inText [] [] := by
  obtain ⟨s, hsaid, hs⟩ := h
  refine ⟨s, hsaid, String.toList_inj.1 ?_⟩
  rw [hs ""]
  simp [Script.inText]

/-- It is also the text of the draft of the value, with nothing behind it. -/
theorem ofText_of_writes {w : String → String} {v : Json} (h : Writes w v) :
    Document.ofText (w "") = ⟨v.draft, false⟩ := by
  obtain ⟨s, hsaid, htext⟩ := h.exists_inText
  rw [htext, ofText_script, draft_eq_of_said s v hsaid]

/-- The compact form of a plain value is the text of its draft, with nothing behind it. -/
theorem ofText_compact {v : Json} (h : Plain v) : Document.ofText v.compact = ⟨v.draft, false⟩ :=
  ofText_of_writes (writes_compact v h)

end CloudRoster.Json
