import CloudRoster.Json.Codec
import CloudRoster.Proofs.Json.Numerals

/-!
# Texts of values

A script is a value of the grammar down to its characters: every spelling of its strings and numbers
and all blanks are in it, and values are nested as deep as one likes. Its text is scanned as its
tokens, and from the tokens the builder makes a draft in which nothing is missing (`ofText_script`).
So a script can always be skipped (`skip_draft`), and one that says a value has the draft of that
value (`draft_eq_of_said`).
-/

namespace CloudRoster.Json

open Scanner

/-- An item of an array with the blanks around it. -/
structure Item (S : Type) where
  before : Blanks
  value : S
  behind : Blanks

/-- A member of an object with the blanks around its parts. -/
structure Member (S : Type) where
  before : Blanks
  key : List Piece
  /-- What stands between the key and the colon. -/
  gap : Blanks
  /-- What stands between the colon and the value. -/
  after : Blanks
  value : S
  behind : Blanks

/-- A value as the grammar admits it. Containers have blanks inside of their last bracket. -/
inductive Script where
  | null
  | boolean (value : Bool)
  | number (figure : Figure)
  | text (pieces : List Piece)
  | list (items : List (Item Script)) (inside : Blanks)
  | map (members : List (Member Script)) (inside : Blanks)

/-- What stands in front of an item or a member: a comma, unless it is the first. -/
def separatorChars (first : Bool) : List Char := if first then [] else [',']

/-- The tokens in front of an item or a member. -/
def separatorTokens (first : Bool) : List Token := if first then [] else [.comma]

mutual

/-- The characters of a value. -/
def Script.chars : Script → List Char
  | .null => ['n', 'u', 'l', 'l']
  | .boolean true => ['t', 'r', 'u', 'e']
  | .boolean false => ['f', 'a', 'l', 's', 'e']
  | .number f => f.chars
  | .text ps => stringChars ps
  | .list items inside => '[' :: (itemsChars true items ++ inside.chars ++ [']'])
  | .map members inside => '\x7b' :: (membersChars true members ++ inside.chars ++ ['\x7d'])

/-- The characters of the items of an array. -/
def itemsChars (first : Bool) : List (Item Script) → List Char
  | [] => []
  | ⟨before, value, behind⟩ :: items =>
    separatorChars first ++ (before.chars ++ value.chars ++ behind.chars ++ itemsChars false items)

/-- The characters of the members of an object. -/
def membersChars (first : Bool) : List (Member Script) → List Char
  | [] => []
  | ⟨before, key, gap, after, value, behind⟩ :: members =>
    separatorChars first ++ (before.chars ++ stringChars key ++ gap.chars ++
      ':' :: (after.chars ++ value.chars ++ behind.chars ++ membersChars false members))

end

mutual

/-- The tokens of a value. -/
def Script.tokens : Script → List Token
  | .null => [.null]
  | .boolean b => [.boolean b]
  | .number f => [f.token]
  | .text ps => [.ofText (stringOutcome ps)]
  | .list items _ => .openList :: (itemsTokens true items ++ [.closeList])
  | .map members _ => .openMap :: (membersTokens true members ++ [.closeMap])

/-- The tokens of the items of an array. -/
def itemsTokens (first : Bool) : List (Item Script) → List Token
  | [] => []
  | ⟨_, value, _⟩ :: items => separatorTokens first ++ (value.tokens ++ itemsTokens false items)

/-- The tokens of the members of an object. -/
def membersTokens (first : Bool) : List (Member Script) → List Token
  | [] => []
  | ⟨_, key, _, _, value, _⟩ :: members =>
    separatorTokens first ++
      (.ofText (stringOutcome key) :: .colon :: (value.tokens ++ membersTokens false members))

end

/-! ## Scanning -/

/-- The state behind a value that a comma or a closing bracket follows. -/
theorem scan_delimiter {s : Scanner} {ts : List Token} (h : Rests s ts) {c : Char}
    (hc : IsDelimiter c) (cs : List Char) : s.scan (c :: cs) = (begin ts (some c)).scan cs := by
  rw [scan_cons, h.step_delimiter hc]

theorem scan_separator {s : Scanner} {ts : List Token} {first : Bool} (h : Rests s ts)
    (hfirst : first = true → s = ⟨.idle, ts⟩) :
    s.scan (separatorChars first) = ⟨.idle, separatorTokens first ++ ts⟩ := by
  cases first with
  | true => exact hfirst rfl
  | false => exact scan_delimiter h (.inl rfl) []

mutual

/-- A value is scanned as its tokens. -/
theorem scan_script (ts : List Token) :
    (s : Script) → Rests ((⟨.idle, ts⟩ : Scanner).scan s.chars) (s.tokens.reverse ++ ts)
  | .null => .idle _
  | .boolean true => .idle _
  | .boolean false => .idle _
  | .number f => f.rests ts
  | .text ps => by
    rw [Script.chars, Script.tokens, scan_string]
    exact .idle _
  | .list items inside => by
    have hopen : (⟨.idle, ts⟩ : Scanner).step (some '[') = ⟨.idle, .openList :: ts⟩ := rfl
    have hitems := scan_items true (.idle (.openList :: ts)) (fun _ => rfl) items
    -- the bracket also completes a number that still rests in the scanner
    rw [Script.chars, scan_cons, hopen, scan_append, scan_append,
      scan_delimiter (hitems.scan_blanks inside) (.inr (.inl rfl))]
    have htokens : (Script.list items inside).tokens.reverse ++ ts =
        .closeList :: ((itemsTokens true items).reverse ++ .openList :: ts) := by
      simp [Script.tokens]
    rw [htokens]
    exact .idle _
  | .map members inside => by
    have hopen : (⟨.idle, ts⟩ : Scanner).step (some '\x7b') = ⟨.idle, .openMap :: ts⟩ := rfl
    have hmembers := scan_members true (.idle (.openMap :: ts)) (fun _ => rfl) members
    rw [Script.chars, scan_cons, hopen, scan_append, scan_append,
      scan_delimiter (hmembers.scan_blanks inside) (.inr (.inr rfl))]
    have htokens : (Script.map members inside).tokens.reverse ++ ts =
        .closeMap :: ((membersTokens true members).reverse ++ .openMap :: ts) := by
      simp [Script.tokens]
    rw [htokens]
    exact .idle _

/-- Items are scanned as their tokens. -/
theorem scan_items {s : Scanner} {ts : List Token} (first : Bool) (h : Rests s ts)
    (hfirst : first = true → s = ⟨.idle, ts⟩) : (items : List (Item Script)) →
    Rests (s.scan (itemsChars first items)) ((itemsTokens first items).reverse ++ ts)
  | [] => h
  | ⟨before, value, behind⟩ :: items => by
    have hvalue := (scan_script (separatorTokens first ++ ts) value).scan_blanks behind
    have hitems := scan_items false hvalue (absurd · Bool.false_ne_true) items
    rw [itemsChars, scan_append, scan_separator h hfirst, scan_append, scan_append, scan_append,
      scan_blanks]
    have htokens : (itemsTokens first (⟨before, value, behind⟩ :: items)).reverse ++ ts =
        (itemsTokens false items).reverse ++
          (value.tokens.reverse ++ (separatorTokens first ++ ts)) := by
      cases first <;> simp [itemsTokens, separatorTokens]
    rw [htokens]
    exact hitems

/-- Members are scanned as their tokens. -/
theorem scan_members {s : Scanner} {ts : List Token} (first : Bool) (h : Rests s ts)
    (hfirst : first = true → s = ⟨.idle, ts⟩) : (members : List (Member Script)) →
    Rests (s.scan (membersChars first members)) ((membersTokens first members).reverse ++ ts)
  | [] => h
  | ⟨before, key, gap, after, value, behind⟩ :: members => by
    -- the key is a string, so the scanner is idle in front of the colon
    have hcolon : (⟨.idle, .ofText (stringOutcome key) :: (separatorTokens first ++ ts)⟩ :
        Scanner).step (some ':') =
        ⟨.idle, .colon :: .ofText (stringOutcome key) :: (separatorTokens first ++ ts)⟩ := rfl
    have hvalue := (scan_script
      (.colon :: .ofText (stringOutcome key) :: (separatorTokens first ++ ts)) value).scan_blanks
        behind
    have hmembers := scan_members false hvalue (absurd · Bool.false_ne_true) members
    rw [membersChars, scan_append, scan_separator h hfirst, scan_append, scan_append, scan_append,
      scan_blanks, scan_string, scan_blanks, scan_cons, hcolon, scan_append, scan_append,
      scan_append, scan_blanks]
    have htokens : (membersTokens first
        (⟨before, key, gap, after, value, behind⟩ :: members)).reverse ++ ts =
        (membersTokens false members).reverse ++ (value.tokens.reverse ++
          .colon :: .ofText (stringOutcome key) :: (separatorTokens first ++ ts)) := by
      cases first <;> simp [membersTokens, separatorTokens]
    rw [htokens]
    exact hmembers

end

/-! ## Building -/

/-- A value can stand next: at the very beginning, in an array that has not just got an item, or
behind the colon of a member. -/
def Awaits : List Open → Prop
  | [] => True
  | .list _ place :: _ => place ≠ .afterItem
  | .map _ (.afterColon _) :: _ => True
  | .map _ _ :: _ => False

/-- The tokens that a value begins with. -/
def Begins : Token → Prop
  | .openList | .openMap | .null | .boolean _ | .number _ | .text _ | .unreadable _ _ => True
  | _ => False

/-- Where a value can stand, a token that begins one is taken as such. -/
theorem step_of_begins {opened : List Open} (hopened : Awaits opened) {t : Token} (ht : Begins t) :
    Builder.step (.building opened) t = Builder.takeValue opened t := by
  match opened, hopened with
  | [], _ => rfl
  | .list items .start :: outer, _ | .list items .afterComma :: outer, _ =>
    cases t with
    | openList | openMap | null | boolean _ | number _ | text _ | unreadable _ _ => rfl
    | _ => exact ht.elim
  | .map members (.afterColon key) :: outer, _ => cases t <;> rfl

/-- The draft of a number of which this has come. -/
def Draft.ofNumber : Except Fault Number → Draft
  | .ok n => .number n
  | .error f => .unreadable .number f

/-- The draft of a string of which this has come. -/
def Draft.ofText : Except Fault String → Draft
  | .ok s => .text s
  | .error f => .unreadable .text f

/-- The key of a member that is a string of which this has come. -/
def Key.ofText : Except Fault String → Key
  | .ok s => .text s
  | .error f => .unreadable f

mutual

/-- The draft of a value. -/
def Script.draft : Script → Draft
  | .null => .null
  | .boolean b => .boolean b
  | .number f => .ofNumber f.numeral.value
  | .text ps => .ofText (stringOutcome ps)
  | .list items _ => .list (itemsDrafts items) .closed
  | .map members _ => .map (membersDrafts members)

/-- The drafts of the items of an array. -/
def itemsDrafts : List (Item Script) → List Draft
  | [] => []
  | ⟨_, value, _⟩ :: items => value.draft :: itemsDrafts items

/-- The drafts of the members of an object. -/
def membersDrafts : List (Member Script) → List (Key × Draft)
  | [] => []
  | ⟨_, key, _, _, value, _⟩ :: members =>
    (.ofText (stringOutcome key), value.draft) :: membersDrafts members

end

theorem takeValue_number (opened : List Open) (f : Figure) :
    Builder.takeValue opened f.token = Builder.deliver (.ofNumber f.numeral.value) opened := by
  unfold Figure.token Numeral.token
  cases f.numeral.value <;> rfl

theorem takeValue_text (opened : List Open) (r : Except Fault String) :
    Builder.takeValue opened (.ofText r) = Builder.deliver (.ofText r) opened := by
  cases r <;> rfl

theorem begins_number (f : Figure) : Begins f.token := by
  unfold Figure.token Numeral.token
  cases f.numeral.value <;> trivial

theorem begins_text (r : Except Fault String) : Begins (.ofText r) := by cases r <;> trivial

/-- Where an array or object stands between two of its parts. -/
def listPlace (first : Bool) : ListPlace := if first then .start else .afterItem

/-- Where an object stands between two of its members. -/
def mapPlace (first : Bool) : MapPlace := if first then .start else .afterMember

mutual

/-- The tokens of a value make its draft. -/
theorem foldl_tokens (opened : List Open) (h : Awaits opened) : (s : Script) →
    s.tokens.foldl Builder.step (.building opened) = Builder.deliver s.draft opened
  | .null => step_of_begins h trivial
  | .boolean b => step_of_begins h (t := .boolean b) trivial
  | .number f => (step_of_begins h (begins_number f)).trans (takeValue_number opened f)
  | .text ps =>
    (step_of_begins h (begins_text (stringOutcome ps))).trans
      (takeValue_text opened (stringOutcome ps))
  | .list items inside => by
    have hitems := foldl_itemsTokens true [] opened items
    have hclose : Builder.step (.building
        (.list ((itemsDrafts items).reverse ++ []) (listPlace (true && items.isEmpty)) :: opened))
        .closeList = Builder.deliver (.list (itemsDrafts items) .closed) opened := by
      cases items with
      | nil => rfl
      | cons item items =>
        show Builder.deliver (.list ((itemsDrafts (item :: items)).reverse ++ []).reverse .closed)
          opened = _
        simp
    rw [Script.tokens, List.foldl_cons, step_of_begins h (t := .openList) trivial,
      List.foldl_append]
    show List.foldl _ (List.foldl _
      (Builder.building (.list [] (listPlace true) :: opened)) _) _ = _
    rw [hitems]
    exact hclose
  | .map members inside => by
    have hmembers := foldl_membersTokens true [] opened members
    have hclose : Builder.step (.building (.map ((membersDrafts members).reverse ++ [])
        (mapPlace (true && members.isEmpty)) :: opened)) .closeMap =
        Builder.deliver (.map (membersDrafts members)) opened := by
      cases members with
      | nil => rfl
      | cons member members =>
        show Builder.deliver (.map ((membersDrafts (member :: members)).reverse ++ []).reverse)
          opened = _
        simp
    rw [Script.tokens, List.foldl_cons, step_of_begins h (t := .openMap) trivial,
      List.foldl_append]
    show List.foldl _ (List.foldl _
      (Builder.building (.map [] (mapPlace true) :: opened)) _) _ = _
    rw [hmembers]
    exact hclose

/-- The tokens of items add their drafts to the array. -/
theorem foldl_itemsTokens (first : Bool) (read : List Draft) (outer : List Open) :
    (items : List (Item Script)) →
    (itemsTokens first items).foldl Builder.step
      (.building (.list read (listPlace first) :: outer)) =
      .building (.list ((itemsDrafts items).reverse ++ read) (listPlace (first && items.isEmpty)) ::
        outer)
  | [] => by simp [itemsTokens, itemsDrafts]
  | ⟨before, value, behind⟩ :: items => by
    obtain ⟨place, hplace, hseparator⟩ : ∃ place, place ≠ ListPlace.afterItem ∧
        (separatorTokens first).foldl Builder.step
          (.building (.list read (listPlace first) :: outer)) =
          .building (.list read place :: outer) := by
      cases first with
      | true => exact ⟨.start, nofun, rfl⟩
      | false => exact ⟨.afterComma, nofun, rfl⟩
    have hvalue := foldl_tokens (.list read place :: outer) hplace value
    have hitems := foldl_itemsTokens false (value.draft :: read) outer items
    rw [itemsTokens, List.foldl_append, List.foldl_append, hseparator, hvalue]
    show List.foldl _ (Builder.building (.list (value.draft :: read) (listPlace false) :: outer)) _
      = _
    rw [hitems]
    simp [itemsDrafts]

/-- The tokens of members add their drafts to the object. -/
theorem foldl_membersTokens (first : Bool) (read : List (Key × Draft)) (outer : List Open) :
    (members : List (Member Script)) →
    (membersTokens first members).foldl Builder.step
      (.building (.map read (mapPlace first) :: outer)) =
      .building (.map ((membersDrafts members).reverse ++ read)
        (mapPlace (first && members.isEmpty)) :: outer)
  | [] => by simp [membersTokens, membersDrafts]
  | ⟨before, key, gap, after, value, behind⟩ :: members => by
    let label := Key.ofText (stringOutcome key)
    have hlabel : ([.ofText (stringOutcome key), .colon] : List Token).foldl Builder.step
        ((separatorTokens first).foldl Builder.step
          (.building (.map read (mapPlace first) :: outer))) =
        .building (.map read (.afterColon label) :: outer) := by
      cases first <;> cases hkey : stringOutcome key <;> simp [label, hkey] <;> rfl
    have hvalue := foldl_tokens (.map read (.afterColon label) :: outer) trivial value
    have hmembers := foldl_membersTokens false ((label, value.draft) :: read) outer members
    have hsplit : membersTokens first (⟨before, key, gap, after, value, behind⟩ :: members) =
        separatorTokens first ++ ([.ofText (stringOutcome key), .colon] ++
          (value.tokens ++ membersTokens false members)) := rfl
    rw [hsplit, List.foldl_append, List.foldl_append, hlabel, List.foldl_append, hvalue]
    show List.foldl _
      (Builder.building (.map ((label, value.draft) :: read) (mapPlace false) :: outer)) _ = _
    rw [hmembers]
    simp [membersDrafts, label]

end

/-! ## Texts -/

/-- The text of a value with blanks around it. -/
def Script.inText (before : Blanks) (s : Script) (behind : Blanks) : String :=
  String.ofList (before.chars ++ s.chars ++ behind.chars)

/-- The text of a value is the text of its draft, with nothing behind it. -/
theorem ofText_script (before : Blanks) (s : Script) (behind : Blanks) :
    Document.ofText (s.inText before behind) = ⟨s.draft, false⟩ := by
  have hrests := (scan_script [] s).scan_blanks behind
  have hscan : (((s.inText before behind).toList.map some).foldl Scanner.step .start) =
      (((⟨.idle, []⟩ : Scanner).scan before.chars).scan s.chars).scan behind.chars := by
    rw [Script.inText, String.toList_ofList, List.foldl_map, ← scan_append, ← scan_append,
      ← List.append_assoc]
    rfl
  have htokens : tokensOfText (s.inText before behind) = s.tokens := by
    rw [tokensOfText_eq, tokens, hscan, scan_blanks, hrests.finish]
    simp
  unfold Document.ofText Document.ofTokens
  rw [htokens, foldl_tokens [] trivial s]
  rfl

/-! ## Skipping -/

mutual

/-- Every value can be skipped, however deep it is. -/
theorem skip_draft : (s : Script) → s.draft.skip = .ok ()
  | .null => rfl
  | .boolean _ => rfl
  | .number f => by
    rw [Script.draft]
    cases f.numeral.value <;> rfl
  | .text ps => by
    rw [Script.draft]
    cases stringOutcome ps <;> rfl
  | .list items _ => by
    rw [Script.draft, Draft.skip, skip_items items]
    rfl
  | .map members _ => by
    rw [Script.draft, Draft.skip, skip_members members]

theorem skip_items : (items : List (Item Script)) → skipItems (itemsDrafts items) = .ok ()
  | [] => rfl
  | ⟨_, value, _⟩ :: items => by
    rw [itemsDrafts, skipItems, skip_draft value, skip_items items]
    rfl

theorem skip_members : (members : List (Member Script)) →
    skipMembers (membersDrafts members) = .ok ()
  | [] => rfl
  | ⟨_, _, _, _, value, _⟩ :: members => by
    rw [membersDrafts, skipMembers, skip_draft value, skip_members members]
    rfl

end

/-! ## What a script says -/

mutual

/-- A script says a value: its strings say the texts, and its numbers are integers as they are
written. -/
def Script.Says : Script → Json → Prop
  | .null, .null => True
  | .boolean b, .boolean c => b = c
  | .number f, .number (.integer n) => IsWord n ∧ f.chars = (Number.integer n).text.toList
  | .text ps, .text s => textOf? ps = some s
  | .list items _, .list values => ItemsSay items values
  | .map members _, .map values => MembersSay members values
  | _, _ => False

/-- Items say the items of an array. -/
def ItemsSay : List (Item Script) → List Json → Prop
  | [], [] => True
  | ⟨_, item, _⟩ :: items, value :: values => item.Says value ∧ ItemsSay items values
  | _, _ => False

/-- Members say the members of an object, in order. -/
def MembersSay : List (Member Script) → List (String × Json) → Prop
  | [], [] => True
  | ⟨_, label, _, _, member, _⟩ :: members, (key, value) :: values =>
    textOf? label = some key ∧ member.Says value ∧ MembersSay members values
  | _, _ => False

end

mutual

/-- A script that says a value has the draft of the value. -/
theorem draft_eq_of_said : (s : Script) → (v : Json) → s.Says v → s.draft = v.draft
  | .null, .null, _ => rfl
  | .boolean b, .boolean c, h => by
    have hsame : b = c := by simpa [Script.Says] using h
    rw [hsame]
    rfl
  | .number f, .number (.integer n), h => by
    have hsay : IsWord n ∧ f.chars = (Number.integer n).text.toList := by
      simpa [Script.Says] using h
    rw [Script.draft, f.value_of_chars hsay.1 hsay.2]
    rfl
  | .text ps, .text s, h => by
    have htext : textOf? ps = some s := by simpa [Script.Says] using h
    rw [Script.draft, stringOutcome_of_textOf? htext]
    rfl
  | .list items _, .list values, h => by
    have hsay : ItemsSay items values := by simpa [Script.Says] using h
    rw [Script.draft, draft, drafts_eq_of_itemsSay items values hsay]
  | .map members _, .map values, h => by
    have hsay : MembersSay members values := by simpa [Script.Says] using h
    rw [Script.draft, draft, drafts_eq_of_membersSay members values hsay]

theorem drafts_eq_of_itemsSay : (items : List (Item Script)) → (values : List Json) →
    ItemsSay items values → itemsDrafts items = draftItems values
  | [], [], _ => rfl
  | ⟨_, item, _⟩ :: items, value :: values, h => by
    have hsay : item.Says value ∧ ItemsSay items values := by simpa [ItemsSay] using h
    rw [itemsDrafts, draftItems, draft_eq_of_said item value hsay.1,
      drafts_eq_of_itemsSay items values hsay.2]

theorem drafts_eq_of_membersSay : (members : List (Member Script)) →
    (values : List (String × Json)) → MembersSay members values →
    membersDrafts members = draftMembers values
  | [], [], _ => rfl
  | ⟨_, label, _, _, member, _⟩ :: members, (key, value) :: values, h => by
    have hsay : textOf? label = some key ∧ member.Says value ∧ MembersSay members values := by
      simpa [MembersSay] using h
    rw [membersDrafts, draftMembers, stringOutcome_of_textOf? hsay.1,
      draft_eq_of_said member value hsay.2.1, drafts_eq_of_membersSay members values hsay.2.2]
    rfl

end

end CloudRoster.Json
