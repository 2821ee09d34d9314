import CloudRoster.Json.Token

/-!
# Drafts

A draft is the readable part of a JSON text as a tree. Where the text goes wrong the tree stops, and
the place carries the cause, so that a reader that walks the tree from left to right meets exactly
the faults of the text, in order, together with the values that do not fit its type. A reader that
skips a value checks less than one that wants it, so a cause is kept as *what stood there* and each
kind of reader words it in its own way.

The tree is built in one pass over the tokens with a stack of the containers that are open.
-/

namespace CloudRoster.Json

/-- How an array ends. -/
inductive ListEnd where
  | closed
  /-- The text ends before an item or after one. -/
  | ended
  /-- The text ends after a comma. -/
  | endedAfterComma
  /-- The bracket follows a comma. -/
  | closedAfterComma
  /-- Neither a comma nor the bracket follows an item. -/
  | junk
  /-- The last item is itself broken. -/
  | cut
  deriving Repr, DecidableEq

/-- The key of a member: a text, or a complete string that names none. -/
inductive Key where
  | text (name : String)
  | unreadable (fault : Fault)
  deriving Repr, DecidableEq

/-- The readable part of a JSON value. -/
inductive Draft where
  | null
  | boolean (value : Bool)
  | number (value : Number)
  | text (value : String)
  /-- A complete literal without a value. -/
  | unreadable (kind : Literal) (fault : Fault)
  /-- A literal that breaks off. -/
  | broken (kind : Literal) (wanted skipped : Fault)
  /-- No value begins here. -/
  | nothing (fault : Fault)
  | list (items : List Draft) (ending : ListEnd)
  /-- An object whose braces are closed. -/
  | map (members : List (Key × Draft))
  /-- An object that ends wrongly behind a member, or before the first one. -/
  | openMap (members : List (Key × Draft)) (ending : ListEnd)
  /-- An object with something else than a string where a key should stand; `first` tells whether
  it is the first key. -/
  | strayKey (members : List (Key × Draft)) (first : Bool) (key : Draft)
  /-- An object with a key that no colon follows; `atEnd` tells whether the text ends there. -/
  | noColon (members : List (Key × Draft)) (key : Key) (atEnd : Bool)
  deriving Repr

/-! ## Building a draft -/

/-- Where the builder stands inside an array. -/
inductive ListPlace where
  | start
  | afterItem
  | afterComma
  deriving Repr, DecidableEq

/-- Where the builder stands inside an object. -/
inductive MapPlace where
  | start
  | afterMember
  | afterComma
  | afterKey (key : Key)
  | afterColon (key : Key)
  deriving Repr, DecidableEq

/-- A container that is open, with what it holds so far, last one first. -/
inductive Open where
  | list (items : List Draft) (place : ListPlace)
  | map (members : List (Key × Draft)) (place : MapPlace)
  deriving Repr

/-- The builder of a draft. -/
inductive Builder where
  /-- Containers are open, the innermost first; with none, the value is still to come. -/
  | building (opened : List Open)
  /-- The value is complete; `trailing` tells whether anything follows it. -/
  | complete (root : Draft) (trailing : Bool)
  /-- The text went wrong; nothing more is looked at. -/
  | failed (root : Draft)
  deriving Repr

namespace Builder

/-- A value is complete: it becomes part of the innermost container. -/
def deliver (d : Draft) : List Open → Builder
  | [] => .complete d false
  | .list items _ :: outer => .building (.list (d :: items) .afterItem :: outer)
  | .map members (.afterColon key) :: outer =>
    .building (.map ((key, d) :: members) .afterMember :: outer)
  | .map members _ :: outer => .building (.map members .afterMember :: outer)

/-- A value is broken: every open container is cut off behind it. -/
def abandon (d : Draft) : List Open → Draft
  | [] => d
  | .list items _ :: outer => abandon (.list (d :: items).reverse .cut) outer
  | .map members (.afterColon key) :: outer =>
    abandon (.openMap ((key, d) :: members).reverse .cut) outer
  | .map members _ :: outer => abandon (.openMap members.reverse .cut) outer

/-- The draft that a token in the place of a value begins with, if it is complete in itself. -/
def head : Token → Draft
  | .null => .null
  | .boolean b => .boolean b
  | .number n => .number n
  | .text s => .text s
  | .unreadable k f => .unreadable k f
  | .broken k w s => .broken k w s
  | .openList => .list [] .cut
  | .openMap => .openMap [] .cut
  | .closeList | .closeMap | .comma | .colon | .junk => .nothing .valueExpected

/-- Takes a token where a value should stand. -/
def takeValue (opened : List Open) (t : Token) : Builder :=
  match t with
  | .openList => .building (.list [] .start :: opened)
  | .openMap => .building (.map [] .start :: opened)
  | .null | .boolean _ | .number _ | .text _ | .unreadable _ _ => deliver (head t) opened
  | .broken _ _ _ | .closeList | .closeMap | .comma | .colon | .junk =>
    .failed (abandon (head t) opened)

/-- Takes a token where a key should stand. -/
def takeKey (members : List (Key × Draft)) (first : Bool) (outer : List Open) : Token → Builder
  | .text s => .building (.map members (.afterKey (.text s)) :: outer)
  | .unreadable .text f => .building (.map members (.afterKey (.unreadable f)) :: outer)
  | t => .failed (abandon (.strayKey members.reverse first (head t)) outer)

/-- Takes a token inside an array. -/
def takeInList (items : List Draft) (place : ListPlace) (outer : List Open) (t : Token) : Builder :=
  match place, t with
  | .start, .closeList => deliver (.list [] .closed) outer
  | .afterItem, .closeList => deliver (.list items.reverse .closed) outer
  | .afterItem, .comma => .building (.list items .afterComma :: outer)
  | .afterItem, _ => .failed (abandon (.list items.reverse .junk) outer)
  | .afterComma, .closeList => .failed (abandon (.list items.reverse .closedAfterComma) outer)
  | _, t => takeValue (.list items place :: outer) t

/-- Takes a token inside an object. -/
def takeInMap (members : List (Key × Draft)) (place : MapPlace) (outer : List Open) (t : Token) :
    Builder :=
  match place, t with
  | .start, .closeMap => deliver (.map []) outer
  | .start, t => takeKey members true outer t
  | .afterMember, .closeMap => deliver (.map members.reverse) outer
  | .afterMember, .comma => .building (.map members .afterComma :: outer)
  | .afterMember, _ => .failed (abandon (.openMap members.reverse .junk) outer)
  | .afterComma, .closeMap => .failed (abandon (.openMap members.reverse .closedAfterComma) outer)
  | .afterComma, t => takeKey members false outer t
  | .afterKey key, .colon => .building (.map members (.afterColon key) :: outer)
  | .afterKey key, _ => .failed (abandon (.noColon members.reverse key false) outer)
  | .afterColon key, t => takeValue (.map members (.afterColon key) :: outer) t

/-- Takes a token. -/
def step : Builder → Token → Builder
  | .building [], t => takeValue [] t
  | .building (.list items place :: outer), t => takeInList items place outer t
  | .building (.map members place :: outer), t => takeInMap members place outer t
  | .complete root _, _ => .complete root true
  | .failed root, _ => .failed root

end Builder

/-- A whole text: its value and whether anything follows it. -/
structure Document where
  /-- The value. -/
  root : Draft
  /-- Whether anything but blanks follows the value. -/
  trailing : Bool
  deriving Repr

namespace Builder

/-- The draft once all tokens have been taken. -/
def finish : Builder → Document
  | .complete root trailing => ⟨root, trailing⟩
  | .failed root => ⟨root, false⟩
  | .building [] => ⟨.nothing .endInValue, false⟩
  | .building (.list items .afterComma :: outer) =>
    ⟨abandon (.list items.reverse .endedAfterComma) outer, false⟩
  | .building (.list items _ :: outer) => ⟨abandon (.list items.reverse .ended) outer, false⟩
  | .building (.map members .afterComma :: outer) =>
    ⟨abandon (.openMap members.reverse .endedAfterComma) outer, false⟩
  | .building (.map members (.afterKey key) :: outer) =>
    ⟨abandon (.noColon members.reverse key true) outer, false⟩
  | .building (.map members (.afterColon key) :: outer) =>
    ⟨abandon (.nothing .endInValue) (.map members (.afterColon key) :: outer), false⟩
  | .building (.map members _ :: outer) => ⟨abandon (.openMap members.reverse .ended) outer, false⟩

end Builder

/-- The document that a sequence of tokens forms. -/
def Document.ofTokens (tokens : List Token) : Document :=
  (tokens.foldl Builder.step (.building [])).finish

/-- The document of a text given in units. -/
def Document.ofUnits (units : List Unit8) : Document := .ofTokens (tokens units)

/-- The document of a text. -/
def Document.ofText (s : String) : Document := .ofTokens (tokensOfText s)

/-! ## Skipping a value -/

/-- The fault of a reader that skips an array with this ending. -/
def ListEnd.skipList : ListEnd → Except Fault Unit
  | .closed => .ok ()
  | .ended => .error .endInList
  | .endedAfterComma => .error .endInValue
  | .closedAfterComma => .error .valueExpected
  | .junk | .cut => .error .listEndExpected

/-- The fault of a reader that skips an object with this ending. -/
def ListEnd.skipMap : ListEnd → Except Fault Unit
  | .closed => .ok ()
  | .ended | .endedAfterComma => .error .endInMap
  | .closedAfterComma => .error .keyNotText
  | .junk | .cut => .error .mapEndExpected

mutual

/-- Skips a value: nothing is checked that the grammar of complete literals does not need. -/
def Draft.skip : Draft → Except Fault Unit
  | .null | .boolean _ | .number _ | .text _ | .unreadable _ _ => .ok ()
  | .broken _ _ skipped => .error skipped
  | .nothing f => .error f
  | .list items ending => do skipItems items; ending.skipList
  | .map members => skipMembers members
  | .openMap members ending => do skipMembers members; ending.skipMap
  | .strayKey members _ key => do
    skipMembers members
    match key with
    | .broken .text _ skipped => .error skipped
    | _ => .error .keyNotText
  | .noColon members _ atEnd => do
    skipMembers members
    .error (if atEnd then .endInMap else .colonExpected)

/-- Skips the items of an array. -/
def skipItems : List Draft → Except Fault Unit
  | [] => .ok ()
  | item :: items => do item.skip; skipItems items

/-- Skips the members of an object. -/
def skipMembers : List (Key × Draft) → Except Fault Unit
  | [] => .ok ()
  | (_, value) :: members => do value.skip; skipMembers members

end

end CloudRoster.Json
