import CloudRoster.Json.Codec
import CloudRoster.Text.Lowercase

/-!
# Keys of names

Groups, templates, wrappers and services are told apart by their names, whatever the case of the
letters. The key of a name is its lowercase form.
-/

namespace CloudRoster

/-- The key of a name. -/
structure NameKey where
  /-- The lowercase form of the name. -/
  text : String
  deriving Repr, DecidableEq

namespace NameKey

/-- The key of a name. -/
def ofName (name : String) : NameKey := ⟨Text.lowercase name⟩

/-- A key is written as its text, and read as the text stands: it is not lowered again. -/
def codec : Json.Codec NameKey where
  write k := .text k.text
  read medium d := (Json.Codec.text.read medium d).map mk

end NameKey

end CloudRoster
