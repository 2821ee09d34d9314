import CloudRoster.Identity.NameKey
import CloudRoster.Json.Record
import CloudRoster.Text.AsciiCase

/-!
# Templates

A template is a tree of files that a service is started with. It names the templates it inherits
from and the modules that are copied along. Names in these lists are added and removed whatever the
case of their ASCII letters.
-/

namespace CloudRoster

open Json (Codec Record Field)

/-- A tree of files for services. -/
structure Template where
  name : String
  /-- The templates it builds on. -/
  inheritedTemplateNames : List String
  /-- The modules copied along. -/
  moduleNamesToCopy : List String
  deriving Repr, DecidableEq

namespace Template

/-- A template that stands on its own. -/
def new (name : String) : Template := ⟨name, [], []⟩

/-- The fields of a template. -/
def record : Record Template where
  title := "Template"
  fields := [
    .required "name" .text, .defaulted "inherited_template_names" (.list .text) [],
    .defaulted "module_names_to_copy" (.list .text) []]
  toRow t := (t.name, t.inheritedTemplateNames, t.moduleNamesToCopy, ())
  ofRow := fun (name, inherited, modules, ()) => ⟨name, inherited, modules⟩
  ofRow_toRow _ := rfl
  toRow_ofRow _ := rfl

/-- How templates are written. -/
def codec : Codec Template := record.codec

/-- The key of a template. -/
def key (t : Template) : NameKey := .ofName t.name

/-! ## Staged changes -/

/-- The names without a name, whatever the case of its ASCII letters. -/
def removeName (names : List String) (name : String) : List String :=
  names.filter fun n => !Text.sameIgnoringAsciiCase n name

/-- The names with a name at the end, in place of any other spelling of it. -/
def addName (names : List String) (name : String) : List String :=
  removeName names name ++ [name]

/-- One staged change. -/
inductive Edit where
  | addInherited (name : String)
  | removeInherited (name : String)
  | addModule (name : String)
  | removeModule (name : String)
  deriving Repr, DecidableEq

/-- A template together with the changes staged against it. -/
structure Updater where
  /-- The template before the changes. -/
  baseline : Template
  inheritedTemplateNames : Option (List String)
  moduleNamesToCopy : Option (List String)
  deriving Repr, DecidableEq

/-- The template with no changes staged. -/
def updater (t : Template) : Updater := ⟨t, none, none⟩

namespace Updater

/-- The inherited templates as staged. -/
def inherited (u : Updater) : List String :=
  u.inheritedTemplateNames.getD u.baseline.inheritedTemplateNames

/-- The modules as staged. -/
def modules (u : Updater) : List String :=
  u.moduleNamesToCopy.getD u.baseline.moduleNamesToCopy

/-- Stages a change on top of the earlier ones. -/
def stage (u : Updater) : Edit → Updater
  | .addInherited name => { u with inheritedTemplateNames := some (addName u.inherited name) }
  | .removeInherited name => { u with inheritedTemplateNames := some (removeName u.inherited name) }
  | .addModule name => { u with moduleNamesToCopy := some (addName u.modules name) }
  | .removeModule name => { u with moduleNamesToCopy := some (removeName u.modules name) }

/-- The template with the staged changes. -/
def merge (u : Updater) : Template :=
  { u.baseline with inheritedTemplateNames := u.inherited, moduleNamesToCopy := u.modules }

/-- Whether anything is staged. -/
def hasChanges (u : Updater) : Bool :=
  u.inheritedTemplateNames.isSome || u.moduleNamesToCopy.isSome

end Updater

end Template

end CloudRoster
