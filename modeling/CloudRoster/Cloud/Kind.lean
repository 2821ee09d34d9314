import CloudRoster.Cloud.Event

/-!
# The kinds of values

The five kinds of values of which every node holds a list, with the types of their values and keys.
-/

namespace CloudRoster

open Json (Codec)

/-- A kind of value. -/
inductive Kind where
  | player
  | group
  | template
  | wrapper
  | service
  deriving Repr, DecidableEq

namespace Kind

/-- All kinds. -/
def all : List Kind := [player, group, template, wrapper, service]

/-- The short name of a kind. -/
def name : Kind → String
  | player => "player"
  | group => "group"
  | template => "template"
  | wrapper => "wrapper"
  | service => "service"

/-- The kind of a short name. -/
def ofName? (name : String) : Option Kind := all.find? (·.name = name)

/-- The short names tell the kinds apart. -/
theorem ofName?_name (k : Kind) : ofName? k.name = some k := by cases k <;> rfl

/-- The values of a kind. -/
abbrev Val : Kind → Type
  | player => Player
  | group => Group
  | template => Template
  | wrapper => Wrapper
  | service => Service

/-- The keys that tell the values of a kind apart. -/
abbrev Key : Kind → Type
  | player => Uuid
  | group | template | wrapper | service => NameKey

/-- Keys are compared for equality. -/
instance instDecidableEqKey : (k : Kind) → DecidableEq k.Key
  | player => inferInstanceAs (DecidableEq Uuid)
  | group | template | wrapper | service => inferInstanceAs (DecidableEq NameKey)

/-- Values are compared for equality. -/
instance instDecidableEqVal : (k : Kind) → DecidableEq k.Val
  | player => inferInstanceAs (DecidableEq Player)
  | group => inferInstanceAs (DecidableEq Group)
  | template => inferInstanceAs (DecidableEq Template)
  | wrapper => inferInstanceAs (DecidableEq Wrapper)
  | service => inferInstanceAs (DecidableEq Service)

/-- What values are about is compared by kind and key. -/
instance instDecidableEqSubject : DecidableEq ((k : Kind) × k.Key) :=
  fun a b => instDecidableEqSigma a b

/-- The name of a kind in messages. -/
def typeName : Kind → String
  | player => "cloud-player"
  | group => "service-group"
  | template => "template"
  | wrapper => "wrapper"
  | service => "cloud-service"

/-- The name of the list of a kind. -/
def listName : Kind → String
  | player => "player-cache"
  | group => "group-cache"
  | template => "template-cache"
  | wrapper => "wrapper-cache"
  | service => "service-cache"

/-- How the values of a kind are written. -/
def codec : (k : Kind) → Codec k.Val
  | player => Player.codec
  | group => Group.codec
  | template => Template.codec
  | wrapper => Wrapper.codec
  | service => Service.codec

/-- The key of a value. -/
def key : (k : Kind) → k.Val → k.Key
  | player => Player.uniqueId
  | group => Group.key
  | template => Template.key
  | wrapper => Wrapper.key
  | service => Service.key

/-- The text of a key. -/
def keyText : (k : Kind) → k.Key → String
  | player => Uuid.text
  | group | template | wrapper | service => NameKey.text

/-! ## Staged changes -/

/-- One staged change of a value of a kind. -/
abbrev Edit : Kind → Type
  | player => Player.Edit
  | group => Group.Edit
  | template => Template.Edit
  | wrapper => Wrapper.Edit
  | service => Service.Edit

/-- A value of a kind together with the changes staged against it. -/
abbrev Updater : Kind → Type
  | player => Player.Updater
  | group => Group.Updater
  | template => Template.Updater
  | wrapper => Wrapper.Updater
  | service => Service.Updater

/-- A value with no changes staged. -/
def updater : (k : Kind) → k.Val → k.Updater
  | player => Player.updater
  | group => Group.updater
  | template => Template.updater
  | wrapper => Wrapper.updater
  | service => Service.updater

/-- Stages a change. -/
def stage : (k : Kind) → k.Updater → k.Edit → k.Updater
  | player => Player.Updater.stage
  | group => Group.Updater.stage
  | template => Template.Updater.stage
  | wrapper => Wrapper.Updater.stage
  | service => Service.Updater.stage

/-- The value with the staged changes. -/
def merge : (k : Kind) → k.Updater → k.Val
  | player => Player.Updater.merge
  | group => Group.Updater.merge
  | template => Template.Updater.merge
  | wrapper => Wrapper.Updater.merge
  | service => Service.Updater.merge

/-- The value that the changes are staged against. -/
def baseline : (k : Kind) → k.Updater → k.Val
  | player => Player.Updater.baseline
  | group => Group.Updater.baseline
  | template => Template.Updater.baseline
  | wrapper => Wrapper.Updater.baseline
  | service => Service.Updater.baseline

/-- Whether anything is staged. -/
def hasChanges : (k : Kind) → k.Updater → Bool
  | player => Player.Updater.hasChanges
  | group => Group.Updater.hasChanges
  | template => Template.Updater.hasChanges
  | wrapper => Wrapper.Updater.hasChanges
  | service => Service.Updater.hasChanges

end Kind

/-- A value of some kind. -/
abbrev Value := (k : Kind) × k.Val

end CloudRoster
