import CloudRoster.Cache.Entries
import CloudRoster.Cloud.Kind

/-!
# The lists of a node

One list for each kind of value.
-/

namespace CloudRoster

open Cache (Entries)

/-- The entries of all lists. -/
structure Lists where
  players : Entries Uuid Player
  groups : Entries NameKey Group
  templates : Entries NameKey Template
  wrappers : Entries NameKey Wrapper
  services : Entries NameKey Service
  deriving DecidableEq

namespace Lists

/-- Lists without values. -/
def empty : Lists := ⟨[], [], [], [], []⟩

/-- The entries of a kind. -/
def get (l : Lists) : (k : Kind) → Entries k.Key k.Val
  | .player => l.players
  | .group => l.groups
  | .template => l.templates
  | .wrapper => l.wrappers
  | .service => l.services

/-- The lists with other entries of a kind. -/
def set (l : Lists) : (k : Kind) → Entries k.Key k.Val → Lists
  | .player, es => { l with players := es }
  | .group, es => { l with groups := es }
  | .template, es => { l with templates := es }
  | .wrapper, es => { l with wrappers := es }
  | .service, es => { l with services := es }

theorem get_set_self (l : Lists) (k : Kind) (es : Entries k.Key k.Val) :
    (l.set k es).get k = es := by
  cases k <;> rfl

theorem get_set_of_ne (l : Lists) {j k : Kind} (h : j ≠ k) (es : Entries k.Key k.Val) :
    (l.set k es).get j = l.get j := by
  cases j <;> cases k <;> first | exact absurd rfl h | rfl

end Lists

end CloudRoster
