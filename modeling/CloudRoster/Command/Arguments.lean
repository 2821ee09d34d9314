import CloudRoster.Node.Config

/-!
# The arguments of the program

The options that the program takes and the values they need. A value follows its option as the next
argument, after a sign of equality, or right behind the letter of the option; the letters of flags
may be joined. What an option is given is looked at when the next option begins or the arguments
end, so that of two mistakes the one that is met first at such a point is reported.
-/

namespace CloudRoster.Command

open Net (SocketAddr)

/-- An option of the program. -/
inductive Opt where
  | config
  | name
  | role
  | listen
  | peer
  | dataDir
  | verbose
  | help
  deriving Repr, DecidableEq

namespace Opt

/-- All options, in the order of the help. -/
def all : List Opt := [config, name, role, listen, peer, dataDir, verbose, help]

/-- The letter of an option. -/
def letter : Opt → Option Char
  | config => some 'c'
  | name => some 'n'
  | role => some 'r'
  | listen => some 'l'
  | peer => some 'p'
  | dataDir => none
  | verbose => some 'v'
  | help => some 'h'

/-- The word of an option. -/
def word : Opt → String
  | config => "config"
  | name => "name"
  | role => "role"
  | listen => "listen"
  | peer => "peer"
  | dataDir => "data-dir"
  | verbose => "verbose"
  | help => "help"

/-- What stands for the value of an option; flags have none. -/
def valueName : Opt → Option String
  | config => some "CONFIG"
  | name => some "NAME"
  | role => some "ROLE"
  | listen => some "LISTEN"
  | peer => some "PEERS"
  | dataDir => some "DATA_DIR"
  | verbose | help => none

/-- What an option is for. -/
def purpose : Opt → String
  | config => "Path to a TOML config file"
  | name => "Component name announced to peers"
  | role => "Role of this node (manager, wrapper, service)"
  | listen => "Address to accept peers on"
  | peer => "Peer to connect to (repeatable)"
  | dataDir => "Directory for stored groups and templates (manager only)"
  | verbose => "Enable verbose debug logging"
  | help => "Print help"

/-- An option as it is written, with what stands for its value. -/
def shown (o : Opt) : String :=
  "--" ++ o.word ++ (match o.valueName with
    | some v => " <" ++ v ++ ">"
    | none => "")

end Opt

/-- What is wrong with the arguments. -/
inductive UsageError where
  | unexpected (argument : String)
  | valueMissing (o : Opt)
  | invalidValue (value : String) (o : Opt) (reason : String)
  | repeated (o : Opt)
  /-- A flag is given a value. -/
  | unwantedValue (value : String) (o : Opt)
  deriving Repr, DecidableEq

namespace UsageError

/-- The wording of an error. -/
def message : UsageError → String
  | unexpected argument => "error: unexpected argument '" ++ argument ++ "' found"
  | valueMissing o => "error: a value is required for '" ++ o.shown ++ "' but none was supplied"
  | invalidValue value o reason =>
    "error: invalid value '" ++ value ++ "' for '" ++ o.shown ++ "': " ++ reason
  | repeated o => "error: the argument '" ++ o.shown ++ "' cannot be used multiple times"
  | unwantedValue value o =>
    "error: unexpected value '" ++ value ++ "' for '" ++ o.shown ++ "' found; no more were expected"

end UsageError

/-- Why the arguments are not followed. -/
inductive Halt where
  /-- The help is asked for. -/
  | help
  | usage (e : UsageError)
  deriving Repr, DecidableEq

/-- What the arguments say. -/
structure Arguments where
  /-- The path of a configuration file. -/
  config : Option String
  overrides : Overrides
  verbose : Bool
  deriving Repr, DecidableEq

namespace Arguments

/-- What no arguments say. -/
def none : Arguments := ⟨.none, ⟨.none, .none, .none, [], .none⟩, false⟩

/-! ## Values -/

/-- The address that a value names. -/
def addressOf (o : Opt) (v : String) : Except Halt SocketAddr :=
  match SocketAddr.ofText? v with
  | some a => .ok a
  | .none => .error (.usage (.invalidValue v o "invalid socket address syntax"))

/-- The path that a value names, which is not empty. -/
def pathOf (o : Opt) (v : String) : Except Halt String :=
  if v = "" then .error (.usage (.valueMissing o)) else .ok v

/-- The arguments with the value of an option. -/
def put (a : Arguments) (o : Opt) (v : String) : Except Halt Arguments :=
  let set (f : Overrides → Overrides) : Arguments := { a with overrides := f a.overrides }
  match o with
  | .config => do return { a with config := some (← pathOf o v) }
  | .name => .ok (set fun x => { x with nodeName := some v })
  | .role =>
    match Role.ofWord v with
    | .ok r => .ok (set fun x => { x with role := some r })
    | .error w => .error (.usage (.invalidValue v o (Role.unknownMessage w)))
  | .listen => do
    let addr ← addressOf o v
    return set fun x => { x with listen := some addr }
  | .peer => do
    let addr ← addressOf o v
    return set fun x => { x with peers := x.peers ++ [addr] }
  | .dataDir => do
    let path ← pathOf o v
    return set fun x => { x with dataDir := some path }
  | .verbose | .help => .ok { a with verbose := true }

/-! ## Reading -/

/-- The arguments as far as they have been read. -/
structure Progress where
  arguments : Arguments
  /-- The options that have been given already. -/
  given : List Opt
  /-- The last option, if what it is given has not been looked at; its value, if there is one. -/
  pending : Option (Opt × Option String)
  /-- Whether no more options are expected. -/
  past : Bool

namespace Progress

/-- Gives an option its value. Only a peer may be given more than once. -/
def give (p : Progress) (o : Opt) (v : String) : Except Halt Progress := do
  if o ≠ .peer && p.given.contains o then throw (.usage (.repeated o))
  return { p with arguments := ← p.arguments.put o v, given := o :: p.given }

/-- Looks at what the last option is given. -/
def resolve (p : Progress) : Except Halt Progress :=
  match p.pending with
  | .none => .ok p
  | some (o, .none) => .error (.usage (.valueMissing o))
  | some (o, some v) => give { p with pending := .none } o v

/-- Takes a flag. -/
def flag (p : Progress) (o : Opt) : Except Halt Progress := do
  let p ← p.resolve
  if o = .help then throw .help
  p.give o ""

/-- Takes an option that needs a value, with the value if it is there. -/
def option (p : Progress) (o : Opt) (attached : Option String) : Except Halt Progress := do
  let p ← p.resolve
  match attached with
  | some v => p.give o v
  | .none => return { p with pending := some (o, .none) }

/-- Takes the word of an option. -/
def long (p : Progress) (word : String) (attached : Option String) : Except Halt Progress :=
  match Opt.all.find? (·.word = word), attached with
  | .none, _ => .error (.usage (.unexpected ("--" ++ word)))
  | some o, attached =>
    if o.valueName.isSome then p.option o attached
    else match attached with
      | some v => .error (.usage (.unwantedValue v o))
      | .none => p.flag o

/-- Takes the letters of options; behind one that needs a value stands the value. -/
def letters (p : Progress) : List Char → Except Halt Progress
  | [] => .ok p
  | c :: cs =>
    match Opt.all.find? (·.letter = some c) with
    | .none => .error (.usage (.unexpected ("-" ++ c.toString)))
    | some o =>
      if o.valueName.isSome then
        match cs with
        | [] => p.option o .none
        | '=' :: cs => p.option o (some (String.ofList cs))
        | cs => p.option o (some (String.ofList cs))
      else do letters (← p.flag o) cs

/-- Takes an argument that is no option. -/
def plain (p : Progress) (argument : String) : Except Halt Progress :=
  match p.pending, p.past with
  | some (o, .none), false => .ok { p with pending := some (o, some argument) }
  | _, _ => .error (.usage (.unexpected argument))

/-- Takes an argument. -/
def argument (p : Progress) (a : String) : Except Halt Progress :=
  if p.past then p.plain a
  else match a.toList with
    | ['-', '-'] => .ok { p with past := true }
    | '-' :: '-' :: cs =>
      let word := String.ofList (cs.takeWhile (· ≠ '='))
      match cs.dropWhile (· ≠ '=') with
      | [] => p.long word .none
      | _ :: v => p.long word (some (String.ofList v))
    | '-' :: c :: cs => p.letters (c :: cs)
    | _ => p.plain a

end Progress

/-- What the arguments say. -/
def ofList (args : List String) : Except Halt Arguments := do
  let p ← args.foldlM Progress.argument ⟨none, [], .none, false⟩
  return (← p.resolve).arguments

end Arguments

end CloudRoster.Command
