import CloudRoster.Command.Arguments
import CloudRoster.Node.Start

/-!
# A run of the program

What the program shows from its arguments to its end. It reads its configuration, starts the node
and waits until it is told to end; a mistake in the arguments, the configuration or the start ends
it at once, with a code of its own.
-/

namespace CloudRoster.Command

open Net (Host)
open Storage (FileTree)

/-- The text of the help, line by line. -/
def helpLines : List String :=
  let left (o : Opt) : String :=
    (match o.letter with
      | some c => "  -" ++ c.toString ++ ", "
      | none => "      ") ++ o.shown
  let width := (Opt.all.map fun o => (left o).length).foldl max 0
  ["SimpleCloud node running the cache-list sync", "", "Usage: simplecloud-node [OPTIONS]", "",
    "Options:"] ++
  Opt.all.map fun o => (left o).pushn ' ' (width + 2 - (left o).length) ++ o.purpose

/-- What a run of the program shows. -/
structure Run where
  exitCode : Nat
  /-- Whether the node was started and waited to be told to end. -/
  waited : Bool
  /-- The lines of the log that are shown before the program ends or waits. -/
  log : List LogLine
  /-- The lines that are shown after it was told to end. -/
  closing : List LogLine
  /-- The lines of the output. -/
  output : List String
  /-- What the program says of settings that it does not follow, and of its failure. -/
  complaints : List String
  /-- The files after the run. -/
  files : FileTree

/-- Which lines of the log are shown: the setting of the environment goes before the flag. -/
def filterOf (setting : Option String) (verbose : Bool) : LogFilter :=
  match setting with
  | some s => .ofText s
  | none => .upTo (if verbose then Severity.debug.rank else Severity.info.rank)

/-- The configuration of the node that the arguments describe. -/
def configOf (a : Arguments) (files : FileTree) : Except ConfigError NodeConfig := do
  let c ← match a.config with
    | none => pure NodeConfig.standard
    | some path => NodeConfig.load path (files.text? path)
  return c.apply a.overrides

/-- The line about a node that is about to start. -/
def startingLine (c : NodeConfig) : LogLine :=
  .ofProgram .info ("SimpleCloud node " ++ c.sync.nodeName ++ " starting as " ++ c.sync.role.name ++
    "...")

/-- The line about where a node that has started listens, if it does. -/
def listeningLine (s : Started) : List LogLine :=
  match s.transport.localAddr with
  | some addr => [.ofProgram .info ("Listening on " ++ addr.text)]
  | none => []

/-- The lines about a node that is told to end and stops. -/
def closingLines (s : Started) : List LogLine :=
  [.ofProgram .info "Shutting down",
    .ofSync .info "net::transport" (s.transport.nodeName ++ " transport stopped")]

/-- Runs the program until it is told to end. -/
def run (args : List String) (setting : Option String) (host : Host) (files : FileTree) : Run :=
  match Arguments.ofList args with
  | .error .help => ⟨0, false, [], [], helpLines, [], files⟩
  | .error (.usage e) => ⟨2, false, [], [], [], [Text.Terminal.stripped e.message], files⟩
  | .ok a =>
    let ignored := setting.elim [] LogFilter.complaintsOf
    match configOf a files with
    | .error e => ⟨1, false, [], [], [], ignored ++ ["Error: " ++ e.message], files⟩
    | .ok c =>
      let filter := filterOf setting a.verbose
      match Node.start c host files with
      | (files, log, .error e) =>
        ⟨1, false, (startingLine c :: log).filter filter.shows, [], [],
          ignored ++ ["Error: " ++ e.message], files⟩
      | (files, log, .ok started) =>
        ⟨0, true, (startingLine c :: log ++ listeningLine started).filter filter.shows,
          (closingLines started).filter filter.shows, [], ignored, files⟩

end CloudRoster.Command
