import Wiring.Cli.Arguments
import Wiring.Facts.Load
import Wiring.Log.Logger
import Wiring.Pipeline

/-! # Running the tool

The tool reads one file and writes its result to the standard output or to one file. All else it
has to say goes to the standard error: the log, and in verbose mode an account of the work. What it
needs of the outside is a host, so that the same run works on a disk that is a value and on files.
-/

namespace Wiring.Cli

open Files (Path Access ReadFault WriteFault Disk)
open Json (Value Writing)

/-- Why building a graph may break off, whatever the records. -/
inductive Interruption where
  | outOfMemory
  | failure (sort message : String)
deriving DecidableEq, Repr

/-- What a run needs of the outside: to read and write files, how deep facts may be nested, whether
building breaks off, the stamp of log lines, and the trace, if there is one, to show with a fault in
verbose mode. -/
structure Host (m : Type → Type) where
  read : Path → m (Except ReadFault (List UInt8))
  write : Path → String → m (Except WriteFault Unit)
  depth : Nat
  interruption : Option Interruption
  stamp : String
  trace : Option String

/-- What a run leaves behind, files apart. -/
structure Outcome where
  exit : Nat
  stdout : String
  stderr : String
deriving DecidableEq, Repr

/-- The standard error under way, with the logger that writes to it. -/
structure Console where
  logger : Log.Logger
  stderr : String
  stamp : String

namespace Console

/-- A console with a logger just configured. -/
def start (stamp : String) (verbose : Bool) : Console where
  logger := Log.Logger.idle.configure verbose
  stderr := ""
  stamp := stamp

def log (console : Console) (event : Log.Event) : Console :=
  { console with
    logger := console.logger.emit console.stamp event
    stderr :=
      if console.logger.accepts event then console.stderr ++ event.line console.stamp
      else console.stderr }

def logAll (console : Console) (events : List Log.Event) : Console := events.foldl log console

def say (console : Console) (lines : List String) : Console :=
  { console with stderr := console.stderr ++ String.join (lines.map (· ++ "\n")) }

/-- How many events were logged. -/
def logged (console : Console) : Nat :=
  match console.logger.current? with
  | some channel => channel.total
  | none => 0

end Console

/-- The path of the facts as it is shown: an empty list if there is none. -/
def Settings.source (settings : Settings) : String :=
  match settings.facts with
  | .filled path => path.text
  | .blank => "[]"

/-- The format as it is shown: an empty list if there is none. -/
def Settings.formatShown (settings : Settings) : Value :=
  match settings.format with
  | .filled format => .str format.word
  | .blank => .arr []

/-- The path of the output as it is shown. -/
def Settings.outShown (settings : Settings) : Value :=
  match settings.out with
  | some (.filled path) => .str path.text
  | some .blank | none => .null

/-- The options as verbose mode shows them. -/
def optionsText (settings : Settings) (config : Config) : String :=
  "CLI Options: " ++ Json.prettyAscii (.obj
    [("facts", .str settings.source), ("format", settings.formatShown),
      ("entry", config.encodeEntries), ("direction", .str config.direction.word),
      ("includeDecorators", .bool config.includeFlags), ("out", settings.outShown),
      ("verbose", .bool settings.verbose)])

/-- The size of a graph as verbose mode shows it. -/
def graphLines (graph : Graph) : List String :=
  let nodes := graph.nodes.length
  let edges := graph.edges.length
  let cycles := graph.cycles.length
  s!"Graph: {nodes} nodes, {edges} edges" ::
    if cycles = 0 then [] else [s!"Detected {cycles} circular dependencies"]

/-- The summary at the end of verbose mode. -/
def summaryLines (logged : Nat) (diagnostics : Diagnostics) : List String :=
  let warnings := diagnostics.grouped.total
  let parameters := diagnostics.tally.parameters
  let decorators := diagnostics.tally.decorators
  let calls := diagnostics.tally.injectCalls
  ["", "Performance Summary:", "  Total time: 0.00ms", s!"  Total logs: {logged}",
    s!"  Warnings: {warnings}"] ++
  (diagnostics.grouped.buckets.filterMap fun (category, bucket) =>
    let name := category.name
    let count := bucket.length
    if count = 0 then none else some s!"    {name}: {count}") ++
  [s!"  Parameters: {parameters}", s!"  Legacy decorators: {decorators}",
    s!"  inject() calls: {calls}"]

def Settings.directionChosen (settings : Settings) : Except Schema.Problem Direction :=
  match settings.direction with
  | .filled direction => .ok direction
  | .blank => .error (.notOneOf (Config.directions.map Direction.word))

def configOf (settings : Settings) : Except Fault Config :=
  let config := do
    let direction ← settings.directionChosen
    let entries ← Config.entriesOf settings.entries
    return Config.mk direction entries settings.includeDecorators
  config.mapError fun problem =>
    ⟨"Invalid arguments: " ++ problem.message, .invalidArguments, none, []⟩

def Interruption.fault : Interruption → Fault
  | outOfMemory =>
    ⟨"Memory limit exceeded while building the graph", .memoryLimitExceeded, none, []⟩
  | failure sort message => (Failure.unexpected sort message).toFault

/-- The text of a graph in a format, JSON unless another is asked for, with what is to be logged
about it. -/
def render (format : Slot Format) (graph : Graph) : Noted (Except Failure String) :=
  match format with
  | .filled .json | .blank => (Pipeline.renderJson graph).map .ok
  | .filled .mermaid =>
    (Pipeline.renderMermaid graph).map fun text =>
      text.mapError fun fault => .unexpected "IndexError" fault.message

/-- A rendered graph, and the diagnostics of building it. -/
structure Rendering where
  content : String
  diagnostics : Diagnostics

/-- The work between reading and writing: take the facts, build the graph and render it. -/
def work (interruption : Option Interruption) (settings : Settings) (config : Config)
    (facts : Except Facts.LoadFault (List (Facts.Class Writing))) (console : Console) :
    Console × Except Fault Rendering :=
  let say := fun (console : Console) lines =>
    if settings.verbose then console.say lines else console
  match facts with
  | .error fault => (console, .error fault.failure.toFault)
  | .ok classes =>
    let count := classes.length
    let console := say (console.log (Facts.loadedEvent settings.source classes))
      [s!"Found {count} decorated classes"]
    match interruption with
    | some interruption => (console, .error interruption.fault)
    | none =>
      let (built, ledger) :=
        (Pipeline.buildOn config (classes.map .facts)).run.run ⟨.empty, [], some Text.digitLimit⟩
      let console := console.logAll ledger.events
      match built with
      | .error breach =>
        (console, .error (Failure.unexpected breach.sort breach.message).toFault)
      | .ok graph =>
        let text := render settings.format graph
        let (diagnostics, events) := ledger.store.absorb text.notes
        let console := (say console (graphLines graph)).logAll events
        match text.value with
        | .error failure => (console, .error failure.toFault)
        | .ok content => (console, .ok ⟨content, diagnostics⟩)

/-- The end of the timed work. -/
def totalEvent : Log.Event := .finished "total-execution" .performance Log.instant

def abort (trace : Option String) (settings : Settings) (console : Console) (fault : Fault) :
    Outcome where
  exit := fault.code.exitCode
  stdout := ""
  stderr :=
    (console.say [fault.report (if settings.verbose then trace else none)]).stderr

def finish (settings : Settings) (console : Console) (rendering : Rendering) : Outcome :=
  let console := console.log totalEvent
  { exit := 0
    stdout := if settings.out.isNone then rendering.content else ""
    stderr :=
      if settings.verbose then
        (console.say (summaryLines console.logged rendering.diagnostics)).stderr
      else console.stderr }

/-- How a failure to write is told. -/
def writeFailure (path : Path) : WriteFault → Failure
  | .nullByte => .unexpected "ValueError" WriteFault.nullByte.message
  | fault =>
    .fault ⟨"Failed to write output file: " ++ fault.message, .outputWriteError,
      some path.text, []⟩

def loadFacts {m : Type → Type} [Monad m] (host : Host m) (settings : Settings) :
    m (Except Facts.LoadFault (List (Facts.Class Writing))) := do
  match settings.facts with
  | .filled path => return Facts.ofRead host.depth path (← host.read path)
  | .blank => return .error (.notSource "list")

/-- Write a text where the settings ask for it, if that is a file. -/
def deliver {m : Type → Type} [Monad m] (host : Host m) (settings : Settings)
    (content : String) : m (Except Failure (Option Path)) := do
  match settings.out with
  | none => return .ok none
  | some .blank => return .error (Facts.LoadFault.notSource "list").failure
  | some (.filled path) =>
    return ((← host.write path content).mapError (writeFailure path)).map fun _ => some path

def execute {m : Type → Type} [Monad m] (host : Host m) (settings : Settings) : m Outcome := do
  let console := Console.start host.stamp settings.verbose
  match configOf settings with
  | .error fault => return abort host.trace settings console fault
  | .ok config =>
    let console := if settings.verbose then console.say [optionsText settings config] else console
    let console := console.log
      (.of .info .fileProcessing "Loading facts" [("path", .str settings.source)])
    let facts ← loadFacts host settings
    match work host.interruption settings config facts console with
    | (console, .error fault) => return abort host.trace settings (console.log totalEvent) fault
    | (console, .ok rendering) =>
      match ← deliver host settings rendering.content with
      | .error failure =>
        return abort host.trace settings (console.log totalEvent) failure.toFault
      | .ok none => return finish settings console rendering
      | .ok (some path) =>
        let text := path.text
        return finish settings
          (if settings.verbose then console.say [s!"Output written to: {text}"] else console)
          rendering

/-- What is said when reading the command line stops the run. -/
def Stop.outcome : Stop → Outcome
  | help => ⟨0, Cli.help, ""⟩
  | version => ⟨0, s!"{tool} {release}\n", ""⟩
  | refused fault =>
    let message := fault.message
    ⟨2, "", usage ++ s!"{tool}: error: {message}\n"⟩

/-- Run the tool on a command line. -/
def run {m : Type → Type} [Monad m] (host : Host m) (arguments : List String) : m Outcome :=
  match readArguments arguments with
  | .error stop => pure stop.outcome
  | .ok settings => execute host settings

/-- What surrounds a run on a disk that is a value, apart from the disk: what the system grants to
who reads the facts, how deep they may be nested, and whether building breaks off. -/
structure Surroundings where
  access : Access
  depth : Nat
  interruption : Option Interruption
deriving DecidableEq, Repr

/-- A host whose files are on a disk that is a value. -/
def diskHost (surroundings : Surroundings) (stamp : String) (trace : Option String) :
    Host (StateM Disk) where
  read path := return (← get).readAs surroundings.access path
  write path content := (Disk.write path content).run
  depth := surroundings.depth
  interruption := surroundings.interruption
  stamp := stamp
  trace := trace

end Wiring.Cli
