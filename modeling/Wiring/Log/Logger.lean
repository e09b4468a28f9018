import Wiring.Log.Event

/-! # Loggers

A logger hands every event at or above its threshold to each handler that is attached to it. To
configure a logger is to detach the handlers of earlier configurations, which are told by a mark, and
to attach two new ones, which share a fresh channel: the first prints events on the channel's stream,
the second counts them. Older channels stay as they were.
-/

namespace Wiring.Log

/-- A stream with the lines shown on it, and the count of events by tag. -/
structure Channel where
  lines : List String
  total : Nat
  counts : List (Tag × Nat)

namespace Channel

def fresh : Channel := ⟨[], 0, []⟩

/-- Count one more event with a tag. -/
def tick (tag : Tag) : List (Tag × Nat) → List (Tag × Nat)
  | [] => [(tag, 1)]
  | (other, count) :: rest =>
    if other.agrees tag then (other, count + 1) :: rest else (other, count) :: tick tag rest

def print (stamp : String) (event : Event) (channel : Channel) : Channel :=
  { channel with lines := channel.lines ++ [event.line stamp] }

/-- Count an event. One whose tag cannot be counted by adds to the total alone. -/
def count (event : Event) (channel : Channel) : Channel :=
  { channel with
    total := channel.total + 1
    counts :=
      if event.tag.countFault?.isSome then channel.counts else tick event.tag channel.counts }

/-- The counts by the keys of the tags. Of two tags with one key the later counts. -/
def table (channel : Channel) : List (String × Nat) :=
  channel.counts.foldl (fun table (tag, count) =>
    table.filter (·.1 != tag.label) ++ [(tag.label, count)]) []

end Channel

/-- What a handler does with the events that it gets. -/
inductive Task where
  | print
  | count
deriving DecidableEq, Repr

namespace Task

/-- The least level of the events that a handler takes. -/
def floor : Task → Level
  | print => 0
  | count => .debug

def perform (stamp : String) (event : Event) : Task → Channel → Channel
  | print => Channel.print stamp event
  | count => Channel.count event

end Task

/-- A task, and the number of the channel it is done on. A mark tells that it was attached by
configuring. -/
structure Handler where
  task : Task
  channel : Nat
  marked : Bool
deriving DecidableEq, Repr

/-- Hand an event to a handler, which passes over those below its level. -/
def Handler.handle (stamp : String) (event : Event) (channels : List Channel) (handler : Handler) :
    List Channel :=
  if handler.task.floor ≤ event.level then
    channels.modify handler.channel (handler.task.perform stamp event)
  else channels

/-- A threshold, the handlers attached in the order of attaching, and all channels, of which the
newest stands last. -/
structure Logger where
  threshold : Level
  handlers : List Handler
  channels : List Channel

namespace Logger

/-- A logger that was never configured. -/
def idle : Logger := ⟨0, [], []⟩

/-- Detach the handlers that were attached by configuring. -/
def reset (logger : Logger) : Logger :=
  { logger with threshold := 0, handlers := logger.handlers.filter fun handler => !handler.marked }

/-- Listen on a fresh channel: to everything from debug on, or only from warnings on. -/
def configure (logger : Logger) (verbose : Bool) : Logger where
  threshold := if verbose then .debug else .warning
  handlers := logger.reset.handlers ++
    [⟨.print, logger.channels.length, true⟩, ⟨.count, logger.channels.length, true⟩]
  channels := logger.channels ++ [.fresh]

/-- Whether an event gets to a handler with a task. -/
def serves (logger : Logger) (event : Event) (task : Task) : Bool :=
  logger.threshold ≤ event.level && task.floor ≤ event.level &&
    logger.handlers.any (·.task = task)

/-- Whether an event would be shown. -/
def accepts (logger : Logger) (event : Event) : Bool := logger.serves event .print

/-- Hand an event to every handler, unless it is below the threshold. -/
def emit (stamp : String) (logger : Logger) (event : Event) : Logger :=
  if logger.threshold ≤ event.level then
    { logger with channels := logger.handlers.foldl (Handler.handle stamp event) logger.channels }
  else logger

/-- What is wrong with an event once it is counted: its tag may not allow to. -/
def fault? (logger : Logger) (event : Event) : Option Tag.CountFault :=
  if logger.serves event .count then event.tag.countFault? else none

def emitAll (stamp : String) (logger : Logger) (events : List Event) : Logger :=
  events.foldl (emit stamp) logger

def current? (logger : Logger) : Option Channel := logger.channels.getLast?

def shown (logger : Logger) : List String :=
  match logger.current? with
  | some channel => channel.lines
  | none => []

end Logger

end Wiring.Log
