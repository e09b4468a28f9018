import Mathlib.Algebra.BigOperators.Group.List.Basic
import Mathlib.Algebra.GroupWithZero.Nat
import Mathlib.Data.List.Induction
import Wiring.Log.Logger

/-! # Where log records go

A session configures a logger, resets it and logs, in any order. Each record that it makes goes to
one channel or to none: that of the configuration in force, if its level is high enough. A channel
counts what it shows, and once another configuration or a reset has come it stays as it is.
-/

namespace Wiring.Log

open Json (Value)

/-- What is done with a logger. -/
inductive Action where
  | configure (verbose : Bool)
  | reset
  | log (stamp : String) (level : Level) (category : Category) (message : String)
    (context : List (String × Value))

namespace Action

/-- Whether handlers are attached or detached. -/
def isSwitch : Action → Bool
  | configure _ | reset => true
  | log _ _ _ _ _ => false

def isConfigure : Action → Bool
  | configure _ => true
  | reset | log _ _ _ _ _ => false

end Action

/-- The logger after an action. An event that cannot be made is not logged. -/
def Logger.perform (logger : Logger) : Action → Logger
  | .configure verbose => logger.configure verbose
  | .reset => logger.reset
  | .log stamp level category message context =>
    match Event.of? level category message context with
    | .ok event => logger.emit stamp event
    | .error _ => logger

/-- The logger after a session, starting with one that was never configured. -/
def Logger.after (actions : List Action) : Logger := actions.foldl Logger.perform .idle

def configurations (actions : List Action) : Nat := actions.countP (·.isConfigure)

/-- The least level that a configuration lets through. -/
def leastLevel (verbose : Bool) : Level := if verbose then .debug else .warning

/-- A configuration with its number is the latest, and no reset came after it. -/
def InForce (actions : List Action) (number : Nat) (verbose : Bool) : Prop :=
  ∃ earlier later, actions = earlier ++ .configure verbose :: later ∧
    configurations earlier = number ∧ ∀ action ∈ later, action.isSwitch = false

/-- The configuration in force: its number, and whether it is verbose. -/
def inForce? (actions : List Action) : Option (Nat × Bool) :=
  match actions.reverse.find? (·.isSwitch) with
  | some (.configure verbose) => some (configurations actions - 1, verbose)
  | _ => none

/-- An event that was logged, with what was done before. -/
structure Record where
  before : List Action
  stamp : String
  event : Event

namespace Record

def line (record : Record) : String := record.event.line record.stamp

def route? (record : Record) : Option Nat :=
  match inForce? record.before with
  | some (number, verbose) => if leastLevel verbose ≤ record.event.level then some number else none
  | none => none

end Record

/-- The record that an action makes, if it makes one. -/
def recordOf (before : List Action) : Action → List Record
  | .log stamp level category message context =>
    match Event.of? level category message context with
    | .ok event => [⟨before, stamp, event⟩]
    | .error _ => []
  | .configure _ | .reset => []

/-- The records of a session from some action on. -/
def recordsFrom (before : List Action) : List Action → List Record
  | [] => []
  | action :: later => recordOf before action ++ recordsFrom (before ++ [action]) later

def records (actions : List Action) : List Record := recordsFrom [] actions

/-- The records of a session that go to a channel. -/
def routed (actions : List Action) (number : Nat) : List Record :=
  (records actions).filter fun record => record.route? = some number

section InForce

variable {actions : List Action} {number : Nat} {verbose : Bool}

theorem configurations_snoc (actions : List Action) (action : Action) :
    configurations (actions ++ [action]) =
      configurations actions + if action.isConfigure then 1 else 0 := by
  rw [configurations, List.countP_append, List.countP_singleton, configurations]

private theorem inForce?_configure (actions : List Action) (verbose : Bool) :
    inForce? (actions ++ [.configure verbose]) = some (configurations actions, verbose) := by
  rw [inForce?, List.reverse_concat, List.find?_cons_of_pos rfl, configurations_snoc]
  rfl

private theorem inForce?_reset (actions : List Action) : inForce? (actions ++ [.reset]) = none := by
  rw [inForce?, List.reverse_concat, List.find?_cons_of_pos rfl]

private theorem configurations_log {action : Action} (logs : action.isSwitch = false)
    (actions : List Action) : configurations (actions ++ [action]) = configurations actions := by
  rw [configurations_snoc]
  cases action with
  | configure verbose => simp [Action.isSwitch] at logs
  | reset => rfl
  | log => rfl

/-- Logging leaves the configuration in force. -/
theorem inForce?_log {action : Action} (logs : action.isSwitch = false) (actions : List Action) :
    inForce? (actions ++ [action]) = inForce? actions := by
  rw [inForce?, List.reverse_concat, List.find?_cons_of_neg (by simp [logs]),
    configurations_log logs, inForce?]

private theorem configurations_of_no_switch (none : ∀ action ∈ actions, action.isSwitch = false) :
    configurations actions = 0 := by
  rw [configurations, List.countP_eq_zero]
  intro action member
  cases action with
  | configure verbose => exact absurd (none _ member) (by simp [Action.isSwitch])
  | reset => simp [Action.isConfigure]
  | log => simp [Action.isConfigure]

/-- What is found to be in force is the latest configuration, unless a reset came after it. -/
theorem inForce?_eq_some_iff :
    inForce? actions = some (number, verbose) ↔ InForce actions number verbose := by
  have last (earlier later : List Action) (none : ∀ action ∈ later, action.isSwitch = false) :
      configurations (earlier ++ .configure verbose :: later) - 1 = configurations earlier := by
    have counted : later.countP (·.isConfigure) = 0 := configurations_of_no_switch none
    rw [configurations, List.countP_append, List.countP_cons, counted]
    exact Nat.add_sub_cancel ..
  constructor
  · intro found
    unfold inForce? at found
    split at found
    · rename_i verbose' switch
      obtain ⟨rfl, rfl⟩ := Prod.mk.inj (Option.some.inj found)
      obtain ⟨_, after, before, whole, none⟩ := List.find?_eq_some_iff_append.mp switch
      have actions_eq : actions = before.reverse ++ .configure verbose' :: after.reverse := by
        rw [← List.reverse_reverse actions, whole]
        simp
      have quiet : ∀ action ∈ after.reverse, action.isSwitch = false := by simpa using none
      refine ⟨before.reverse, after.reverse, actions_eq, ?_, quiet⟩
      rw [actions_eq, last _ _ quiet]
    · simp at found
  · rintro ⟨earlier, later, rfl, rfl, none⟩
    have switch : (earlier ++ .configure verbose :: later).reverse.find? (·.isSwitch) =
        some (.configure verbose) := by
      refine List.find?_eq_some_iff_append.mpr ⟨rfl, later.reverse, earlier.reverse, by simp, ?_⟩
      simpa using none
    rw [inForce?, switch]
    simp only [last earlier later none]

/-- A record goes to the channel of the configuration in force, if its level is high enough. -/
theorem Record.route?_eq_some_iff {record : Record} :
    record.route? = some number ↔
      ∃ verbose, InForce record.before number verbose ∧
        leastLevel verbose ≤ record.event.level := by
  unfold route?
  cases force : inForce? record.before with
  | none =>
    refine iff_of_false (by simp) ?_
    rintro ⟨verbose, latest, _⟩
    simp [inForce?_eq_some_iff.mpr latest] at force
  | some current =>
    obtain ⟨current, verbose⟩ := current
    constructor
    · intro goes
      simp only at goes
      split at goes
      · rename_i high
        obtain rfl := Option.some.inj goes
        exact ⟨verbose, inForce?_eq_some_iff.mp force, high⟩
      · simp at goes
    · rintro ⟨verbose', latest, high⟩
      rw [inForce?_eq_some_iff.mpr latest] at force
      obtain ⟨rfl, rfl⟩ := Prod.mk.inj (Option.some.inj force)
      exact if_pos high

end InForce

section Records

private theorem recordsFrom_append (before actions later : List Action) :
    recordsFrom before (actions ++ later) =
      recordsFrom before actions ++ recordsFrom (before ++ actions) later := by
  induction actions generalizing before with
  | nil => simp [recordsFrom]
  | cons action actions ih => simp [recordsFrom, ih]

/-- An action adds the record that it makes to those of its channel. -/
theorem routed_snoc (actions : List Action) (action : Action) (number : Nat) :
    routed (actions ++ [action]) number = routed actions number ++
      (recordOf actions action).filter fun record => record.route? = some number := by
  have last : records (actions ++ [action]) = records actions ++ recordOf actions action := by
    rw [records, recordsFrom_append, records, List.nil_append]
    simp only [recordsFrom, List.append_nil]
  rw [routed, last, List.filter_append, routed]

theorem routed_switch {action : Action} (switches : action.isSwitch = true) (actions : List Action)
    (number : Nat) : routed (actions ++ [action]) number = routed actions number := by
  rw [routed_snoc]
  cases action with
  | configure verbose => exact List.append_nil _
  | reset => exact List.append_nil _
  | log => simp [Action.isSwitch] at switches

end Records

section Channels

variable {channel : Channel} {shown : List Record}

/-- A channel shows some records and nothing else, and has counted them, all by their tags. -/
structure Channel.Shows (channel : Channel) (shown : List Record) : Prop where
  lines : channel.lines = shown.map (·.line)
  total : channel.total = shown.length
  counts : (channel.counts.map (·.2)).sum = shown.length

private theorem Channel.fresh_shows : Channel.fresh.Shows [] := ⟨rfl, rfl, rfl⟩

private theorem Channel.sum_tick (tag : Tag) (counts : List (Tag × Nat)) :
    ((tick tag counts).map (·.2)).sum = (counts.map (·.2)).sum + 1 := by
  induction counts with
  | nil => rfl
  | cons first rest ih =>
    obtain ⟨other, count⟩ := first
    rw [tick]
    split
    · simp only [List.map_cons, List.sum_cons]
      omega
    · simp only [List.map_cons, List.sum_cons, ih]
      omega

/-- A record that is printed and counted is shown after the others. -/
theorem Channel.Shows.add (shows : channel.Shows shown) (before : List Action) (stamp : String)
    {event : Event} (countable : event.tag.countFault? = none) :
    ((channel.print stamp event).count event).Shows (shown ++ [⟨before, stamp, event⟩]) where
  lines := by
    rw [List.map_append, ← shows.lines]
    rfl
  total := by
    rw [List.length_append, ← shows.total]
    rfl
  counts := by
    rw [List.length_append, ← shows.counts]
    simp only [Channel.count, Channel.print, countable, Option.isSome_none, Bool.false_eq_true,
      if_false]
    exact sum_tick ..

end Channels

section Loggers

variable {logger : Logger} {actions : List Action} {number : Nat} {verbose : Bool}

@[simp] theorem handlers_emit (logger : Logger) (stamp : String) (event : Event) :
    (logger.emit stamp event).handlers = logger.handlers := by
  unfold Logger.emit
  split <;> rfl

@[simp] theorem threshold_emit (logger : Logger) (stamp : String) (event : Event) :
    (logger.emit stamp event).threshold = logger.threshold := by
  unfold Logger.emit
  split <;> rfl

/-- Without handlers an event changes nothing. -/
theorem emit_silent (silent : logger.handlers = []) (stamp : String) (event : Event) :
    logger.emit stamp event = logger := by
  unfold Logger.emit
  split
  · simp only [silent, List.foldl_nil]
    rw [← silent]
  · rfl

private theorem debug_le_leastLevel (verbose : Bool) : Level.debug ≤ leastLevel verbose := by
  cases verbose <;> decide

/-- The events that a category names can be counted by their tags. -/
theorem countable_of_ok {level : Level} {category : Category} {message : String}
    {context : List (String × Value)} {event : Event}
    (made : Event.of? level category message context = .ok event) :
    event.tag.countFault? = none := by
  unfold Event.of? at made
  split at made
  · simp at made
  · obtain rfl := Except.ok.inj made
    rfl

/-- The two handlers of a configuration. -/
def handlersOf (number : Nat) : List Handler := [⟨.print, number, true⟩, ⟨.count, number, true⟩]

/-- With the handlers of one configuration attached, an event above the threshold is printed once
and counted once, on one channel. -/
theorem channels_emit (attached : logger.handlers = handlersOf number)
    (tuned : logger.threshold = leastLevel verbose) (stamp : String) (event : Event) :
    (logger.emit stamp event).channels =
      if leastLevel verbose ≤ event.level then
        logger.channels.modify number fun channel => (channel.print stamp event).count event
      else logger.channels := by
  rw [Logger.emit, tuned]
  split
  · rename_i high
    have counts : Task.count.floor ≤ event.level := Int.le_trans (debug_le_leastLevel verbose) high
    have prints : Task.print.floor ≤ event.level := Int.le_trans (by decide) counts
    simp only [attached, handlersOf, List.foldl_cons, List.foldl_nil, Handler.handle]
    rw [if_pos prints, if_pos counts, List.modify_modify_eq]
    rfl
  · rfl

/-- Where a session has left a logger: one channel for each configuration, the handlers of the
configuration in force or none, and on every channel the records that went there. -/
structure Tracks (actions : List Action) (logger : Logger) : Prop where
  count : logger.channels.length = configurations actions
  listening : ∀ number verbose, inForce? actions = some (number, verbose) →
    number < configurations actions ∧ logger.threshold = leastLevel verbose ∧
      logger.handlers = handlersOf number
  silent : inForce? actions = none → logger.handlers = []
  shown : ∀ (number : Nat) (channel : Channel), logger.channels[number]? = some channel →
    channel.Shows (routed actions number)
  unused : ∀ number, configurations actions ≤ number → routed actions number = []

namespace Tracks

theorem start : Tracks [] .idle where
  count := rfl
  listening number verbose found := by simp [inForce?] at found
  silent _ := rfl
  shown number channel found := by simp [Logger.idle] at found
  unused number _ := rfl

/-- All handlers have the mark of a configuration, so a reset detaches them. -/
theorem handlers_reset (tracks : Tracks actions logger) : logger.reset.handlers = [] := by
  cases force : inForce? actions with
  | none => rw [Logger.reset, tracks.silent force, List.filter_nil]
  | some current =>
    rw [Logger.reset, (tracks.listening current.1 current.2 force).2.2]
    rfl

theorem configure (tracks : Tracks actions logger) (verbose : Bool) :
    Tracks (actions ++ [.configure verbose]) (logger.configure verbose) where
  count := by
    rw [configurations_snoc, ← tracks.count]
    exact List.length_append
  listening number verbose' found := by
    rw [inForce?_configure] at found
    obtain ⟨rfl, rfl⟩ := Prod.mk.inj (Option.some.inj found)
    refine ⟨?_, rfl, ?_⟩
    · rw [configurations_snoc]
      exact Nat.lt_succ_self _
    · rw [Logger.configure, tracks.handlers_reset, tracks.count]
      rfl
  silent none := by simp [inForce?_configure] at none
  shown number channel found := by
    rw [routed_switch rfl]
    rcases Nat.lt_or_ge number logger.channels.length with old | new
    · rw [Logger.configure, List.getElem?_append_left old] at found
      exact tracks.shown number channel found
    · rw [Logger.configure, List.getElem?_append_right new] at found
      obtain rfl := List.mem_singleton.mp (List.mem_of_getElem? found)
      rw [tracks.unused number (tracks.count ▸ new)]
      exact Channel.fresh_shows
  unused number large := by
    rw [routed_switch rfl]
    rw [configurations_snoc] at large
    exact tracks.unused number (by omega)

theorem reset (tracks : Tracks actions logger) :
    Tracks (actions ++ [.reset]) logger.reset where
  count := by
    rw [configurations_snoc, ← tracks.count]
    rfl
  listening number verbose found := by simp [inForce?_reset] at found
  silent _ := tracks.handlers_reset
  shown number channel found := by
    rw [routed_switch rfl]
    exact tracks.shown number channel found
  unused number large := by
    rw [routed_switch rfl]
    rw [configurations_snoc] at large
    exact tracks.unused number (by omega)

/-- An action that is no switch leaves the handlers as they were, and so tracks on if every channel
has got what went there. -/
theorem log (tracks : Tracks actions logger) {next : Logger} {action : Action}
    (logs : action.isSwitch = false) (handlers : next.handlers = logger.handlers)
    (threshold : next.threshold = logger.threshold)
    (count : next.channels.length = logger.channels.length)
    (shown : ∀ (number : Nat) (channel : Channel), next.channels[number]? = some channel →
      channel.Shows (routed (actions ++ [action]) number))
    (unused : ∀ number, configurations actions ≤ number →
      routed (actions ++ [action]) number = []) :
    Tracks (actions ++ [action]) next := by
  have force := inForce?_log logs actions
  have same := configurations_log logs actions
  refine ⟨?_, ?_, ?_, shown, ?_⟩
  · rw [same, count]
    exact tracks.count
  · rw [force, same, handlers, threshold]
    exact tracks.listening
  · rw [force, handlers]
    exact tracks.silent
  · rw [same]
    exact unused

/-- If no record goes anywhere, everything stays as it was. -/
theorem pass (tracks : Tracks actions logger) {action : Action} (logs : action.isSwitch = false)
    (nowhere : ∀ record ∈ recordOf actions action, record.route? = none) :
    Tracks (actions ++ [action]) logger := by
  have same (number : Nat) : routed (actions ++ [action]) number = routed actions number := by
    have none :
        (recordOf actions action).filter (fun record => record.route? = some number) = [] := by
      rw [List.filter_eq_nil_iff]
      intro record made
      simp [nowhere record made]
    rw [routed_snoc, none, List.append_nil]
  refine tracks.log logs rfl rfl rfl ?_ ?_
  · intro number channel found
    rw [same]
    exact tracks.shown number channel found
  · intro number large
    rw [same]
    exact tracks.unused number large

/-- A record that goes to a channel is printed and counted there, and nowhere else. -/
theorem deliver (tracks : Tracks actions logger) {action : Action} (logs : action.isSwitch = false)
    {stamp : String} {event : Event} (made : recordOf actions action = [⟨actions, stamp, event⟩])
    (countable : event.tag.countFault? = none) (force : inForce? actions = some (number, verbose))
    (high : leastLevel verbose ≤ event.level) :
    Tracks (actions ++ [action]) (logger.emit stamp event) := by
  obtain ⟨known, tuned, attached⟩ := tracks.listening number verbose force
  have channels := channels_emit attached tuned stamp event
  rw [if_pos high] at channels
  have route : Record.route? ⟨actions, stamp, event⟩ = some number := by
    simp only [Record.route?, force, if_pos high]
  have routes (other : Nat) : routed (actions ++ [action]) other =
      routed actions other ++ if number = other then [⟨actions, stamp, event⟩] else [] := by
    rw [routed_snoc, made]
    by_cases here : number = other <;> simp [route, here]
  refine tracks.log logs (handlers_emit ..) (threshold_emit ..) ?_ ?_ ?_
  · rw [channels, List.length_modify]
  · intro other channel found
    rw [channels, List.getElem?_modify, Option.map_eq_map, Option.map_eq_some_iff] at found
    obtain ⟨before, found, rfl⟩ := found
    have shows := tracks.shown other before found
    rw [routes]
    split
    · exact shows.add actions stamp countable
    · rw [List.append_nil]
      exact shows
  · intro other large
    rw [routes, if_neg (by omega), List.append_nil]
    exact tracks.unused other large

/-- An event that is logged goes where the configuration in force says. -/
theorem emit (tracks : Tracks actions logger) {action : Action} (logs : action.isSwitch = false)
    {stamp : String} {event : Event} (made : recordOf actions action = [⟨actions, stamp, event⟩])
    (countable : event.tag.countFault? = none) :
    Tracks (actions ++ [action]) (logger.emit stamp event) := by
  cases force : inForce? actions with
  | none =>
    rw [emit_silent (tracks.silent force)]
    refine tracks.pass logs ?_
    simp [made, Record.route?, force]
  | some current =>
    obtain ⟨number, verbose⟩ := current
    by_cases high : leastLevel verbose ≤ event.level
    · exact tracks.deliver logs made countable force high
    · have ignored : logger.emit stamp event = logger := by
        rw [Logger.emit, (tracks.listening number verbose force).2.1, if_neg high]
      rw [ignored]
      refine tracks.pass logs ?_
      simp [made, Record.route?, force, high]

/-- Every action keeps track. -/
theorem perform (tracks : Tracks actions logger) (action : Action) :
    Tracks (actions ++ [action]) (logger.perform action) := by
  cases action with
  | configure verbose => exact tracks.configure verbose
  | reset => exact tracks.reset
  | log stamp level category message context =>
    rw [Logger.perform]
    cases made : Event.of? level category message context with
    | ok event => exact tracks.emit rfl (by simp only [recordOf, made]) (countable_of_ok made)
    | error fault => exact tracks.pass rfl (by simp [recordOf, made])

end Tracks

/-- Every session is kept track of. -/
theorem after_tracks (actions : List Action) : Tracks actions (Logger.after actions) := by
  induction actions using List.reverseRecOn with
  | nil => exact .start
  | append_singleton before action ih =>
    rw [Logger.after, List.foldl_concat]
    exact ih.perform action

end Loggers

section Retired

variable {logger : Logger} {number : Nat} {stamp : String} {event : Event}

/-- A channel is there, and no handler that is attached works on it. -/
structure Logger.Retired (logger : Logger) (number : Nat) : Prop where
  known : number < logger.channels.length
  detached : ∀ handler ∈ logger.handlers, handler.channel ≠ number

/-- Handlers leave the channels of others as they are. -/
theorem getElem?_foldl_handle {handlers : List Handler}
    (others : ∀ handler ∈ handlers, handler.channel ≠ number) (channels : List Channel) :
    (handlers.foldl (Handler.handle stamp event) channels)[number]? = channels[number]? := by
  induction handlers generalizing channels with
  | nil => rfl
  | cons handler handlers ih =>
    have apart : handler.channel ≠ number := others handler (List.mem_cons_self ..)
    rw [List.foldl_cons, ih fun other member => others other (List.mem_cons_of_mem _ member)]
    unfold Handler.handle
    split
    · exact List.getElem?_modify_ne _ _ apart
    · rfl

private theorem length_foldl_handle (handlers : List Handler) (channels : List Channel) :
    (handlers.foldl (Handler.handle stamp event) channels).length = channels.length := by
  induction handlers generalizing channels with
  | nil => rfl
  | cons handler handlers ih =>
    rw [List.foldl_cons, ih]
    unfold Handler.handle
    split
    · exact List.length_modify ..
    · rfl

private theorem getElem?_configure (known : number < logger.channels.length) (verbose : Bool) :
    (logger.configure verbose).channels[number]? = logger.channels[number]? :=
  List.getElem?_append_left known

/-- A switch leaves the channels before it as they are, and no handler on them but those that a reset
leaves. -/
theorem retired_switch {switch : Action} (switches : switch.isSwitch = true)
    (known : number < logger.channels.length)
    (left : ∀ handler ∈ logger.reset.handlers, handler.channel ≠ number) :
    (logger.perform switch).Retired number ∧
      (logger.perform switch).channels[number]? = logger.channels[number]? := by
  cases switch with
  | configure verbose =>
    have longer : number < (logger.configure verbose).channels.length := by
      rw [Logger.configure, List.length_append]
      omega
    refine ⟨⟨longer, ?_⟩, getElem?_configure known verbose⟩
    intro handler attached
    rcases List.mem_append.mp attached with old | newest
    · exact left handler old
    · simp only [List.mem_cons, List.not_mem_nil, or_false] at newest
      rcases newest with rfl | rfl
      · exact (Nat.ne_of_lt known).symm
      · exact (Nat.ne_of_lt known).symm
  | reset => exact ⟨⟨known, left⟩, rfl⟩
  | log => simp [Action.isSwitch] at switches

namespace Logger.Retired

/-- Nothing happens any more on a channel without handlers, nor does it get any. -/
theorem perform (retired : logger.Retired number) (action : Action) :
    (logger.perform action).Retired number ∧
      (logger.perform action).channels[number]? = logger.channels[number]? := by
  have left : ∀ handler ∈ logger.reset.handlers, handler.channel ≠ number :=
    fun handler attached => retired.detached handler (List.mem_filter.mp attached).1
  cases action with
  | configure verbose => exact retired_switch rfl retired.known left
  | reset => exact retired_switch rfl retired.known left
  | log stamp level category message context =>
    rw [Logger.perform]
    split
    · rename_i event _
      unfold Logger.emit
      split
      · refine ⟨⟨?_, retired.detached⟩, getElem?_foldl_handle retired.detached _⟩
        rw [length_foldl_handle]
        exact retired.known
      · exact ⟨retired, rfl⟩
    · exact ⟨retired, rfl⟩

private theorem performAll (retired : logger.Retired number) (actions : List Action) :
    (actions.foldl Logger.perform logger).channels[number]? = logger.channels[number]? := by
  induction actions generalizing logger with
  | nil => rfl
  | cons action actions ih =>
    obtain ⟨still, same⟩ := retired.perform action
    rw [List.foldl_cons, ih still, same]

end Logger.Retired

/-- After the next switch the channel of a configuration stays as it is. -/
theorem channel_retired (earlier between later : List Action) (verbose : Bool) {switch : Action}
    (switches : switch.isSwitch = true) :
    (Logger.after (earlier ++ .configure verbose :: between ++ switch :: later)).channels[
        configurations earlier]? =
      (Logger.after (earlier ++ .configure verbose :: between)).channels[
        configurations earlier]? := by
  have tracks := after_tracks (earlier ++ .configure verbose :: between)
  have known : configurations earlier <
      (Logger.after (earlier ++ .configure verbose :: between)).channels.length := by
    rw [tracks.count]
    simp only [configurations, List.countP_append, List.countP_cons, Action.isConfigure, if_true]
    omega
  obtain ⟨retired, same⟩ := retired_switch switches known (by simp [tracks.handlers_reset])
  have split : Logger.after (earlier ++ .configure verbose :: between ++ switch :: later) =
      later.foldl Logger.perform
        ((Logger.after (earlier ++ .configure verbose :: between)).perform switch) := by
    rw [Logger.after, List.foldl_append, List.foldl_cons, Logger.after]
  rw [split, retired.performAll later, same]

end Retired

/-- Each record of a session goes to one channel or to none: that of the latest configuration, if no
reset came after it and the level is high enough. A channel shows the records that went there, each
once and in order, and nothing else; its total is their number, and so is the sum of its counts. It
does not change any more after the next configuration or reset. -/
theorem session_routed (actions : List Action) :
    let logger := Logger.after actions
    logger.channels.length = configurations actions ∧
    (∀ record ∈ records actions, ∀ number, record.route? = some number ↔
      ∃ verbose, InForce record.before number verbose ∧
        (if verbose then Level.debug else Level.warning) ≤ record.event.level) ∧
    (∀ number, number < configurations actions → ∃ channel,
      logger.channels[number]? = some channel ∧
      channel.lines =
        ((records actions).filter fun record => record.route? = some number).map (·.line) ∧
      channel.total = channel.lines.length ∧
      channel.total = (channel.counts.map (·.2)).sum) ∧
    ∀ earlier verbose between switch later, switch.isSwitch = true →
      actions = earlier ++ .configure verbose :: between ++ switch :: later →
      logger.channels[configurations earlier]? =
        (Logger.after (earlier ++ .configure verbose :: between)).channels[
          configurations earlier]? := by
  intro logger
  have tracks := after_tracks actions
  refine ⟨tracks.count, fun record _ number => ?_, fun number known => ?_, ?_⟩
  · exact Record.route?_eq_some_iff
  · rw [← tracks.count] at known
    have shows := tracks.shown number _ (List.getElem?_eq_getElem known)
    refine ⟨_, List.getElem?_eq_getElem known, shows.lines, ?_, ?_⟩
    · rw [shows.total, shows.lines, List.length_map]
    · rw [shows.total, shows.counts]
  · rintro earlier verbose between switch later switches rfl
    exact channel_retired earlier between later verbose switches

/-- A quiet configuration, a verbose one and a reset, with records in between. -/
def changing : List Action :=
  [.configure false, .log "1" .warning .filtering "first" [], .log "2" .info .filtering "second" [],
    .configure true, .log "3" .debug .performance "third" [], .reset,
    .log "4" .warning .filtering "fourth" []]

theorem session_routed_changing :
    (0 < configurations changing ∧ ∃ channel, (Logger.after changing).channels[0]? = some channel ∧
      channel.lines = ["[1] [WARNING] [filtering] first\n"] ∧ channel.total = 1) ∧
    (Action.configure true).isSwitch = true ∧
    (Logger.after changing).channels[0]? = (Logger.after (changing.take 3)).channels[0]? := by
  obtain ⟨_, _, shown, retired⟩ := session_routed changing
  obtain ⟨channel, found, lines, total, _⟩ := shown 0 (by decide)
  have first : ((records changing).filter fun record => record.route? = some 0).map (·.line) =
      ["[1] [WARNING] [filtering] first\n"] := by decide +kernel
  rw [first] at lines
  rw [lines] at total
  refine ⟨⟨by decide, channel, found, lines, total⟩, rfl, ?_⟩
  exact retired [] false _ (.configure true) _ rfl rfl

end Wiring.Log
