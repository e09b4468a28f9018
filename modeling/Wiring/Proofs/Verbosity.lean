import Wiring.Proofs.Delivery

/-! # Verbose runs

Verbose mode tells more on the standard error, and changes nothing else. The work gives the same
result whatever console it writes to, and the stages around it use the console for the standard
error alone. So a verbose run and a quiet one on the same files end with the same exit code, the
same standard output and the same files, also where a stage fails.
-/

namespace Wiring.Cli

open Files (Disk)

/-- What a run leaves behind, files and the standard error apart. -/
def Outcome.result (outcome : Outcome) : Nat × String := (outcome.exit, outcome.stdout)

def Settings.loud (settings : Settings) (verbose : Bool) : Settings := { settings with verbose }

section Stages

variable (verbose : Bool) (settings : Settings)

theorem abort_result (trace : Option String) (console : Console) (fault : Fault) :
    (abort trace settings console fault).result = (fault.code.exitCode, "") := rfl

private theorem finish_result (console : Console) (rendering : Rendering) :
    (finish settings console rendering).result =
      (0, if settings.out.isNone then rendering.content else "") := rfl

private theorem configOf_loud : configOf (settings.loud verbose) = configOf settings := rfl

/-- The work does not look at the console. -/
theorem work_loud (interruption : Option Interruption) (config : Config)
    (facts : Except Facts.LoadFault (List (Facts.Class Json.Writing))) (console console' : Console) :
    (work interruption (settings.loud verbose) config facts console).2 =
      (work interruption settings config facts console').2 := by
  cases facts with
  | error fault => rfl
  | ok classes =>
    cases interruption with
    | some interruption => rfl
    | none =>
      obtain ⟨ledger, ran⟩ := exists_ledger (rfl : Settings.built config classes = _)
      simp only [work, ran]
      cases Settings.built config classes with
      | error breach => rfl
      | ok graph =>
        have format : (settings.loud verbose).format = settings.format := rfl
        simp only [format]
        cases (render settings.format graph).value <;> rfl

/-- Running the tool in verbose mode or not leaves the same behind, on any host. -/
theorem execute_loud {m : Type → Type} [Monad m] [LawfulMonad m] (host : Host m) (stamp : String)
    (trace : Option String) :
    Outcome.result <$> execute { host with stamp, trace } (settings.loud verbose) =
      Outcome.result <$> execute host settings := by
  unfold execute
  rw [configOf_loud]
  cases configOf settings with
  | error fault => simp only [map_pure, abort_result]
  | ok config =>
    simp only [map_bind]
    refine bind_congr fun facts => ?_
    -- the two runs come out of the work with one result and two consoles
    have same := work_loud verbose settings host.interruption config facts
      (opening stamp (settings.loud verbose) config) (opening host.stamp settings config)
    obtain ⟨console, result, worked⟩ : ∃ console result, work host.interruption
        (settings.loud verbose) config facts (opening stamp (settings.loud verbose) config) =
          (console, result) := ⟨_, _, rfl⟩
    obtain ⟨console', result', worked'⟩ : ∃ console result, work host.interruption settings config
        facts (opening host.stamp settings config) = (console, result) := ⟨_, _, rfl⟩
    rw [worked, worked'] at same
    obtain rfl : result = result' := same
    unfold opening at worked worked'
    simp only [worked, worked']
    cases result with
    | error fault => simp only [map_pure, abort_result]
    | ok rendering =>
      simp only [map_bind]
      refine bind_congr fun delivered => ?_
      rcases delivered with failure | _ | path
      · simp only [map_pure, abort_result]
      · simp only [map_pure, finish_result]
        rfl
      · simp only [map_pure, finish_result]
        rfl

end Stages

section CommandLine

def Request.loud (request : Request) : Request := { request with verbose := true }

/-- A switch acts on a verbose request as on a quiet one. -/
theorem act_loud (request : Request) (switch : Switch) (given : List String) :
    act request.loud switch given = Request.loud <$> act request switch given := by
  simp only [act]
  cases checkChoices switch (given.erase "--") with
  | error fault => rfl
  | ok => cases switch <;> rfl

private theorem actAll_loud (request : Request) (acts : List (Switch × List String)) :
    actAll request.loud acts = Request.loud <$> actAll request acts := by
  induction acts generalizing request with
  | nil => rfl
  | cons first rest ih =>
    obtain ⟨switch, given⟩ := first
    rw [actAll, actAll, act_loud, bind_map_left, map_bind]
    exact bind_congr ih

/-- Words act on a verbose request as on a quiet one. -/
theorem proceed_loud (request : Request) (skipped : Nat) (words : List (String × Word)) :
    proceed request.loud skipped words = Request.loud <$> proceed request skipped words := by
  induction words generalizing request skipped with
  | nil => cases skipped <;> rfl
  | cons first rest ih =>
    obtain ⟨written, word⟩ := first
    cases skipped with
    | succ skipped => exact ih request skipped
    | zero =>
      cases word with
      | argument | divider | unknown =>
        exact ih { request with leftover := request.leftover ++ [written] } 0
      | switch switch short carried =>
        have onward (acts : List (Switch × List String)) (taken : Nat) :
            (actAll request.loud acts >>= (proceed · taken rest)) =
              Request.loud <$> (actAll request acts >>= (proceed · taken rest)) := by
          rw [actAll_loud, bind_map_left, map_bind]
          exact bind_congr fun next => ih next taken
        simp only [proceed]
        cases carried with
        | none => exact (bind_congr fun taken => onward _ _).trans (map_bind ..).symm
        | some text =>
          rw [map_bind]
          refine bind_congr fun parts => ?_
          cases parts.open? with
          | none => exact onward _ _
          | some last =>
            rw [map_bind]
            exact bind_congr fun taken => onward _ _

private theorem settings_loud (request : Request) :
    request.loud.settings = (Settings.loud · true) <$> request.settings := by
  obtain ⟨facts, format, entries, direction, decorators, out, verbose, leftover⟩ := request
  rcases facts with _ | path
  · rfl
  · rcases leftover with _ | ⟨word, words⟩ <;> rfl

/-- A command line that begins by asking for verbose mode is read as without it, but for this. -/
theorem readArguments_loud (arguments : List String) :
    readArguments ("--verbose" :: arguments) =
      (Settings.loud · true) <$> readArguments arguments := by
  simp only [readArguments, classifyAll]
  cases classifyAll arguments with
  | error fault => rfl
  | ok words =>
    -- the first word turns verbose mode on, and the others follow
    change (proceed Request.initial.loud 0 words >>= fun request =>
        request.settings.mapError Stop.refused) =
      (Settings.loud · true) <$> (proceed .initial 0 words >>= fun request =>
        request.settings.mapError Stop.refused)
    rw [proceed_loud, bind_map_left, map_bind]
    refine bind_congr fun request => ?_
    rw [settings_loud]
    cases request.settings <;> rfl

/-- Asking for verbose mode first leaves the same behind, on any host. -/
theorem run_loud {m : Type → Type} [Monad m] [LawfulMonad m] (host : Host m) (stamp : String)
    (trace : Option String) (arguments : List String) :
    Outcome.result <$> run { host with stamp, trace } ("--verbose" :: arguments) =
      Outcome.result <$> run host arguments := by
  simp only [run, readArguments_loud]
  cases readArguments arguments with
  | error stop => rfl
  | ok settings => exact execute_loud true settings host stamp trace

end CommandLine

/-- Runs on a disk that leave the same behind also leave the same disk. -/
theorem exists_outcomes {first second : StateM Disk Outcome}
    (same : Outcome.result <$> first = Outcome.result <$> second) (before : Disk) :
    ∃ loud quiet after, first.run before = (loud, after) ∧ second.run before = (quiet, after) ∧
      loud.exit = quiet.exit ∧ loud.stdout = quiet.stdout := by
  have ends : ((first.run before).1.result, (first.run before).2) =
      ((second.run before).1.result, (second.run before).2) :=
    congrArg (StateT.run · before) same
  obtain ⟨results, disks⟩ := Prod.mk.inj ends
  obtain ⟨exit, stdout⟩ := Prod.mk.inj results
  exact ⟨_, _, _, rfl, Prod.ext rfl disks.symm, exit, stdout⟩

/-- Verbose mode has no influence but on the standard error. Whatever is asked for, whatever is on
the disk and whatever breaks off, a verbose run and a quiet one end with the same exit code, the
same standard output and the same files. So do a command line with verbose mode and without. -/
theorem run_verbose (surroundings : Surroundings) (stamp stamp' : String)
    (trace trace' : Option String) (before : Disk) :
    (∀ settings : Settings, ∃ loud quiet after,
      (execute (diskHost surroundings stamp trace)
        { settings with verbose := true }).run before = (loud, after) ∧
      (execute (diskHost surroundings stamp' trace')
        { settings with verbose := false }).run before = (quiet, after) ∧
      loud.exit = quiet.exit ∧ loud.stdout = quiet.stdout) ∧
    ∀ arguments, ∃ loud quiet after,
      (run (diskHost surroundings stamp trace) ("--verbose" :: arguments)).run before =
        (loud, after) ∧
      (run (diskHost surroundings stamp' trace') arguments).run before = (quiet, after) ∧
      loud.exit = quiet.exit ∧ loud.stdout = quiet.stdout := by
  let host := diskHost surroundings stamp' trace'
  constructor
  · intro settings
    exact exists_outcomes (execute_loud true (settings.loud false) host stamp trace) before
  · intro arguments
    exact exists_outcomes (run_loud host stamp trace arguments) before

end Wiring.Cli
