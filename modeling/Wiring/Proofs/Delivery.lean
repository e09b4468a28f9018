import Wiring.Cli.Run
import Wiring.Proofs.Entries
import Wiring.Proofs.Files
import Wiring.Proofs.Totality

/-! # All of the output or nothing

A run of the tool goes through its stages in order, and the first that fails gives the exit code.
Only the last stage touches a file or the standard output, and it is reached with the whole text of
the graph, so that a run delivers this text or leaves all files as they were.
-/

namespace Wiring.Cli

open Files (Path WriteFault Disk)
open Json (Writing)

def Interruption.exit : Interruption → Nat
  | outOfMemory => 6
  | failure .. => 1

namespace Settings

/-- What building comes to on an empty store. -/
def built (config : Config) (classes : List (Facts.Class Writing)) : Except Breach Graph :=
  (Pipeline.outcome (some Text.digitLimit) .empty config (classes.map .facts)).1

/-- The text that settings ask for: the rendering of the graph that is built from classes. -/
def Shows (settings : Settings) (config : Config) (classes : List (Facts.Class Writing))
    (text : String) : Prop :=
  ∃ graph, built config classes = .ok graph ∧
    match settings.format with
    | .filled .mermaid => (Pipeline.renderMermaid graph).value = .ok text
    | .filled .json | .blank => (Pipeline.renderJson graph).value = text

theorem Shows.built {settings : Settings} {config : Config}
    {classes : List (Facts.Class Writing)} {text : String}
    (shows : settings.Shows config classes text) :
    ∃ graph, Settings.built config classes = .ok graph :=
  shows.imp fun _ => And.left

end Settings

section Stages

variable {surroundings : Surroundings} {stamp : String} {trace : Option String}
  {settings : Settings} {config : Config} {before : Disk}

theorem exists_ledger {classes : List (Facts.Class Writing)} {result : Except Breach Graph}
    (built : Settings.built config classes = result) :
    ∃ ledger, (Pipeline.buildOn config (classes.map .facts)).run.run
      ⟨.empty, [], some Text.digitLimit⟩ = (result, ledger) :=
  ⟨_, Prod.ext built rfl⟩

def opening (stamp : String) (settings : Settings) (config : Config) : Console :=
  let console := Console.start stamp settings.verbose
  (if settings.verbose then console.say [optionsText settings config] else console).log
    (.of .info .fileProcessing "Loading facts" [("path", .str settings.source)])

end Stages

end Wiring.Cli
