import Wiring.Pipeline

/-! # Workloads

Batches of resolved classes of a given size, for measuring the pipeline.
-/

namespace Wiring.Workload

open Resolved (Dependency)

/-- A dependency without flags. -/
def on (token parameter : String) : Dependency := ⟨token, parameter, none⟩

def named (name : String) (kind : NodeKind) (dependencies : List Dependency) : Resolved.Class where
  name := some name
  kind := kind
  file := none
  dependencies := dependencies
  location := none

def numbered (stem : String) (i : Nat) : String := s!"{stem}{i}"

/-- A chain of services, each of which depends on the next. -/
def chain (length : Nat) : List Resolved.Class :=
  (List.range length).map fun i =>
    named (numbered "S" i) .service
      (if i + 1 < length then [on (numbered "S" (i + 1)) "next"] else [])

/-- A component that depends on many services. -/
def fanOut (width : Nat) : List Resolved.Class :=
  named "Root" .component
      ((List.range width).map fun i => on (numbered "Leaf" i) (numbered "leaf" i)) ::
    (List.range width).map fun i => named (numbered "Leaf" i) .service []

/-- Pairs of services that depend on each other, the second of each on the first of the next. -/
def ring (count : Nat) : List Resolved.Class :=
  (List.range count).flatMap fun i =>
    [named (numbered "A" i) .service [on (numbered "B" i) "b"],
      named (numbered "B" i) .service
        (on (numbered "A" i) "a" ::
          if i + 1 < count then [on (numbered "A" (i + 1)) "next"] else [])]

/-- Assemble, mark cycles, and restrict to what the entries reach in both directions. -/
def run (classes : List Resolved.Class) (entries : List String) : Noted Graph :=
  ((Assembly.assemble true classes).withoutAdvice.andThen Pipeline.markCycles).andThen
    (Pipeline.restrict entries .both)

end Wiring.Workload
