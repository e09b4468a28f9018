import Wiring.Assembly
import Wiring.Proofs.Firsts

/-! # The graph in order of discovery

Assembling goes through the classes once and remembers the names that it has met. What it gives is
told without that memory: of the classes under one name the first one stands for it, with a node
and with an edge for each of its dependencies, and the others leave nothing behind. Advice on them
goes to a store if there is one, and has no influence on the graph.
-/

namespace Wiring

private theorem Flags.asserted_eq_nil_iff (flags : Flags) :
    flags.asserted = [] ↔ flags.isEmpty = true := by
  obtain ⟨optional, self, skipSelf, host⟩ := flags
  cases optional <;> cases self <;> cases skipSelf <;> cases host <;>
    simp [asserted, fields, isEmpty]

namespace Assembly

/-- The classes with their trimmed names, in order. A class whose name is missing or blank is left
out. -/
def named (classes : List Resolved.Class) : List (String × Resolved.Class) :=
  (classes.map fun resolved => (Text.trim (resolved.name.getD ""), resolved)).filter (·.1 ≠ "")

/-- The first class under each name, in order. -/
def standing (classes : List Resolved.Class) : List (String × Resolved.Class) :=
  firstsBy (·.1) (named classes)

/-- The flags that an edge shows: those of the dependency, if they are wanted and one of them is
set. -/
def shownFlags (includeFlags : Bool) (dependency : Resolved.Dependency) : Option Flags :=
  if includeFlags = true ∧ ∃ flags ∈ dependency.flags, flags.asserted ≠ [] then dependency.flags
  else none

/-- The graph that classes describe. -/
def described (includeFlags : Bool) (classes : List Resolved.Class) : Graph where
  nodes := (standing classes).map fun item => ⟨item.1, item.2.kind⟩
  edges := (standing classes).flatMap fun item => item.2.dependencies.map fun dependency =>
    { source := item.1
      target := dependency.token
      flags := shownFlags includeFlags dependency
      circular := none }
  cycles := []

/-- Assemble classes with a store at hand, or without one: the graph, and what the store holds
afterwards. Without a store no advice is given. -/
def assembleIn (store : Option Diagnostics) (includeFlags : Bool) (classes : List Resolved.Class) :
    Graph × Option Diagnostics :=
  match store with
  | none => ((assemble includeFlags classes).withoutAdvice.value, none)
  | some store =>
    ((assemble includeFlags classes).value,
      some (store.absorb (assemble includeFlags classes).notes).1)

variable {resolved : Resolved.Class} {rest : List Resolved.Class} {name : String}

private theorem name?_eq (resolved : Resolved.Class) :
    name? resolved = if Text.trim (resolved.name.getD "") = "" then none
      else some (Text.trim (resolved.name.getD "")) := by
  unfold name?
  cases resolved.name with
  | none => rfl
  | some written => rw [Option.bind_some, Text.nonBlank?, Option.getD_some]

private theorem named_cons_of_none (unnamed : name? resolved = none) :
    named (resolved :: rest) = named rest := by
  rw [name?_eq] at unnamed
  split at unnamed
  · rename_i blank
    exact List.filter_cons_of_neg (by simp [blank])
  · simp at unnamed

private theorem named_cons_of_some (found : name? resolved = some name) :
    named (resolved :: rest) = (name, resolved) :: named rest := by
  rw [name?_eq] at found
  split at found
  · simp at found
  · rename_i nonBlank
    obtain rfl := Option.some.inj found
    exact List.filter_cons_of_pos (by simp [nonBlank])

private theorem shownFlags_eq (includeFlags : Bool) (dependency : Resolved.Dependency) :
    shownFlags includeFlags dependency =
      if includeFlags then dependency.flags.filter fun flags => !flags.isEmpty else none := by
  unfold shownFlags
  cases includeFlags with
  | false => simp
  | true =>
    cases dependency.flags with
    | none => simp
    | some flags =>
      cases empty : flags.isEmpty <;>
        simp [Option.filter, empty, Flags.asserted_eq_nil_iff]

theorem edgesOf_eq (includeFlags : Bool) (name : String) (resolved : Resolved.Class) :
    edgesOf includeFlags name resolved = resolved.dependencies.map fun dependency =>
      ⟨name, dependency.token, shownFlags includeFlags dependency, none⟩ := by
  simp only [shownFlags_eq]
  rfl

/-- From any class on, what is collected comes from the first class under each name that was not
seen before. -/
theorem collect_eq (includeFlags : Bool) (position : Nat) (seen : List String)
    (classes : List Resolved.Class) :
    let fresh := newBy (·.1) seen (named classes)
    (collect includeFlags position seen classes).1 =
        fresh.map (fun item => ⟨item.1, item.2.kind⟩) ∧
      (collect includeFlags position seen classes).2.1 =
        fresh.flatMap fun item => edgesOf includeFlags item.1 item.2 := by
  fun_induction collect includeFlags position seen classes with
  | case1 position seen => exact ⟨rfl, rfl⟩
  | case2 position seen resolved rest unnamed nodes edges notes equal ih =>
    rw [equal] at ih
    rw [named_cons_of_none unnamed]
    exact ih
  | case3 position seen resolved rest name found again nodes edges notes equal ih =>
    rw [equal] at ih
    rw [named_cons_of_some found, newBy_cons_of_mem again]
    exact ih
  | case4 position seen resolved rest name found isNew nodes edges notes equal ih =>
    rw [equal] at ih
    obtain ⟨sameNodes, sameEdges⟩ := ih
    simp only at sameNodes sameEdges
    rw [named_cons_of_some found, newBy_cons_of_notMem isNew]
    subst sameNodes sameEdges
    exact ⟨rfl, rfl⟩

theorem assemble_eq_described (includeFlags : Bool) (classes : List Resolved.Class) :
    (assemble includeFlags classes).value = described includeFlags classes := by
  have collected : (assemble includeFlags classes).value =
      ⟨(collect includeFlags 1 [] classes).1, (collect includeFlags 1 [] classes).2.1, []⟩ := rfl
  obtain ⟨nodes, edges⟩ := collect_eq includeFlags 1 [] classes
  rw [collected, nodes, edges]
  simp only [described, standing, newBy_nil_left, edgesOf_eq]

/-- Assembling gives the graph that the classes describe, with or without a store. -/
theorem assembleIn_graph (store : Option Diagnostics) (includeFlags : Bool)
    (classes : List Resolved.Class) :
    (assembleIn store includeFlags classes).1 = described includeFlags classes := by
  cases store with
  | none => exact assemble_eq_described includeFlags classes
  | some store => exact assemble_eq_described includeFlags classes

end Assembly

end Wiring
