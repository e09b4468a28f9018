import Wiring.Pipeline
import Wiring.Proofs.Diagnostics
import Wiring.Proofs.Flags
import Wiring.Proofs.Pipeline

/-! # The notes of building

Building takes notes at every stage. Those that leave a trace in a store come from resolving the
records, from dropping classes and from the cycles of the whole graph. So they are the same under
every configuration: what the configuration asks for is only logged.
-/

namespace Wiring

open Note (lasting)

namespace Assembly

theorem lasting_collect (includeFlags : Bool) (position : Nat) (seen : List String)
    (classes : List Resolved.Class) :
    lasting (collect includeFlags position seen classes).2.2 =
      (collect includeFlags position seen classes).2.2 := by
  fun_induction collect includeFlags position seen classes with
  | case1 position seen => rfl
  | case2 position seen resolved rest unnamed nodes edges notes equal ih =>
    rw [equal] at ih
    exact congrArg _ ih
  | case3 position seen resolved rest name named again nodes edges notes equal ih =>
    rw [equal] at ih
    exact congrArg _ ih
  | case4 position seen resolved rest name named isNew nodes edges notes equal ih =>
    rw [equal] at ih
    exact ih

/-- Advice on dropped classes is all that is left of assembling, whether flags are wanted or not. -/
theorem lasting_assemble (includeFlags : Bool) (classes : List Resolved.Class) :
    lasting (assemble includeFlags classes).notes = (collect true 1 [] classes).2.2 := by
  have dropped : (collect includeFlags 1 [] classes).2.2 = (collect true 1 [] classes).2.2 := by
    cases includeFlags with
    | true => rfl
    | false => rw [collect_withoutFlags]
  calc
    lasting (assemble includeFlags classes).notes
      = lasting (collect includeFlags 1 [] classes).2.2 ++ [] := Note.lasting_append _ [_]
    _ = (collect true 1 [] classes).2.2 := by rw [List.append_nil, lasting_collect, dropped]

end Assembly

namespace Pipeline

/-- What is advised on the way from resolved classes to a graph: on each class that is dropped, and
on each cycle. -/
def connectionAdvice (classes : List Resolved.Class) : List Note :=
  (Assembly.collect true 1 [] classes).2.2 ++
    adviseCycles (Assembly.assemble true classes).value.markCycles

private theorem lasting_markCycles (graph : Graph) : lasting (markCycles graph).notes = [] := by
  simp only [markCycles]
  split <;> rfl

private theorem lasting_adviseCycles (graph : Graph) :
    lasting (adviseCycles graph) = adviseCycles graph := by
  refine List.filter_eq_self.mpr fun note listed => ?_
  obtain ⟨trip, _, rfl⟩ := List.mem_map.mp listed
  rfl

private theorem lasting_restrict (entries : List String) (direction : Direction) (graph : Graph) :
    lasting (restrict entries direction graph).notes = [] := by
  refine List.filter_eq_nil_iff.mpr fun note listed => ?_
  simp only [restrict] at listed
  split at listed
  · nomatch listed
  · rcases List.mem_append.mp listed with missing | closing
    · obtain ⟨entry, _, rfl⟩ := List.mem_map.mp missing
      exact Bool.false_ne_true
    · obtain rfl := List.mem_singleton.mp closing
      exact Bool.false_ne_true

private theorem lasting_focus (config : Config) (graph : Graph) :
    lasting (focus config graph).notes = [] := by
  rw [focus]
  split
  · rfl
  · rw [Noted.followedBy, Note.lasting_append, lasting_restrict]
    rfl

/-- Flags have no influence on the cycles, and so none on what is advised. -/
theorem lasting_connect (includeFlags : Bool) (classes : List Resolved.Class) :
    lasting (connect includeFlags classes).notes = connectionAdvice classes := by
  have cycles : adviseCycles (Assembly.assemble includeFlags classes).value.markCycles =
      adviseCycles (Assembly.assemble true classes).value.markCycles := by
    cases includeFlags with
    | true => rfl
    | false =>
      rw [Assembly.assemble_withoutFlags, Graph.markCycles_withoutFlags]
      rfl
  calc
    lasting (connect includeFlags classes).notes
      = lasting (Assembly.assemble includeFlags classes).notes ++
          adviseCycles (Assembly.assemble includeFlags classes).value.markCycles := by
        simp only [connect, Noted.andThen, Note.lasting_append, lasting_markCycles,
          lasting_adviseCycles, List.append_nil]
        rfl
    _ = connectionAdvice classes := by rw [Assembly.lasting_assemble, cycles, connectionAdvice]

/-- The notes of building that leave a trace do not depend on the configuration. -/
theorem lasting_build (config : Config) {records : List Record}
    {resolved : Noted (List Resolved.Class)} (ok : resolve records = .ok resolved) :
    lasting (build config records).notes =
      lasting resolved.notes ++ connectionAdvice resolved.value := by
  have logged (label : String) (category : Log.Category) : lasting [finished label category] = [] :=
    rfl
  have told (graph : Graph) : lasting [built graph] = [] := rfl
  simp only [build, ok, Noted.map, Noted.followedBy, Noted.andThen, Note.lasting_append,
    lasting_connect, lasting_focus, logged, told, List.append_nil]

end Pipeline

end Wiring
