import Mathlib.Algebra.Order.BigOperators.Group.List
import Mathlib.Algebra.Order.Ring.Nat
import Wiring.Proofs.Accounting

/-! # The numbers of dropped classes

An anonymous class among facts is told of with its place. A class whose name is taken is not: it is
dropped by assembling, which does not count the anonymous classes before it. So the numbers are the
places exactly if no anonymous class stands before a class whose name is taken.
-/

namespace Wiring.Pipeline

section Numbers

variable {classes : List Facts.Class} {item : Record × Nat}

/-- Facts are about anonymous classes, or give a resolved class. -/
theorem length_resolved_add_anonymous (classes : List Facts.Class) :
    ((classes.map Record.facts).filterMap Record.resolved?).length +
      (classes.map Record.facts).countP (·.name?.isNone) = classes.length := by
  induction classes with
  | nil => rfl
  | cons facts rest ih =>
    rw [List.map_cons, List.countP_cons, List.length_cons]
    cases found : (Record.facts facts).resolved? with
    | none =>
      rw [List.filterMap_cons_none found, Record.name?_of_resolved? found]
      simp only [Option.isNone_none, if_true]
      omega
    | some resolved =>
      have named : (Record.facts facts).name? ≠ none := fun unnamed =>
        nomatch found.symm.trans (Record.resolved?_facts unnamed)
      rw [List.filterMap_cons_some found, List.length_cons]
      simp only [Option.isNone_iff_eq_none, named, if_false]
      omega

private theorem exists_facts (listed : item ∈ dropped (classes.map Record.facts)) :
    ∃ facts, item.1 = Record.facts facts ∧ item.2 < classes.length := by
  have place := List.mem_zipIdx_iff_getElem?.mp (List.mem_filter.mp listed).1
  obtain ⟨within, _⟩ := List.getElem?_eq_some_iff.mp place
  obtain ⟨facts, _, same⟩ := List.mem_map.mp (List.mem_of_getElem? place)
  exact ⟨facts, same.symm, List.length_map _ ▸ within⟩

/-- An anonymous class has its place as its number. -/
theorem number_anonymous (listed : item ∈ dropped (classes.map Record.facts))
    (unnamed : item.1.name? = none) : number (classes.map Record.facts) item = item.2 + 1 := by
  obtain ⟨facts, same, _⟩ := exists_facts listed
  rw [same] at unnamed
  rw [number, same, Record.resolved?_facts unnamed]
  rfl

/-- A class with a name falls short of its place by the anonymous classes before it. -/
theorem number_named (listed : item ∈ dropped (classes.map Record.facts))
    (named : item.1.name? ≠ none) :
    number (classes.map Record.facts) item +
      ((classes.map Record.facts).take item.2).countP (·.name?.isNone) = item.2 + 1 := by
  obtain ⟨facts, _, within⟩ := exists_facts listed
  have count := length_resolved_add_anonymous (classes.take item.2)
  rw [List.length_take_of_le within.le, List.map_take] at count
  rw [number, Record.isNone_resolved? named, if_neg Bool.false_ne_true]
  omega

private theorem number_le (listed : item ∈ dropped (classes.map Record.facts)) :
    number (classes.map Record.facts) item ≤ item.2 + 1 := by
  by_cases unnamed : item.1.name? = none
  · exact (number_anonymous listed unnamed).le
  · have := number_named listed unnamed
    omega

private theorem number_eq_place_iff (listed : item ∈ dropped (classes.map Record.facts)) :
    number (classes.map Record.facts) item = item.2 + 1 ↔
      (item.1.name? ≠ none →
        ∀ earlier ∈ (classes.map Record.facts).take item.2, earlier.name? ≠ none) := by
  by_cases unnamed : item.1.name? = none
  · simp only [number_anonymous listed unnamed, unnamed, ne_eq, not_true_eq_false, false_implies]
  · have count := number_named listed unnamed
    have none_before : ((classes.map Record.facts).take item.2).countP (·.name?.isNone) = 0 ↔
        ∀ earlier ∈ (classes.map Record.facts).take item.2, earlier.name? ≠ none := by
      simp only [List.countP_eq_zero, Option.isNone_iff_eq_none, ne_eq]
    rw [← none_before, imp_iff_right unnamed]
    omega

end Numbers

/-- The losses are worded with places throughout only if every number is the place. -/
theorem losses_perm_places_iff (classes : List Facts.Class) :
    (losses (classes.map Record.facts)).Perm
        ((dropped (classes.map Record.facts)).map fun item => item.1.loss (item.2 + 1)) ↔
      ∀ item ∈ dropped (classes.map Record.facts),
        number (classes.map Record.facts) item = item.2 + 1 := by
  have told := losses_perm (classes.map Record.facts)
  constructor
  · intro placed item listed
    -- the numbers in the wordings have the sum of the places, and none is above its place
    have same := ((told.symm.trans placed).map fun diagnostic =>
      Text.lastNumber diagnostic.message).sum_eq
    simp only [List.map_map, Function.comp_def, Record.loss, Record.lastNumber_lossMessage] at same
    by_contra other
    have less := List.sum_lt_sum (number (classes.map Record.facts)) (fun item => item.2 + 1)
      (fun _ => number_le) ⟨item, listed, lt_of_le_of_ne (number_le listed) other⟩
    exact less.ne same
  · intro same
    have equal : ((dropped (classes.map Record.facts)).map fun item =>
        item.1.loss (number (classes.map Record.facts) item)) =
          (dropped (classes.map Record.facts)).map fun item => item.1.loss (item.2 + 1) :=
      List.map_congr_left fun item listed => by rw [same item listed]
    exact equal ▸ told

/-- From facts, with nothing recorded before, the losses are recorded one for one. The number of an
anonymous class is its place; that of a class whose name is taken falls short of it by the anonymous
classes before. All numbers are places exactly if there are no such classes. -/
theorem build_numbers {store : Diagnostics} (fresh : store.warnings = []) (config : Config)
    (classes : List Facts.Class) :
    let records := classes.map Record.facts
    let recorded := (buildIn store config records).2.ofCategory .skippedClasses
    recorded.Perm ((dropped records).map fun item => item.1.loss (number records item)) ∧
    (∀ item ∈ dropped records, item.1.name? = none → number records item = item.2 + 1) ∧
    (∀ item ∈ dropped records, item.1.name? ≠ none →
      number records item + (records.take item.2).countP (·.name?.isNone) = item.2 + 1) ∧
    (recorded.Perm ((dropped records).map fun item => item.1.loss (item.2 + 1)) ↔
      ∀ item ∈ dropped records, item.1.name? ≠ none →
        ∀ earlier ∈ records.take item.2, earlier.name? ≠ none) := by
  intro records recorded
  have all : recorded = losses records :=
    recorded_build fresh config (.inr (resolvedOf_map_facts classes))
  refine ⟨?_, fun _ => number_anonymous, fun _ => number_named, ?_⟩
  · rw [all]
    exact losses_perm records
  · rw [all, losses_perm_places_iff]
    exact forall₂_congr fun item listed => number_eq_place_iff listed

theorem build_numbers_crowded :
    let records := crowded.map Record.facts
    let recorded := (buildIn .empty .standard records).2.ofCategory .skippedClasses
    Diagnostics.empty.warnings = [] ∧
    recorded.Perm ((dropped records).map fun item => item.1.loss (number records item)) ∧
    ∃ item ∈ dropped records, item.1.name? = some "Users" ∧
      number records item + 2 = item.2 + 1 := by
  intro records recorded
  obtain ⟨told, _, short, _⟩ :=
    build_numbers (rfl : Diagnostics.empty.warnings = []) .standard crowded
  -- the last class of the list, with two anonymous ones before it
  let last := Record.facts ⟨some "Users", .service, "app.ts", [], none⟩
  have listed : (last, 4) ∈ dropped records := by decide
  have named : last.name? = some "Users" := by decide
  have before : (records.take 4).countP (·.name?.isNone) = 2 := by decide
  refine ⟨rfl, told, _, listed, named, ?_⟩
  rw [← before]
  exact short _ listed (by simp [named])

/-- A class under the name of another, after an anonymous one. -/
def shifted : List Facts.Class :=
  [⟨none, .service, "src/app.ts", [], none⟩, ⟨some "Users", .service, "src/app.ts", [], none⟩,
    ⟨some "Users", .component, "src/app.ts", [], none⟩]

/-- The class in the third place is told of as the second. -/
theorem numbers_are_not_places :
    let records := shifted.map Record.facts
    let recorded := (buildIn .empty .standard records).2.ofCategory .skippedClasses
    ¬ recorded.Perm ((dropped records).map fun item => item.1.loss (item.2 + 1)) := by
  intro records recorded placed
  have all : recorded = losses records := recorded_build rfl .standard (.inr rfl)
  rw [all] at placed
  have listed : (Record.facts ⟨some "Users", .component, "src/app.ts", [], none⟩, 2) ∈
      dropped records := by decide
  have third := (losses_perm_places_iff shifted).mp placed _ listed
  exact absurd third (by decide)

end Wiring.Pipeline
