import Wiring.Proofs.Notes
import Wiring.Proofs.Threading

/-! # What configuration and diagnostics decide

The configuration acts at two places: it takes the flags off the whole graph, and it restricts what
is left. It has no influence on what is recorded. The diagnostics recorded before have none on the
graph; a second run on the same records finds its advice recorded and counts everything once more.
-/

namespace Wiring.Pipeline

theorem resolvedOf_map_facts {τ : Type} (classes : List (Facts.Class τ)) :
    resolvedOf (classes.map .facts) = [] := by
  simp [resolvedOf, List.filterMap_map]

/-- Flags are taken off the whole graph if they are not wanted. -/
theorem markCycles_assemble (includeFlags : Bool) (classes : List Resolved.Class) :
    (Assembly.assemble includeFlags classes).value.markCycles =
      if includeFlags then (Assembly.assemble true classes).value.markCycles
      else (Assembly.assemble true classes).value.markCycles.withoutFlags := by
  cases includeFlags with
  | true => rfl
  | false => rw [Assembly.assemble_withoutFlags, Graph.markCycles_withoutFlags, if_neg nofun]

private theorem build_flagsAsserted (config : Config) (classes : List Resolved.Class) :
    ((Assembly.assemble config.includeFlags classes).value.markCycles.restrict
      config.entries config.direction).FlagsAsserted :=
  (Assembly.assemble_flagsAsserted config.includeFlags classes).markCycles.restrict _ _

/-- What is recorded does not depend on the configuration. -/
theorem buildIn_store_congr (store : Diagnostics) (first second : Config) {records : List Record}
    {resolved : Noted (List Resolved.Class)} (ok : resolve records = .ok resolved) :
    (buildIn store first records).2 = (buildIn store second records).2 := by
  rw [snd_buildIn, snd_buildIn]
  exact store.absorb_congr ((lasting_build first ok).trans (lasting_build second ok).symm)

/-- The configuration acts on the whole graph with its flags, which is the same for all directions:
flags are taken off unless they are wanted, and the rest is restricted to what the entries reach.
Without flags the same part comes out but for its flags, where flags are shown one is asserted, and
what is recorded is the same under every configuration. -/
theorem build_configured (records : List Record)
    (unmixed : factsOf records = [] ∨ resolvedOf records = []) :
    ∃ base, (∀ direction, (build ⟨direction, [], true⟩ records).value = .ok base) ∧
      ∀ config, ∃ part, (build config records).value = .ok part ∧
        part = (if config.includeFlags then base else base.withoutFlags).restrict
          config.entries config.direction ∧
        (build { config with includeFlags := false } records).value = .ok part.withoutFlags ∧
        part.FlagsAsserted ∧
        ∀ store other, (buildIn store config records).2 = (buildIn store other records).2 := by
  obtain ⟨resolved, ok⟩ := exists_resolve unmixed
  refine ⟨(Assembly.assemble true resolved.value).value.markCycles,
    fun direction => build_value ⟨direction, [], true⟩ ok, fun config => ?_⟩
  refine ⟨_, build_value config ok, ?_, ?_, build_flagsAsserted config resolved.value,
    fun store other => buildIn_store_congr store config other ok⟩
  · rw [markCycles_assemble]
  · rw [build_value _ ok, markCycles_assemble config.includeFlags, ← Graph.restrict_withoutFlags,
      markCycles_assemble]
    cases config.includeFlags with
    | true => rfl
    | false => simp

/-- Two classes that need each other, one of them optionally, and flags that say nothing. -/
def qualified : List Record :=
  [.resolved ⟨some "Users", .service, none,
      [⟨"Orders", "orders", some ⟨some true, none, none, none⟩⟩, ⟨"Clock", "clock", some .unset⟩],
      none⟩,
    .resolved ⟨some "Orders", .service, none, [⟨"Users", "users", none⟩], none⟩,
    .resolved ⟨some "Audit", .service, none, [⟨"Users", "users", none⟩], none⟩]

theorem build_configured_qualified :
    factsOf qualified = [] ∧
    ∃ base part, (build ⟨.upstream, [], true⟩ qualified).value = .ok base ∧
      (build ⟨.downstream, ["Users"], true⟩ qualified).value = .ok part ∧
      part = base.restrict ["Users"] .downstream ∧
      (build ⟨.downstream, ["Users"], false⟩ qualified).value = .ok part.withoutFlags ∧
      part.FlagsAsserted ∧
      (buildIn .empty ⟨.downstream, ["Users"], true⟩ qualified).2 =
        (buildIn .empty ⟨.both, [], false⟩ qualified).2 := by
  obtain ⟨base, whole, configured⟩ := build_configured qualified (.inl rfl)
  obtain ⟨part, ok, restricted, plain, asserted, recorded⟩ :=
    configured ⟨.downstream, ["Users"], true⟩
  exact ⟨rfl, base, part, whole .upstream, ok, restricted, plain, asserted, recorded _ _⟩

/-- Whatever a store holds, the graph comes out as from an empty store. A second run on the same
facts, be it under another configuration, records no further warning and counts once more what the
first run counted, which is what a run counts on an empty store. After a reset everything is as on
an empty store. -/
theorem build_again (store : Diagnostics) (classes : List Facts.Class) (first second : Config) :
    let records := classes.map Record.facts
    let fresh := buildIn .empty first records
    let once := buildIn store first records
    let twice := buildIn once.2 second records
    (∃ graph, once.1 = .ok graph ∧ fresh.1 = .ok graph) ∧
    twice.2.warnings = once.2.warnings ∧
    once.2.tally = store.tally.add fresh.2.tally ∧
    twice.2.tally = once.2.tally.add fresh.2.tally ∧
    ∀ (used : Diagnostics) (config : Config) (others : List Record),
      buildIn used.reset config others = buildIn .empty config others := by
  intro records fresh once twice
  obtain ⟨resolved, ok⟩ := exists_resolve (.inr (resolvedOf_map_facts classes))
  have same := (lasting_build second ok).trans (lasting_build first ok).symm
  have counts (before : Diagnostics) :
      (buildIn before first records).2.tally = before.tally.add fresh.2.tally := by
    simp only [fresh, snd_buildIn, Diagnostics.tally_absorb]
    exact congrArg _ (Tally.zero_add _).symm
  have counted : twice.2.tally = once.2.tally.add fresh.2.tally := by
    rw [← counts once.2]
    exact congrArg _ (buildIn_store_congr once.2 second first ok)
  have warned : twice.2.warnings = once.2.warnings := by
    simp only [twice, once, snd_buildIn]
    exact store.warnings_absorb_again same
  have built (before : Diagnostics) :=
    (fst_buildIn before first records).trans (build_value first ok)
  exact ⟨⟨_, built store, built .empty⟩, warned, counts store, counted, fun _ _ _ => rfl⟩

end Wiring.Pipeline
