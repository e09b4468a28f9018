import Wiring.Pipeline
import Wiring.Proofs.Assembly

/-! # The graph that is built

Building resolves records, assembles them, marks the cycles of what comes out, and restricts it.
Each stage hands on what the next one relies on, so that the graph at the end is consistent under
every configuration.
-/

namespace Wiring.Pipeline

/-- Records of one sort can be resolved. -/
theorem exists_resolve {records : List Record}
    (unmixed : factsOf records = [] ∨ resolvedOf records = []) :
    ∃ resolved, resolve records = .ok resolved := by
  by_cases noFacts : (factsOf records).isEmpty
  · exact ⟨_, if_pos noFacts⟩
  · have noResolved : (resolvedOf records).isEmpty := by
      rcases unmixed with none | none
      · exact absurd (List.isEmpty_iff.mpr none) noFacts
      · exact List.isEmpty_iff.mpr none
    exact ⟨_, (if_neg noFacts).trans (if_pos noResolved)⟩

theorem connect_value (includeFlags : Bool) (classes : List Resolved.Class) :
    (connect includeFlags classes).value =
      (Assembly.assemble includeFlags classes).value.markCycles := rfl

theorem focus_value (config : Config) (graph : Graph) :
    (focus config graph).value = graph.restrict config.entries config.direction := by
  by_cases none : config.entries.isEmpty
  · rw [focus, if_pos none, Graph.restrict, if_pos none]
  · rw [focus, if_neg none]
    rfl

/-- What is built from resolved classes, stage by stage. -/
theorem build_value (config : Config) {records : List Record}
    {resolved : Noted (List Resolved.Class)} (ok : resolve records = .ok resolved) :
    (build config records).value =
      .ok (((Assembly.assemble config.includeFlags resolved.value).value.markCycles).restrict
        config.entries config.direction) := by
  simp only [build, ok, Noted.map, Noted.followedBy, Noted.andThen, focus_value, connect_value]

/-- From records of one sort a graph is built under every configuration, and it is consistent with
the whole graph, which the same configuration without entries gives. -/
theorem build_consistent (config : Config) (records : List Record)
    (unmixed : factsOf records = [] ∨ resolvedOf records = []) :
    ∃ whole part, (build { config with entries := [] } records).value = .ok whole ∧
      (build config records).value = .ok part ∧ Graph.Consistent whole part := by
  obtain ⟨resolved, ok⟩ := exists_resolve unmixed
  have assembled := Assembly.assemble_assembled config.includeFlags resolved.value
  obtain ⟨reach, coherent, kept⟩ := Graph.exists_coherent_keep (Graph.markCycles_sound
    (Assembly.assemble config.includeFlags resolved.value).value) config.entries config.direction
  refine ⟨_, _, build_value { config with entries := [] } ok, build_value config ok, ?_⟩
  rw [kept]
  exact assembled.consistent coherent

/-- Two classes that need each other, one of them also a token that no class provides, and a class
beside them under the name of one of them. -/
def tangled : List Record :=
  [.resolved ⟨some "Users", .service, none, [⟨"Orders", "orders", none⟩], none⟩,
    .resolved ⟨some "Orders", .service, none,
      [⟨"Users", "users", none⟩, ⟨"Clock", "clock", none⟩], none⟩,
    .resolved ⟨some "Users", .unknown, none, [⟨"Users", "self", none⟩], none⟩]

theorem build_consistent_tangled :
    factsOf tangled = [] ∧
    ∃ whole part, (build ⟨.upstream, [], true⟩ tangled).value = .ok whole ∧
      (build ⟨.upstream, ["Orders"], true⟩ tangled).value = .ok part ∧
      Graph.Consistent whole part :=
  ⟨rfl, build_consistent ⟨.upstream, ["Orders"], true⟩ tangled (.inl rfl)⟩

end Wiring.Pipeline
