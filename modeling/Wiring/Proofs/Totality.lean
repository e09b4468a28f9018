import Mathlib.Algebra.Group.Nat.Defs
import Mathlib.Data.List.Rotate
import Wiring.Proofs.Accounting
import Wiring.Proofs.Pipeline
import Wiring.Proofs.Reloading
import Wiring.Proofs.Search.Lookups

/-! # What accepted input comes to

Valid records of one sort lead to a graph that both renderings take: the resolver hands on tokens
that are trimmed and not empty, nodes get names, cycles have a first node, and every look-up is in
range. Two things can keep this graph from coming out, a string that is no text and a line number
that is too long to be told, and each of them does.
-/

namespace Wiring

open Schema
open Json (Value Writing)

section Restriction

/-- A list is what is looked up at its places, one after the other. -/
theorem mapM_range {α : Type} {items : List α} {look : Nat → Option α}
    (each : ∀ place < items.length, look place = items[place]?) :
    (List.range items.length).mapM look = some items := by
  induction items generalizing look with
  | nil => rfl
  | cons item items ih =>
    have first : look 0 = some item := each 0 (Nat.zero_lt_succ _)
    have rest : (List.range items.length).mapM (look ∘ Nat.succ) = some items :=
      ih fun place inside => each (place + 1) (Nat.succ_lt_succ inside)
    rw [List.length_cons, List.range_succ_eq_map, List.mapM_cons, List.mapM_map, first, rest]
    rfl

private theorem filterM_some {α : Type} (keep : α → Bool) (items : List α) :
    items.filterM (fun item => some (keep item)) = some (items.filter keep) := by
  have each (sofar : List α) : items.filterAuxM (fun item => some (keep item)) sofar =
      some ((items.filter keep).reverse ++ sofar) := by
    induction items generalizing sofar with
    | nil => rfl
    | cons item items ih =>
      cases kept : keep item <;> simp [List.filterAuxM, kept, ih]
  simp [List.filterM, each]

namespace Graph

/-- The step of a cycle at a place; after the last place comes the first. -/
def stepAt? (cycle : List String) (place : Nat) : Option (String × String) := do
  let here ← cycle[place]?
  let next ← cycle[(place + 1) % cycle.length]?
  return (here, next)

private theorem mapM_stepAt? (cycle : List String) :
    (List.range cycle.length).mapM (stepAt? cycle) = some (cycleSteps cycle) := by
  have steps : cycleSteps cycle = cycle.zip (cycle.rotate 1) := by
    cases cycle with
    | nil => rfl
    | cons first rest => rw [cycleSteps, List.rotate_eq_drop_append_take (by simp)]
  have around : (cycleSteps cycle).length = cycle.length := by simp [steps]
  rw [← around]
  refine mapM_range fun place inside => ?_
  rw [around] at inside
  have wrapped : (cycle.rotate 1)[place]? = cycle[(place + 1) % cycle.length]? :=
    List.getElem?_rotate inside
  rw [stepAt?, ← wrapped, steps]
  simp [inside]

/-- Whether a cycle survives, its steps looked up place by place. -/
def survives? (ids : List String) (steps : List (String × String)) (cycle : List String) :
    Option Bool :=
  if cycle.isEmpty || !cycle.all ids.contains then some false
  else do
    let around ← (List.range cycle.length).mapM (stepAt? cycle)
    return around.all steps.contains

theorem survives?_eq (ids : List String) (steps : List (String × String)) (cycle : List String) :
    survives? ids steps cycle = some (survives ids steps cycle) := by
  rw [survives?, mapM_stepAt?, survives]
  cases cycle.isEmpty <;> cases cycle.all ids.contains <;> rfl

/-- The sub-graph that the entries reach, with every step of a cycle looked up. -/
def restrict? (graph : Graph) (entries : List String) (direction : Direction) : Option Graph :=
  if entries.isEmpty then some graph
  else do
    let part := graph.keep (graph.reachAlong entries direction)
    let steps := part.edges.map fun edge => (edge.source, edge.target)
    let cycles ← graph.cycles.filterM (survives? part.ids steps)
    return { part with cycles := cycles }

theorem restrict?_eq (graph : Graph) (entries : List String) (direction : Direction) :
    graph.restrict? entries direction = some (graph.restrict entries direction) := by
  unfold restrict? restrict
  split
  · rfl
  · have survivors (ids : List String) (steps : List (String × String)) :
        graph.cycles.filterM (survives? ids steps) =
          some (graph.cycles.filter (survives ids steps)) := by
      rw [funext (survives?_eq ids steps)]
      exact filterM_some _ _
    simp only [survivors]
    rfl

end Graph

private theorem Graph.nodes_restrict_subset (graph : Graph) (entries : List String)
    (direction : Direction) : (graph.restrict entries direction).nodes ⊆ graph.nodes := by
  unfold restrict
  split
  · exact List.Subset.refl _
  · exact List.filter_sublist.subset

private theorem Graph.cycles_restrict_subset (graph : Graph) (entries : List String)
    (direction : Direction) : (graph.restrict entries direction).cycles ⊆ graph.cycles := by
  unfold restrict
  split
  · exact List.Subset.refl _
  · exact List.filter_sublist.subset

/-- No cycle that is listed is empty. -/
theorem Graph.cycle_ne_nil (graph : Graph) (entries : List String) (direction : Direction) :
    ∀ cycle ∈ (graph.markCycles.restrict entries direction).cycles, cycle ≠ [] := by
  intro cycle listed
  have marked := graph.markCycles.cycles_restrict_subset entries direction listed
  exact (Graph.markCycles_sound graph cycle marked).nonempty

end Restriction

section Drawing

private theorem Graph.exists_cycleLines {cycles : List (List String)}
    (nonempty : ∀ cycle ∈ cycles, cycle ≠ []) : ∃ lines, cycles.mapM cycleLine = .ok lines := by
  induction cycles with
  | nil => exact ⟨[], rfl⟩
  | cons cycle cycles ih =>
    obtain ⟨lines, drawn⟩ := ih fun other listed => nonempty other (List.mem_cons_of_mem _ listed)
    obtain ⟨first, rest, rfl⟩ := List.exists_cons_of_ne_nil (nonempty cycle (List.mem_cons_self ..))
    obtain ⟨line, spelled⟩ : ∃ line, cycleLine (first :: rest) = .ok line := ⟨_, rfl⟩
    refine ⟨line :: lines, ?_⟩
    rw [List.mapM_cons, spelled, drawn]
    rfl

/-- A graph can be drawn if every cycle has a first node. -/
theorem Graph.exists_mermaid {graph : Graph} (nonempty : ∀ cycle ∈ graph.cycles, cycle ≠ []) :
    ∃ text, graph.mermaid = .ok text := by
  unfold mermaid
  split
  · exact ⟨_, rfl⟩
  · obtain ⟨lines, drawn⟩ := exists_cycleLines nonempty
    unfold cycleLines
    split
    · exact ⟨_, rfl⟩
    · rw [drawn]
      exact ⟨_, rfl⟩

end Drawing

section Tokens

namespace Facts.Parameter

/-- The token of a parameter is trimmed, and not blank, if its type is. -/
theorem nonBlank?_token {parameter : Parameter}
    (trimmed : parameter.typeName.bind Text.nonBlank? = parameter.typeName) {token : String}
    (found : parameter.token = .ok token) : Text.nonBlank? token = some token := by
  unfold Parameter.token at found
  split at found
  -- a token that is given is trimmed when it is taken
  · rename_i given
    cases found
    rcases Option.or_eq_some_iff.mp given with byDecorator | ⟨_, byCall⟩
    · obtain ⟨decorator, _, named⟩ := List.exists_of_findSome?_eq_some byDecorator
      split at named
      · obtain ⟨written, _, kept⟩ := Option.bind_eq_some_iff.mp named
        exact Text.nonBlank?_of_nonBlank? kept
      · nomatch named
    · obtain ⟨call, _, given⟩ := Option.bind_eq_some_iff.mp byCall
      obtain ⟨written, _, kept⟩ := Option.bind_eq_some_iff.mp given
      exact Text.nonBlank?_of_nonBlank? kept
  · unfold typeToken at found
    split at found
    · nomatch found
    · rename_i type typed
      split at found
      · nomatch found
      · split at found
        · nomatch found
        · split at found
          · cases found
            rwa [typed, Option.bind_some] at trimmed
          · nomatch found

private theorem token_of_resolve {parameter : Parameter} {owner file : String}
    {dependency : Resolved.Dependency}
    (found : (parameter.resolve owner file).value = some dependency) :
    parameter.token = .ok dependency.token := by
  unfold resolve at found
  split at found
  · rename_i token given
    cases found
    exact given
  · nomatch found

end Facts.Parameter

namespace Resolved

theorem Dependency.decode_encode {dependency : Dependency} (named : dependency.token ≠ "") :
    decode dependency.encode = .ok dependency := by
  have flags : (Flags.decode "EdgeFlags").nullable
      ((dependency.flags.map Flags.encode).getD .null) = .ok dependency.flags :=
    Decoder.nullable_getD _ (fun _ => nofun) fun flags _ => flags.decode_encode "EdgeFlags"
  exact record_gives "ResolvedDependency"
    ((((Fields.required_gives rfl (Decoder.nonEmptyText_str named)).map Dependency.mk).seq
      (Fields.required_gives rfl (Decoder.text_str dependency.parameter))).seq
      (Fields.nullable_gives_found rfl flags))
    (by simp)

namespace Class

/-- What makes a resolved class a valid one. -/
structure Sound {τ : Type} (resolved : Class τ) : Prop where
  tokens : ∀ dependency ∈ resolved.dependencies, dependency.token ≠ ""
  located : ∀ location ∈ resolved.location, Valid Location.decode location

theorem decode_encode {resolved : Class Writing} (sound : resolved.Sound) :
    decode resolved.encode = .ok resolved :=
  record_gives "ResolvedClass"
    ((((((Fields.nullable_gives_found rfl (Decoder.nullable_ofWriting? resolved.name)).map
      Class.mk).seq
      (Fields.withDefault_gives rfl resolved.kind.decode_name)).seq
      (Fields.nullable_gives_found rfl (Decoder.nullable_ofString? resolved.file))).seq
      (Fields.withDefault_gives rfl (Decoder.list_map_self fun dependency listed =>
        Dependency.decode_encode (sound.tokens dependency listed)))).seq
      (Fields.nullable_gives_found rfl (Location.nullable_encode sound.located)))
    (by simp)

theorem sound_of_valid {resolved : Class Writing} (valid : Valid decode resolved) :
    resolved.Sound := by
  obtain ⟨_, location, upToDependencies, located, rfl⟩ :=
    Fields.valid_of_seq (valid_of_record valid)
  obtain ⟨_, dependencies, upToFile, listed, rfl⟩ := Fields.valid_of_seq upToDependencies
  obtain ⟨_, file, upToKind, _, rfl⟩ := Fields.valid_of_seq upToFile
  obtain ⟨_, kind, upToName, _, rfl⟩ := Fields.valid_of_seq upToKind
  obtain ⟨name, _, rfl⟩ := Fields.valid_of_map upToName
  refine ⟨?_, fun place present => Fields.valid_of_nullable located present⟩
  rcases Fields.valid_of_withDefault listed with rfl | listed
  · exact List.forall_mem_nil _
  · intro dependency there
    have valid := Decoder.valid_of_list listed dependency there
    obtain ⟨_, flags, upToParameter, _, rfl⟩ := Fields.valid_of_seq (valid_of_record valid)
    obtain ⟨_, parameter, upToToken, _, rfl⟩ := Fields.valid_of_seq upToParameter
    obtain ⟨token, required, rfl⟩ := Fields.valid_of_map upToToken
    exact Decoder.ne_empty_of_valid (Fields.valid_of_required required)

end Class

end Resolved

/-- A class that was loaded is resolved into a sound one whose tokens are trimmed. -/
theorem Facts.Class.sound_of_resolve {facts : Facts.Class Writing} (loaded : facts.Loaded)
    {position : Option Int} {resolved : Resolved.Class}
    (found : ((facts.map Writing.text).resolve position).value = some resolved) :
    resolved.Sound ∧ ∀ dependency ∈ resolved.dependencies,
      Text.nonBlank? dependency.token = some dependency.token := by
  unfold Facts.Class.resolve at found
  split at found
  · nomatch found
  · rename_i name named
    obtain rfl := Option.some.inj found
    have tokens : ∀ dependency ∈ ((facts.map Writing.text).parameters.map
        (·.resolve name facts.file)).filterMap (·.value),
        Text.nonBlank? dependency.token = some dependency.token := by
      intro dependency listed
      obtain ⟨_, there, given⟩ := List.mem_filterMap.mp listed
      obtain ⟨_, mapped, rfl⟩ := List.mem_map.mp there
      obtain ⟨parameter, listed, rfl⟩ := List.mem_map.mp mapped
      -- a type was trimmed when it was loaded, and is trimmed with its strings mended
      have trimmed : (parameter.typeName.map Writing.text).bind Text.nonBlank? =
          parameter.typeName.map Writing.text := by
        rw [Writing.map_text_bind, (loaded.parameters parameter listed).trimmed]
      exact Parameter.nonBlank?_token trimmed (Parameter.token_of_resolve given)
    refine ⟨⟨fun dependency listed => ?_, loaded.located⟩, tokens⟩
    exact (Text.nonBlank?_eq_some_iff.mp (tokens dependency listed)).2

end Tokens

namespace Pipeline

/-- Records as they are accepted: valid facts, or valid resolved classes. -/
inductive Accepted : List (Record Writing) → Prop
  | facts {classes : List (Facts.Class Writing)}
      (valid : ∀ facts ∈ classes, Valid Facts.Class.decode facts) : Accepted (classes.map .facts)
  | resolved {classes : List (Resolved.Class Writing)}
      (valid : ∀ resolved ∈ classes, Valid Resolved.Class.decode resolved) :
      Accepted (classes.map .resolved)

private theorem factsOf_map_resolved {τ : Type} (classes : List (Resolved.Class τ)) :
    factsOf (classes.map .resolved) = [] := by
  simp [factsOf, List.filterMap_map]

theorem Accepted.unmixed {records : List (Record Writing)} (accepted : Accepted records) :
    factsOf (mended records) = [] ∨ resolvedOf (mended records) = [] := by
  rw [factsOf_mended, resolvedOf_mended, List.map_eq_nil_iff, List.map_eq_nil_iff]
  cases accepted with
  | facts valid => exact .inr (resolvedOf_map_facts _)
  | resolved valid => exact .inl (factsOf_map_resolved _)

/-- What the resolver hands on: valid classes, with tokens that are trimmed if they come from
facts. -/
structure Resolves (records : List (Record Writing)) (classes : List Resolved.Class) : Prop where
  valid : ∀ resolved ∈ classes, Valid Resolved.Class.decode (resolved.map Writing.whole)
  tokens : ∀ resolved ∈ classes, ∀ dependency ∈ resolved.dependencies, dependency.token ≠ ""
  trimmed : resolvedOf records = [] → ∀ resolved ∈ classes,
    ∀ dependency ∈ resolved.dependencies, Text.trim dependency.token = dependency.token

private theorem Resolves.of_sound {records : List (Record Writing)} {classes : List Resolved.Class}
    (sound : ∀ resolved ∈ classes, resolved.Sound)
    (trimmed : resolvedOf records = [] → ∀ resolved ∈ classes,
      ∀ dependency ∈ resolved.dependencies, Text.trim dependency.token = dependency.token) :
    Resolves records classes where
  valid resolved listed := by
    have sound := sound resolved listed
    exact ⟨_, Resolved.Class.decode_encode ⟨sound.tokens, sound.located⟩⟩
  tokens resolved listed := (sound resolved listed).tokens
  trimmed := trimmed

theorem Accepted.resolves {records : List (Record Writing)} (accepted : Accepted records) :
    Resolves records ((mended records).filterMap Record.resolved?) := by
  cases accepted with
  | @facts classes valid =>
    have each (resolved : Resolved.Class)
        (listed : resolved ∈ (mended (classes.map .facts)).filterMap Record.resolved?) :
        resolved.Sound ∧ ∀ dependency ∈ resolved.dependencies,
          Text.nonBlank? dependency.token = some dependency.token := by
      obtain ⟨_, there, found⟩ := List.mem_filterMap.mp listed
      obtain ⟨_, mapped, rfl⟩ := List.mem_map.mp there
      obtain ⟨facts, known, rfl⟩ := List.mem_map.mp mapped
      exact Facts.Class.sound_of_resolve (Facts.Class.loaded_of_valid (valid facts known)) found
    refine .of_sound (fun resolved listed => (each resolved listed).1) fun _ => ?_
    intro resolved listed dependency depends
    exact (Text.nonBlank?_eq_some_iff.mp ((each resolved listed).2 dependency depends)).1
  | @resolved classes valid =>
    refine .of_sound (fun resolved listed => ?_) fun none => ?_
    · obtain ⟨_, there, found⟩ := List.mem_filterMap.mp listed
      obtain ⟨_, mapped, rfl⟩ := List.mem_map.mp there
      obtain ⟨given, known, rfl⟩ := List.mem_map.mp mapped
      obtain rfl := Option.some.inj found
      have sound := Resolved.Class.sound_of_valid (valid given known)
      exact ⟨sound.tokens, sound.located⟩
    · obtain rfl : classes = [] := by
        simpa [resolvedOf, List.filterMap_map, Function.comp_def] using none
      exact List.forall_mem_nil _

/-- No cycle of a graph that comes out is empty. -/
theorem cycle_ne_nil {digits : Option Nat} {store : Diagnostics} {config : Config}
    {records : List (Record Writing)} {graph : Graph}
    (given : (outcome digits store config records).1 = .ok graph) :
    ∀ cycle ∈ graph.cycles, cycle ≠ [] := by
  have built := build_of_outcome given
  cases ok : resolve (mended records) with
  | error breach => simp [build, ok] at built
  | ok resolved =>
    rw [build_value config ok] at built
    obtain rfl := Except.ok.inj built
    exact Graph.cycle_ne_nil _ _ _

/-- What is built from accepted records, stage by stage. With their strings mended, the resolver's
classes are valid; the nodes of the whole graph have names, the search for its cycles never looks up
what is not there, and its cycles are not empty; the restriction looks up steps that are there, and
both renderings take the graph that it gives. Whatever was recorded before, this graph comes out
exactly if the strings that are checked are whole and the lines in new advice are not too long to be
told, and otherwise building breaks off. -/
theorem build_succeeds_iff (records : List (Record Writing)) (accepted : Accepted records)
    (config : Config) (digits : Option Nat) (store : Diagnostics) :
    ∃ resolved, resolve (mended records) = .ok resolved ∧ Resolves records resolved.value ∧
      let whole := (Assembly.assemble config.includeFlags resolved.value).value
      (∀ node ∈ whole.nodes, node.id ≠ "") ∧
      (∃ steps, whole.circularity? steps = some whole.circularity) ∧
      (∀ cycle ∈ whole.markCycles.cycles, cycle ≠ []) ∧
      ∃ graph, whole.markCycles.restrict? config.entries config.direction = some graph ∧
        (∀ node ∈ graph.nodes, node.id ≠ "") ∧ (∀ cycle ∈ graph.cycles, cycle ≠ []) ∧
        (∃ text, (renderMermaid graph).value = .ok text) ∧
        (∃ value, Json.parse (renderJson graph).value = .ok value ∧
          Graph.decode value = .ok graph) ∧
        ((outcome digits store config records).1 = .ok graph ↔ Intact records ∧
          Ledger.Tells ⟨store, [], digits⟩ (build config (mended records)).notes) ∧
        ((outcome digits store config records).1 = .ok graph ∨
          ∃ breach, (outcome digits store config records).1 = .error breach ∧
            breach ≠ .mixedRecords) := by
  obtain ⟨resolved, ok, given, _⟩ := resolve_accounts accepted.unmixed
  refine ⟨resolved, ok, given ▸ accepted.resolves, ?_⟩
  intro whole
  have named : ∀ node ∈ whole.nodes, node.id ≠ "" := fun node listed =>
    (Assembly.assemble_assembled config.includeFlags resolved.value).named node.id
      (List.mem_map_of_mem listed)
  have rounds : ∀ cycle ∈ whole.markCycles.cycles, cycle ≠ [] := fun cycle listed =>
    (Graph.markCycles_sound whole cycle listed).nonempty
  let part := whole.markCycles.restrict config.entries config.direction
  have namedPart : ∀ node ∈ part.nodes, node.id ≠ "" := fun node listed =>
    named node (whole.markCycles.nodes_restrict_subset _ _ listed)
  have roundsPart : ∀ cycle ∈ part.cycles, cycle ≠ [] := whole.cycle_ne_nil _ _
  have reread : ∃ value, Json.parse (renderJson part).value = .ok value ∧
      Graph.decode value = .ok part :=
    ⟨_, Json.parse_pretty part.plain_encodePresent, Graph.decode_encodePresent namedPart⟩
  have succeeds : (outcome digits store config records).1 = .ok part ↔ Intact records ∧
      Ledger.Tells ⟨store, [], digits⟩ (build config (mended records)).notes :=
    outcome_ok_iff (build_value config ok) ok
  refine ⟨named, Graph.circularity?_eq whole, rounds, part, Graph.restrict?_eq .., namedPart,
    roundsPart, Graph.exists_mermaid roundsPart, reread, succeeds, ?_⟩
  by_cases fine : Intact records ∧
      Ledger.Tells ⟨store, [], digits⟩ (build config (mended records)).notes
  · exact .inl (succeeds.mpr fine)
  · exact .inr (exists_breach ok fine)

/-- A class that needs itself and another one by its token, as it is written. -/
def entwinedValue (name token : String) : Value :=
  .obj [("name", .str name), ("parameters", .arr [
    .obj [("name", .str "first"), ("type", .str name)],
    .obj [("name", .str "second"), ("decorators", .arr [
      .obj [("name", .str "Inject"), ("token", .str token)]])]])]

def entwined (name token : String) : Facts.Class Writing :=
  ⟨some (.whole name), .unknown, "", [⟨"first", some (.whole name), true, [], none, none⟩,
    ⟨"second", none, true, [⟨"Inject", some (.whole token)⟩], none, none⟩], none⟩

/-- Two classes that need each other by tokens with blanks around them. -/
def entwinedPair : List (Record Writing) :=
  [entwined "Users" " Orders", entwined "Orders" "Users\t"].map .facts

theorem build_succeeds_entwined :
    Accepted entwinedPair ∧ Intact entwinedPair ∧
    ∃ (resolved : Noted (List Resolved.Class)) (graph : Graph),
      resolve (mended entwinedPair) = .ok resolved ∧
      (∀ given ∈ resolved.value, ∀ dependency ∈ given.dependencies,
        dependency.token ≠ "" ∧ Text.trim dependency.token = dependency.token) ∧
      (outcome none .empty ⟨.both, ["Users"], true⟩ entwinedPair).1 = .ok graph ∧
      (∃ text, (renderMermaid graph).value = .ok text) ∧
      ∃ value, Json.parse (renderJson graph).value = .ok value ∧
        Graph.decode value = .ok graph := by
  have accepted : Accepted entwinedPair := by
    refine .facts (List.forall_mem_cons.mpr ⟨?_, List.forall_mem_singleton.mpr ?_⟩)
    · exact ⟨entwinedValue "Users" " Orders", rfl⟩
    · exact ⟨entwinedValue "Orders" "Users\t", rfl⟩
  have intact : Intact entwinedPair := by decide
  obtain ⟨resolved, ok, resolves, _, _, _, graph, _, _, _, drawn, rendered, succeeds, _⟩ :=
    build_succeeds_iff entwinedPair accepted ⟨.both, ["Users"], true⟩ none .empty
  have built := succeeds.mpr ⟨intact, Ledger.tells_of_unlimited rfl _⟩
  refine ⟨accepted, intact, resolved, graph, ok, fun given listed dependency depends => ?_, built,
    drawn, rendered⟩
  exact ⟨resolves.tokens given listed dependency depends,
    resolves.trimmed (resolvedOf_map_facts _) given listed dependency depends⟩

/-- Two classes, as they are written. The name of the second is a lone surrogate. -/
def tornValue : Value := .arr [.obj [("name", .str "A")], .obj [("name", .torn [0xD800])]]

def tornPair : List (Facts.Class Writing) :=
  [⟨some (.whole "A"), .unknown, "", [], none⟩, ⟨some (.torn [0xD800]), .unknown, "", [], none⟩]

/-- An anonymous class on a line whose number has one digit more than so many. -/
def faraway (digits : Nat) : Facts.Class Writing :=
  ⟨none, .unknown, "", [], some ⟨10 ^ digits, none⟩⟩

private theorem valid_faraway (digits : Nat) : Valid Facts.Class.decode (faraway digits) := by
  have line : Valid Decoder.ordinal (10 ^ digits) := by
    have positive : 0 < 10 ^ digits := Nat.pow_pos (by decide)
    refine ⟨.ofNat (10 ^ digits), Decoder.refine_eq_ok.mpr ⟨(10 ^ digits : Nat), rfl, ?_⟩⟩
    rw [if_neg (by omega)]
    rfl
  have located : Valid Location.decode ⟨10 ^ digits, none⟩ :=
    ⟨_, Location.decode_encode_of_ordinals line nofun⟩
  have loaded : (faraway digits).Loaded :=
    ⟨List.forall_mem_nil _, fun _ present => Option.some.inj present ▸ located⟩
  exact ⟨_, Facts.Class.decode_encode loaded⟩

/-- Records that are accepted can break building off: a class whose name is torn is refused as a
node, and advice on a line with too many digits cannot be told. -/
theorem accepted_records_break_off :
    (Facts.ofValue Facts.inMemory tornValue = .ok tornPair ∧ Accepted (tornPair.map .facts) ∧
      ∀ digits, (outcome digits .empty ⟨.downstream, ["A"], false⟩ (tornPair.map .facts)).1 =
        .error (.refused ⟨"Node", [⟨.notUnicode, [.key "id"]⟩]⟩)) ∧
    ∀ digits, Accepted [.facts (faraway digits)] ∧
      (outcome (some digits) .empty .standard [.facts (faraway digits)]).1 =
        .error (.tooManyDigits digits) := by
  have torn : Accepted (tornPair.map .facts) := by
    refine .facts (List.forall_mem_cons.mpr ⟨?_, List.forall_mem_singleton.mpr ?_⟩)
    · exact ⟨.obj [("name", .str "A")], rfl⟩
    · exact ⟨.obj [("name", .torn [0xD800])], rfl⟩
  refine ⟨⟨rfl, torn, fun digits => rfl⟩, fun digits => ⟨?_, ?_⟩⟩
  · exact Accepted.facts (List.forall_mem_singleton.mpr (valid_faraway digits))
  · refine outcome_of_untold (List.forall_mem_singleton.mpr nofun) rfl fun told => ?_
    obtain ⟨advice, rest, notes, line⟩ : ∃ diagnostic rest,
        (build .standard (mended [.facts (faraway digits)])).notes =
          [.advice diagnostic] ++ rest ∧ diagnostic.line = some ((10 ^ digits : Nat) : Int) :=
      ⟨_, _, rfl, rfl⟩
    rw [notes] at told
    have first := Stage.tells_singleton.mp (Ledger.tells_append.mp told).1
    simp [Diagnostics.take, Diagnostics.record, Diagnostics.empty, Note.breach?, line] at first

end Pipeline

end Wiring
