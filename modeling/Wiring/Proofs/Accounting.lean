import Wiring.Proofs.Configuration
import Wiring.Proofs.Losses

/-! # Every record is accounted for

Records are dropped at two stages. Resolving drops facts about anonymous classes and counts all
records; assembling drops what has no name or a name that is taken, and counts the classes that
resolving handed on. Together they keep the records that `kept` lists, and advise on each of the
others. Since no two losses look the same, a store without warnings records them all.
-/

namespace Wiring.Pipeline

open Note (advised)

/-- The advice on dropped classes among notes, in order. -/
def skipped (notes : List Note) : List Diagnostic :=
  (advised notes).filter (·.category = .skippedClasses)

@[simp] theorem skipped_append (first second : List Note) :
    skipped (first ++ second) = skipped first ++ skipped second := by
  simp only [skipped, Note.advised_append, List.filter_append]

private theorem skipped_lasting (notes : List Note) :
    skipped (Note.lasting notes) = skipped notes := by
  rw [skipped, Note.advised_lasting, skipped]

section Resolving

/-- Advice on parameters is of other categories. -/
theorem skipped_resolve_parameter (owner file : String) (parameter : Facts.Parameter) :
    skipped (parameter.resolve owner file).notes = [] := by
  rw [Facts.Parameter.resolve]
  cases parameter.token with
  | ok token => rfl
  | error skip => cases skip <;> rfl

private theorem skipped_resolve (place : Nat) (facts : Facts.Class) :
    skipped (facts.resolve (some (place + 1 : Nat))).notes =
      if (Record.facts facts).resolved?.isNone then [(Record.facts facts).loss (place + 1)]
      else [] := by
  cases named : facts.name.bind Text.nonBlank? with
  | none =>
    simp only [Record.resolved?, Facts.Class.resolve, named, Option.isNone_none, if_true]
    simp only [Record.loss, Record.lossMessage, Record.lossSuggestion, Record.name?, named]
    rfl
  | some name =>
    simp only [Record.resolved?, Facts.Class.resolve, named, Option.isNone_some]
    induction facts.parameters with
    | nil => rfl
    | cons parameter rest ih =>
      rw [List.map_cons, List.flatMap_cons, skipped_append, skipped_resolve_parameter, ih]
      rfl

theorem resolveAll_value (classes : List Facts.Class) :
    (Facts.resolveAll classes).value = (classes.map Record.facts).filterMap Record.resolved? := by
  have each (start : Nat) : ((classes.zipIdx start).map fun item =>
      item.1.resolve (some (item.2 + 1 : Nat))).filterMap (·.value) =
        (classes.map Record.facts).filterMap Record.resolved? := by
    induction classes generalizing start with
    | nil => rfl
    | cons facts rest ih =>
      simp only [List.zipIdx_cons, List.map_cons, List.filterMap_cons, Record.resolve_value, ih]
  exact each 0

/-- A batch of facts loses the anonymous classes, each told of with its place. -/
theorem skipped_resolveAll (classes : List Facts.Class) :
    skipped (Facts.resolveAll classes).notes =
      resolvingLosses (classes.map Record.facts).zipIdx := by
  have each (start : Nat) : skipped (((classes.zipIdx start).map fun item =>
      item.1.resolve (some (item.2 + 1 : Nat))).flatMap (·.notes)) =
        resolvingLosses ((classes.map Record.facts).zipIdx start) := by
    induction classes generalizing start with
    | nil => rfl
    | cons facts rest ih =>
      simp only [List.zipIdx_cons, List.map_cons, List.flatMap_cons, skipped_append,
        skipped_resolve, ih, resolvingLosses, List.filter_cons]
      split <;> rfl
  calc
    skipped (Facts.resolveAll classes).notes = skipped _ ++ [] := skipped_append _ [_]
    _ = _ := (List.append_nil _).trans (each 0)

end Resolving

section Assembling

variable {before rest : List Record} {record : Record}

private theorem isKept_here :
    isKept (before ++ record :: rest) (record, before.length) =
      record.name?.any fun name => before.all fun earlier => earlier.name? != some name := by
  rw [isKept, List.take_left]

private theorem number_here {resolved : Resolved.Class} (found : record.resolved? = some resolved) :
    number (before ++ record :: rest) (record, before.length) =
      (before.filterMap Record.resolved?).length + 1 := by
  rw [number, found, List.take_left]
  rfl

/-- A list holds the names of records, and no others. -/
def Names (seen : List String) (records : List Record) : Prop :=
  ∀ name, name ∈ seen ↔ ∃ record ∈ records, record.name? = some name

theorem Names.unchanged {seen : List String} (names : Names seen before)
    (old : ∀ name, record.name? = some name → name ∈ seen) : Names seen (before ++ [record]) := by
  intro name
  rw [names name]
  constructor
  · rintro ⟨earlier, listed, named⟩
    exact ⟨earlier, List.mem_append_left _ listed, named⟩
  · rintro ⟨earlier, listed, named⟩
    rcases List.mem_append.mp listed with listed | here
    · exact ⟨earlier, listed, named⟩
    · obtain rfl := List.mem_singleton.mp here
      exact (names name).mp (old name named)

theorem Names.cons {seen : List String} {name : String} (names : Names seen before)
    (named : record.name? = some name) : Names (name :: seen) (before ++ [record]) := by
  intro other
  simp only [List.mem_cons, names other, List.mem_append, List.not_mem_nil, or_false]
  constructor
  · rintro (rfl | ⟨earlier, listed, same⟩)
    · exact ⟨record, .inr rfl, named⟩
    · exact ⟨earlier, .inl listed, same⟩
  · rintro ⟨earlier, listed | rfl, same⟩
    · exact .inr ⟨earlier, listed, same⟩
    · exact .inl (Option.some.inj (same.symm.trans named))

private theorem Names.isKept_iff {seen : List String} (names : Names seen before) :
    isKept (before ++ record :: rest) (record, before.length) = true ↔
      ∃ name, record.name? = some name ∧ name ∉ seen := by
  rw [isKept_here]
  cases named : record.name? with
  | none => simp
  | some name =>
    have new : name ∉ seen ↔ ∀ earlier ∈ before, earlier.name? ≠ some name := by
      rw [names name]
      push Not
      rfl
    simp [new]

private theorem adviseNameless_eq (position : Nat) {resolved : Resolved.Class}
    (found : record.resolved? = some resolved) (unnamed : record.name? = none) :
    Assembly.adviseNameless position resolved = .advice (record.loss position) := by
  cases record with
  | facts facts => simp [Record.resolved?_facts unnamed] at found
  | resolved other =>
    obtain rfl := Option.some.inj found
    simp only [Record.loss, Record.lossMessage, Record.lossSuggestion, unnamed]
    rfl

private theorem adviseDuplicate_eq (position : Nat) {resolved : Resolved.Class} {name : String}
    (found : record.resolved? = some resolved) (named : record.name? = some name) :
    Assembly.adviseDuplicate position name resolved = .advice (record.loss position) := by
  obtain ⟨_, _, file, location⟩ := Record.of_resolved? found
  simp only [Record.loss, Record.lossMessage, Record.lossSuggestion, named, ← file, ← location]
  rfl

/-- Nodes and notes that fit what is left of a batch: a node for each record that is kept, and
advice on each that assembling drops. -/
structure Accounted (records : List Record) (left : List (Record × Nat)) (nodes : List Node)
    (notes : List Note) : Prop where
  nodes_eq : nodes = (left.filter (isKept records)).map (·.1.node)
  advised_eq : advised notes = assemblingLosses records left

namespace Accounted

variable {records : List Record} {left : List (Record × Nat)} {nodes : List Node}
  {notes : List Note} {item : Record × Nat}

/-- What is lost before is no concern of assembling. -/
theorem lose (rest : Accounted records left nodes notes) (lost : item.1.resolved? = none) :
    Accounted records (item :: left) nodes notes where
  nodes_eq := by
    rw [rest.nodes_eq, List.filter_cons_of_neg (by simp [not_isKept_of_lost records lost])]
  advised_eq := by
    rw [rest.advised_eq, assemblingLosses, assemblingLosses,
      List.filter_cons_of_neg (by simp [lost])]

theorem keep (rest : Accounted records left nodes notes) (within : isKept records item = true) :
    Accounted records (item :: left) (item.1.node :: nodes) notes where
  nodes_eq := by rw [rest.nodes_eq, List.filter_cons_of_pos within, List.map_cons]
  advised_eq := by
    rw [rest.advised_eq, assemblingLosses, assemblingLosses,
      List.filter_cons_of_neg (by simp [within])]

theorem drop (rest : Accounted records left nodes notes) (out : isKept records item = false)
    {resolved : Resolved.Class} (found : item.1.resolved? = some resolved) :
    Accounted records (item :: left) nodes
      (.advice (item.1.loss (number records item)) :: notes) where
  nodes_eq := by rw [rest.nodes_eq, List.filter_cons_of_neg (by simp [out])]
  advised_eq := by
    rw [Note.advised_cons, rest.advised_eq, assemblingLosses, assemblingLosses,
      List.filter_cons_of_pos (by simp [out, found])]
    rfl

end Accounted

/-- From any record on, assembling keeps and drops what it should, if it has seen the names of the
records before and counts the classes that resolving handed on. -/
theorem collect_accounts (includeFlags : Bool) {seen : List String} (names : Names seen before)
    (rest : List Record) :
    let collected := Assembly.collect includeFlags
      ((before.filterMap Record.resolved?).length + 1) seen (rest.filterMap Record.resolved?)
    Accounted (before ++ rest) (rest.zipIdx before.length) collected.1 collected.2.2 := by
  -- what is done with a record depends on those before only by their names and their count
  induction rest generalizing before seen with
  | nil => exact ⟨rfl, rfl⟩
  | cons record rest ih =>
    have later {seen' : List String} (names' : Names seen' (before ++ [record])) := ih names'
    simp only [List.append_assoc, List.singleton_append, List.length_append, List.length_singleton,
      List.filterMap_append] at later
    rw [List.zipIdx_cons]
    cases found : record.resolved? with
    | none =>
      have unnamed := Record.name?_of_resolved? found
      rw [List.filterMap_cons_none found] at later ⊢
      exact (later (names.unchanged (by simp [unnamed]))).lose found
    | some resolved =>
      rw [List.filterMap_cons_some found] at later ⊢
      obtain ⟨sameName, sameKind, _⟩ := Record.of_resolved? found
      rw [Assembly.collect]
      by_cases within : isKept (before ++ record :: rest) (record, before.length) = true
      · obtain ⟨name, named, new⟩ := names.isKept_iff.mp within
        have node : record.node = ⟨name, resolved.kind⟩ := by
          rw [Record.node, named, sameKind]
          rfl
        simp only [sameName.trans named, if_neg new, ← node]
        exact (later (names.cons named)).keep within
      · have old : ∀ name, record.name? = some name → name ∈ seen := fun name named =>
          by_contra fun new => within (names.isKept_iff.mpr ⟨name, named, new⟩)
        have told := (later (names.unchanged old)).drop (Bool.eq_false_iff.mpr within) found
        rw [number_here found] at told
        cases named : record.name? with
        | none =>
          simp only [sameName.trans named, adviseNameless_eq _ found named]
          exact told
        | some name =>
          simp only [sameName.trans named, if_pos (old name named),
            adviseDuplicate_eq _ found named]
          exact told

theorem assemble_accounts (includeFlags : Bool) (records : List Record) :
    Accounted records records.zipIdx
      (Assembly.collect includeFlags 1 [] (records.filterMap Record.resolved?)).1
      (Assembly.collect includeFlags 1 [] (records.filterMap Record.resolved?)).2.2 := by
  have names : Names [] [] := by simp [Names]
  exact collect_accounts includeFlags names records

end Assembling

section Building

variable {records : List Record}

private theorem map_factsOf (noResolved : resolvedOf records = []) :
    (factsOf records).map Record.facts = records := by
  induction records with
  | nil => rfl
  | cons record rest ih =>
    cases record with
    | facts facts => exact congrArg _ (ih noResolved)
    | resolved resolved => nomatch noResolved

private theorem map_resolvedOf (noFacts : factsOf records = []) :
    (resolvedOf records).map Record.resolved = records := by
  induction records with
  | nil => rfl
  | cons record rest ih =>
    cases record with
    | facts facts => nomatch noFacts
    | resolved resolved => exact congrArg _ (ih noFacts)

/-- Records of one sort can be resolved. What has no name among facts is lost, and nothing else. -/
theorem resolve_accounts (unmixed : factsOf records = [] ∨ resolvedOf records = []) :
    ∃ resolved, resolve records = .ok resolved ∧
      resolved.value = records.filterMap Record.resolved? ∧
      skipped resolved.notes = resolvingLosses records.zipIdx := by
  by_cases noFacts : factsOf records = []
  · have whole := map_resolvedOf noFacts
    refine ⟨_, if_pos (List.isEmpty_iff.mpr noFacts), ?_, ?_⟩
    · nth_rewrite 2 [← whole]
      rw [List.filterMap_map]
      exact List.filterMap_some.symm
    · have none_lost : (records.zipIdx.filter fun item => item.1.resolved?.isNone) = [] := by
        refine List.filter_eq_nil_iff.mpr fun item listed => ?_
        have member := List.fst_mem_of_mem_zipIdx listed
        rw [← whole] at member
        obtain ⟨resolved, _, same⟩ := List.mem_map.mp member
        simp [← same, Record.resolved?]
      rw [resolvingLosses, none_lost]
      rfl
  · have noResolved := unmixed.resolve_left noFacts
    have whole := map_factsOf noResolved
    refine ⟨Facts.resolveAll (factsOf records), ?_, ?_, ?_⟩
    · rw [resolve, if_neg (mt List.isEmpty_iff.mp noFacts), noResolved]
      rfl
    · rw [resolveAll_value, whole]
    · rw [skipped_resolveAll, whole]

private theorem skipped_adviseCycles (graph : Graph) : skipped (adviseCycles graph) = [] := by
  refine List.filter_eq_nil_iff.mpr fun diagnostic listed => ?_
  obtain ⟨note, told, shown⟩ := List.mem_filterMap.mp listed
  obtain ⟨trip, _, rfl⟩ := List.mem_map.mp told
  obtain rfl := Option.some.inj shown
  simp

private theorem skipped_collect (records : List Record) :
    skipped (Assembly.collect true 1 [] (records.filterMap Record.resolved?)).2.2 =
      assemblingLosses records records.zipIdx := by
  rw [skipped, (assemble_accounts true records).advised_eq]
  refine List.filter_eq_self.mpr fun diagnostic listed => ?_
  obtain ⟨item, _, rfl⟩ := List.mem_map.mp listed
  rfl

/-- Building advises on the losses of its records, whatever the configuration is. -/
theorem skipped_build (config : Config)
    (unmixed : factsOf records = [] ∨ resolvedOf records = []) :
    skipped (build config records).notes = losses records := by
  obtain ⟨resolved, ok, value, lost⟩ := resolve_accounts unmixed
  calc
    skipped (build config records).notes
      = skipped resolved.notes ++ skipped (connectionAdvice resolved.value) := by
        rw [← skipped_lasting, lasting_build config ok, skipped_append, skipped_lasting]
    _ = losses records := by
        rw [connectionAdvice, skipped_append, skipped_adviseCycles, List.append_nil, value, lost,
          skipped_collect, losses_eq]

/-- A store without warnings records each loss, since no two have the same key. -/
theorem recorded_build {store : Diagnostics} (fresh : store.warnings = []) (config : Config)
    (unmixed : factsOf records = [] ∨ resolvedOf records = []) :
    (buildIn store config records).2.ofCategory .skippedClasses = losses records := by
  have advice := skipped_build config unmixed
  rw [← advice, snd_buildIn]
  refine store.ofCategory_absorb .skippedClasses fresh ?_
  rw [← skipped, advice]
  exact losses_distinct records

/-- Without entries the graph has a node for each record that is kept, in order. -/
theorem build_nodes (direction : Direction) (includeFlags : Bool)
    (unmixed : factsOf records = [] ∨ resolvedOf records = []) :
    ∃ graph, (build ⟨direction, [], includeFlags⟩ records).value = .ok graph ∧
      graph.nodes = (kept records).map (·.1.node) := by
  obtain ⟨resolved, ok, value, _⟩ := resolve_accounts unmixed
  refine ⟨_, build_value ⟨direction, [], includeFlags⟩ ok, ?_⟩
  rw [value, kept, ← (assemble_accounts includeFlags records).nodes_eq]
  rfl

end Building

/-- Every record is accounted for when a graph is built without entries and nothing was recorded
before: the graph has a node for each record that is kept, and for each of the others its own
diagnostic is recorded. No advice on a dropped class is left out as one that was given before. -/
theorem build_accounts {store : Diagnostics} (fresh : store.warnings = []) (direction : Direction)
    (includeFlags : Bool) (records : List Record)
    (unmixed : factsOf records = [] ∨ resolvedOf records = []) :
    let config : Config := ⟨direction, [], includeFlags⟩
    let recorded := (buildIn store config records).2.ofCategory .skippedClasses
    ∃ graph, (buildIn store config records).1 = .ok graph ∧
      graph.nodes.length + recorded.length = records.length ∧
      graph.nodes = (kept records).map (·.1.node) ∧
      recorded.Perm ((dropped records).map fun item => item.1.loss (number records item)) ∧
      recorded = skipped (build config records).notes ∧
      (recorded.map (·.key)).Nodup := by
  intro config recorded
  have all : recorded = losses records := recorded_build fresh config unmixed
  obtain ⟨graph, ok, nodes⟩ := build_nodes direction includeFlags unmixed
  refine ⟨graph, (fst_buildIn ..).trans ok, ?_, nodes, ?_, ?_, ?_⟩
  · rw [all, nodes, List.length_map, length_losses, length_kept_add_dropped]
  · rw [all]
    exact losses_perm records
  · rw [all, skipped_build config unmixed]
  · rw [all]
    exact losses_distinct records

/-- Classes of one file: two without a name, and three under the same name. -/
def crowded : List Facts.Class :=
  [⟨none, .service, "app.ts", [], none⟩, ⟨some "Users", .service, "app.ts", [], none⟩,
    ⟨some " ", .service, "app.ts", [], none⟩, ⟨some "Users ", .component, "app.ts", [], none⟩,
    ⟨some "Users", .service, "app.ts", [], none⟩]

theorem build_accounts_crowded :
    let records := crowded.map Record.facts
    let run := buildIn .empty ⟨.upstream, [], true⟩ records
    Diagnostics.empty.warnings = [] ∧ resolvedOf records = [] ∧
    ∃ graph, run.1 = .ok graph ∧ graph.nodes = [⟨"Users", .service⟩] ∧
      (run.2.ofCategory .skippedClasses).length = 4 ∧
      ((run.2.ofCategory .skippedClasses).map (·.key)).Nodup := by
  intro records run
  have unmixed : resolvedOf records = [] := resolvedOf_map_facts crowded
  obtain ⟨graph, ok, total, nodes, _, _, distinct⟩ := build_accounts
    (rfl : Diagnostics.empty.warnings = []) .upstream true records (.inr unmixed)
  have one : graph.nodes = [⟨"Users", .service⟩] := nodes.trans (by decide)
  rw [one] at total
  exact ⟨rfl, unmixed, graph, ok, one, Nat.add_left_cancel total, distinct⟩

end Wiring.Pipeline
