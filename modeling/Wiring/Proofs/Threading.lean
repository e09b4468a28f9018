import Wiring.Proofs.Losses
import Wiring.Proofs.Pipeline
import Wiring.Proofs.Staging

/-! # Building on a ledger

What is built on a ledger is what is built of the mended records without one, and the store takes
the notes of it. This holds as long as the strings that are checked on the way are whole; if one is
torn then building breaks off. The strings that are checked are the trimmed names of classes, and
those from which a parameter of a class with a name takes its token.
-/

namespace Wiring

open Json (Writing)
open Stage (Runs Fails)

section Trimming

private theorem Text.trimChars_map {α β : Type} (drop : β → Bool) (f : α → β) (items : List α) :
    trimChars drop (items.map f) = (trimChars (drop ∘ f) items).map f := by
  simp [trimChars, List.dropWhile_map, ← List.map_reverse]

namespace Json.Writing

private theorem isBlank_mended :
    (Text.isBlank ∘ fun point => if point.isValidChar then Char.ofNat point else '\ufffd') =
      isBlankPoint := by
  funext point
  by_cases valid : point.isValidChar
  · simp [isBlankPoint, valid]
  · simp only [Function.comp_apply, if_neg valid, isBlankPoint, decide_eq_false valid,
      Bool.false_and]
    decide

/-- A string is trimmed as its text is. -/
theorem map_text_nonBlank? (writing : Writing) :
    writing.nonBlank?.map text = Text.nonBlank? writing.text := by
  cases writing with
  | whole written =>
    rw [nonBlank?, Option.map_map]
    exact Option.map_id'
  | torn points =>
    have trimmed : Text.trim (mend points) = mend (Text.trimChars isBlankPoint points) := by
      rw [Text.trim, mend, String.toList_ofList, Text.trimChars_map, isBlank_mended, mend]
    simp only [nonBlank?, text, Text.nonBlank?, trimmed]
    cases Text.trimChars isBlankPoint points with
    | nil => rfl
    | cons first rest => simp [mend, text]

theorem map_text_bind (written : Option Writing) :
    (written.map text).bind Text.nonBlank? = (written.bind nonBlank?).map text := by
  cases written with
  | none => rfl
  | some writing => exact (map_text_nonBlank? writing).symm

/-- What was trimmed stays as it is. -/
theorem nonBlank?_of_nonBlank? {written name : Writing} (trimmed : written.nonBlank? = some name) :
    name.nonBlank? = some name := by
  cases written with
  | whole text =>
    obtain ⟨name, kept, rfl⟩ := Option.map_eq_some_iff.mp trimmed
    rw [nonBlank?, Text.nonBlank?_of_nonBlank? kept, Option.map_some]
  | torn points =>
    simp only [nonBlank?] at trimmed
    split at trimmed
    · nomatch trimmed
    · rename_i filled
      obtain rfl := Option.some.inj trimmed
      simp only [nonBlank?, Text.trimChars_trimChars, if_neg filled]

theorem ne_empty_of_nonBlank? {written : Writing} {text : String}
    (trimmed : written.nonBlank? = some (.whole text)) : text ≠ "" := by
  have kept : (Text.nonBlank? text).map whole = some (.whole text) :=
    nonBlank?_of_nonBlank? trimmed
  obtain ⟨same, kept, named⟩ := Option.map_eq_some_iff.mp kept
  obtain rfl := whole.inj named
  exact (Text.nonBlank?_eq_some_iff.mp kept).2

theorem exists_torn {writings : List Writing}
    (broken : ¬ ∀ writing ∈ writings, writing.isTorn = false) :
    ∃ points, .torn points ∈ writings := by
  obtain ⟨writing, broken⟩ := not_forall.mp broken
  obtain ⟨listed, torn⟩ := Classical.not_imp.mp broken
  cases writing with
  | whole text => exact absurd rfl torn
  | torn points => exact ⟨points, listed⟩

/-- If not all strings of some items are whole then one of the items has a torn one. -/
theorem exists_mem_torn {α : Type} {items : List α} {strings : α → List Writing}
    (broken : ¬ ∀ item ∈ items, ∀ writing ∈ strings item, writing.isTorn = false) :
    ∃ item ∈ items, ∃ points, .torn points ∈ strings item := by
  obtain ⟨item, broken⟩ := not_forall.mp broken
  obtain ⟨listed, broken⟩ := Classical.not_imp.mp broken
  exact ⟨item, listed, exists_torn broken⟩

end Json.Writing

end Trimming

section Resolving

namespace Facts

/-- The strings of a class that are checked when it is resolved. -/
def Class.examinedTokens (facts : Class Writing) : List Writing :=
  match facts.name.bind Writing.nonBlank? with
  | some _ => facts.parameters.filterMap Parameter.source?
  | none => []

namespace Parameter

/-- The strings of a parameter that can be its token. -/
def candidates {τ : Type} (parameter : Parameter τ) : List τ :=
  parameter.decorators.filterMap (·.token) ++
    ((parameter.injectCall.bind (·.token)).toList ++ parameter.typeName.toList)

private theorem candidates_map {τ σ : Type} (f : τ → σ) (parameter : Parameter τ) :
    (parameter.map f).candidates = parameter.candidates.map f := by
  have decorated : (parameter.decorators.map (·.map f)).filterMap (·.token) =
      (parameter.decorators.filterMap (·.token)).map f := by
    rw [List.filterMap_map, List.map_filterMap]
    rfl
  have called : ((parameter.injectCall.map (·.map f)).bind (·.token)).toList =
      (parameter.injectCall.bind (·.token)).toList.map f := by
    cases parameter.injectCall with
    | none => rfl
    | some call => cases token : call.token <;> simp [InjectCall.map, token]
  have typed : (parameter.typeName.map f).toList = parameter.typeName.toList.map f := by
    cases parameter.typeName <;> rfl
  simp only [candidates, List.map_append, ← decorated, ← called, ← typed]
  rfl

private theorem exists_of_source? {parameter : Parameter Writing} {source : Writing}
    (taken : parameter.source? = some source) :
    ∃ written ∈ parameter.candidates, written.nonBlank? = some source := by
  simp only [source?] at taken
  split at taken
  swap
  · nomatch taken
  rcases Option.or_eq_some_iff.mp taken with given | ⟨_, typed⟩
  · rcases Option.or_eq_some_iff.mp given with byDecorator | ⟨_, byCall⟩
    · obtain ⟨decorator, listed, named⟩ := List.exists_of_findSome?_eq_some byDecorator
      split at named
      · obtain ⟨written, token, kept⟩ := Option.bind_eq_some_iff.mp named
        exact ⟨written, by simp [candidates]; exact .inl ⟨decorator, listed, token⟩, kept⟩
      · nomatch named
    · obtain ⟨call, called, given⟩ := Option.bind_eq_some_iff.mp byCall
      obtain ⟨written, token, kept⟩ := Option.bind_eq_some_iff.mp given
      exact ⟨written, by simp [candidates, called, token], kept⟩
  · obtain ⟨written, type, kept⟩ := Option.bind_eq_some_iff.mp typed
    exact ⟨written, by simp [candidates, type], kept⟩

variable {parameter : Parameter Writing} {owner file : String}

theorem runs_resolveOn (intact : ∀ source ∈ parameter.source?, source.isTorn = false) :
    Runs (parameter.resolveOn owner file) ((parameter.map Writing.text).resolve owner file) := by
  have checked (dependency : Option Resolved.Dependency) :
      Runs (do
        parameter.source?.forM (Stage.check "ResolvedDependency" "token")
        return dependency) ⟨dependency, []⟩ := by
    cases taken : parameter.source? with
    | none => exact .pure dependency
    | some source =>
      obtain ⟨written, _, trimmed⟩ := exists_of_source? taken
      cases source with
      | whole text =>
        exact (Stage.runs_check (Writing.ne_empty_of_nonBlank? trimmed)).before (.pure dependency)
      | torn points => nomatch intact _ taken
  have runs := (Stage.runs_noted ((parameter.map Writing.text).resolve owner file)).bind
    (fun dependency => do
      parameter.source?.forM (Stage.check "ResolvedDependency" "token")
      return dependency)
    (checked _)
  rwa [List.append_nil] at runs

theorem fails_resolveOn {points : List Nat} (torn : parameter.source? = some (.torn points)) :
    Fails (parameter.resolveOn owner file) := by
  refine (Stage.runs_noted _).fails_bind ?_
  rw [torn]
  exact (Stage.fails_check points).bind _

theorem runs_or_fails (parameter : Parameter Writing) (owner file : String) :
    (∃ noted, Runs (parameter.resolveOn owner file) noted) ∨
      Fails (parameter.resolveOn owner file) := by
  cases taken : parameter.source? with
  | none => exact .inl ⟨_, runs_resolveOn (by simp [taken])⟩
  | some source =>
    cases source with
    | whole text => exact .inl ⟨_, runs_resolveOn (by simp [taken, Writing.isTorn])⟩
    | torn points => exact .inr (fails_resolveOn taken)

end Parameter

namespace Class

/-- What a class is resolved into on a ledger: its name is still as it was read. -/
def draft? (facts : Class Writing) : Option (Resolved.Class Writing) :=
  (facts.name.bind Writing.nonBlank?).map fun name =>
    { name := some name
      kind := facts.kind
      file := some facts.file
      dependencies := facts.parameters.filterMap fun parameter =>
        ((parameter.map Writing.text).resolve name.text facts.file).value
      location := facts.location }

variable {facts : Class Writing} {position : Option Int}

private theorem nonBlank?_name_map (facts : Class Writing) :
    (facts.map Writing.text).name.bind Text.nonBlank? =
      (facts.name.bind Writing.nonBlank?).map Writing.text :=
  Writing.map_text_bind facts.name

private theorem map_draft? (facts : Class Writing) (position : Option Int) :
    facts.draft?.map (·.map Writing.text) =
      ((facts.map Writing.text).resolve position).value := by
  rw [draft?, resolve, nonBlank?_name_map]
  cases facts.name.bind Writing.nonBlank? with
  | none => rfl
  | some name =>
    simp [Resolved.Class.map, Class.map, List.filterMap_map, Function.comp_def]

theorem runs_resolveOn (intact : ∀ source ∈ facts.examinedTokens, source.isTorn = false) :
    Runs (facts.resolveOn position)
      ⟨facts.draft?, ((facts.map Writing.text).resolve position).notes⟩ := by
  rw [resolveOn, draft?, resolve, nonBlank?_name_map]
  rw [examinedTokens] at intact
  cases name? : facts.name.bind Writing.nonBlank? with
  | none => exact (Stage.runs_takeAll _).map fun _ => none
  | some name =>
    rw [name?] at intact
    have each : ∀ parameter ∈ facts.parameters,
        Runs (parameter.resolveOn name.text facts.file)
          ((parameter.map Writing.text).resolve name.text facts.file) := fun parameter listed =>
      Parameter.runs_resolveOn fun source taken =>
        intact source (List.mem_filterMap.mpr ⟨parameter, listed, taken⟩)
    have runs := (Runs.mapM each).map fun results => some
      { name := some name
        kind := facts.kind
        file := some facts.file
        dependencies := results.filterMap id
        location := facts.location : Resolved.Class Writing }
    simpa [Noted.map, Class.map, List.filterMap_map, List.flatMap_map, Function.comp_def] using runs

theorem fails_resolveOn {points : List Nat} (torn : .torn points ∈ facts.examinedTokens) :
    Fails (facts.resolveOn position) := by
  rw [examinedTokens] at torn
  rw [resolveOn]
  cases name? : facts.name.bind Writing.nonBlank? with
  | none => simp [name?] at torn
  | some name =>
    rw [name?] at torn
    obtain ⟨parameter, listed, taken⟩ := List.mem_filterMap.mp torn
    exact (Fails.mapM (fun other _ => other.runs_or_fails name.text facts.file) listed
      (Parameter.fails_resolveOn taken)).bind _

theorem runs_or_fails (facts : Class Writing) (position : Option Int) :
    (∃ noted, Runs (facts.resolveOn position) noted) ∨ Fails (facts.resolveOn position) := by
  by_cases intact : ∀ source ∈ facts.examinedTokens, source.isTorn = false
  · exact .inl ⟨_, runs_resolveOn intact⟩
  · obtain ⟨points, torn⟩ := Writing.exists_torn intact
    exact .inr (fails_resolveOn torn)

end Class

private theorem map_drafts (classes : List (Class Writing)) :
    (classes.filterMap Class.draft?).map (·.map Writing.text) =
      (resolveAll (classes.map (·.map Writing.text))).value := by
  simp only [resolveAll, List.zipIdx_map, List.map_map, List.filterMap_map, Function.comp_def,
    Prod.map, id_eq, ← Class.map_draft?, List.map_filterMap]
  conv_lhs => rw [← List.zipIdx_map_fst 0 classes, List.filterMap_map]
  rfl

theorem runs_resolveAllOn {classes : List (Class Writing)}
    (intact : ∀ facts ∈ classes, ∀ source ∈ facts.examinedTokens, source.isTorn = false) :
    Runs (resolveAllOn classes)
      ⟨classes.filterMap Class.draft?,
        (resolveAll (classes.map (·.map Writing.text))).notes⟩ := by
  have each : ∀ entry ∈ classes.zipIdx, Runs (entry.1.resolveOn (some (entry.2 + 1 : Nat)))
      ⟨entry.1.draft?,
        ((entry.1.map Writing.text).resolve (some (entry.2 + 1 : Nat))).notes⟩ :=
    fun entry listed => Class.runs_resolveOn (intact entry.1 (List.fst_mem_of_mem_zipIdx listed))
  have drafts : (classes.zipIdx.map fun entry => entry.1.draft?).filterMap id =
      classes.filterMap Class.draft? := by
    conv_rhs => rw [← List.zipIdx_map_fst 0 classes, List.filterMap_map]
    rw [List.filterMap_map]
    rfl
  have counted : (classes.filterMap Class.draft?).length =
      (resolveAll (classes.map (·.map Writing.text))).value.length := by
    rw [← map_drafts, List.length_map]
  have noted : (resolveAll (classes.map (·.map Writing.text))).notes =
      (classes.zipIdx.flatMap fun entry =>
        ((entry.1.map Writing.text).resolve (some (entry.2 + 1 : Nat))).notes) ++
      [.event (resolvedEvent classes.length (classes.filterMap Class.draft?).length)] := by
    rw [counted]
    simp [resolveAll, List.zipIdx_map, List.flatMap_map, Prod.map]
  have runs := (Runs.mapM each).telling
    (fun results => .event (resolvedEvent classes.length (results.filterMap id).length))
    (·.filterMap id)
  rw [drafts] at runs
  rw [noted]
  exact runs

theorem fails_resolveAllOn {classes : List (Class Writing)} {facts : Class Writing}
    (listed : facts ∈ classes) {points : List Nat} (torn : .torn points ∈ facts.examinedTokens) :
    Fails (resolveAllOn classes) := by
  rw [← List.zipIdx_map_fst 0 classes] at listed
  obtain ⟨entry, there, rfl⟩ := List.mem_map.mp listed
  refine Fails.bind (Fails.mapM (fun other _ => ?_) there ?_) _
  · exact other.1.runs_or_fails _
  · exact Class.fails_resolveOn torn

end Facts

end Resolving

section Assembling

namespace Assembly

private theorem name?_map (resolved : Resolved.Class Writing) :
    name? (resolved.map Writing.text) = (writtenName? resolved).map Writing.text :=
  Writing.map_text_bind resolved.name

theorem runs_collectOn (includeFlags : Bool) (position : Nat) (seen : List String)
    {classes : List (Resolved.Class Writing)}
    (intact : ∀ resolved ∈ classes, ∀ name ∈ writtenName? resolved, name.isTorn = false) :
    Runs (collectOn includeFlags position (seen.map .whole) classes)
      (let collected := collect includeFlags position seen (classes.map (·.map Writing.text))
      ⟨(collected.1, collected.2.1), collected.2.2⟩) := by
  induction classes generalizing position seen with
  | nil => exact .pure _
  | cons resolved rest ih =>
    obtain ⟨here, later⟩ := List.forall_mem_cons.mp intact
    rw [List.map_cons, collect, name?_map, collectOn]
    cases named : writtenName? resolved with
    | none => exact (Stage.runs_take _).before (ih (position + 1) seen later)
    | some name =>
      obtain ⟨written, _, trimmed⟩ := Option.bind_eq_some_iff.mp named
      cases name with
      | torn points => nomatch here _ named
      | whole text =>
        have known : Writing.whole text ∈ seen.map .whole ↔ text ∈ seen := by simp
        by_cases taken : text ∈ seen
        · simp only [Option.map_some, Writing.text, if_pos taken, if_pos (known.mpr taken)]
          exact (Stage.runs_take _).before (ih (position + 1) seen later)
        · simp only [Option.map_some, Writing.text, if_neg taken, if_neg (mt known.mp taken)]
          exact (Stage.runs_check (Writing.ne_empty_of_nonBlank? trimmed)).before
            ((ih (position + 1) (text :: seen) later).map fun collected =>
              (Node.mk text resolved.kind :: collected.1,
                edgesOf includeFlags text (resolved.map Writing.text) ++ collected.2))

/-- A class with a torn name breaks assembling off, at the latest. -/
theorem fails_collectOn (includeFlags : Bool) (position : Nat) (seen : List String)
    {classes : List (Resolved.Class Writing)} {torn : Resolved.Class Writing}
    (listed : torn ∈ classes) {points : List Nat} (named : writtenName? torn = some (.torn points)) :
    Fails (collectOn includeFlags position (seen.map .whole) classes) := by
  induction classes generalizing position seen with
  | nil => nomatch listed
  | cons resolved rest ih =>
    have later (whole : writtenName? resolved ≠ writtenName? torn) : torn ∈ rest :=
      (List.mem_cons.mp listed).resolve_left fun same => whole (congrArg _ same.symm)
    rw [collectOn]
    cases here : writtenName? resolved with
    | none =>
      have later := later (by simp [here, named])
      exact (Stage.runs_take _).fails_bind (ih (position + 1) seen later)
    | some name =>
      obtain ⟨written, _, trimmed⟩ := Option.bind_eq_some_iff.mp here
      cases name with
      | torn others =>
        have unseen : Writing.torn others ∉ seen.map .whole := by simp
        simp only [if_neg unseen]
        exact (Stage.fails_check others).bind _
      | whole text =>
        have later := later (by simp [here, named])
        simp only
        split
        · exact (Stage.runs_take _).fails_bind (ih (position + 1) seen later)
        · exact (Stage.runs_check (Writing.ne_empty_of_nonBlank? trimmed)).fails_bind
            ((ih (position + 1) (text :: seen) later).bind _)

variable {classes : List (Resolved.Class Writing)}

theorem runs_assembleOn (includeFlags : Bool)
    (intact : ∀ resolved ∈ classes, ∀ name ∈ writtenName? resolved, name.isTorn = false) :
    Runs (assembleOn includeFlags classes)
      (assemble includeFlags (classes.map (·.map Writing.text))) :=
  (runs_collectOn includeFlags 1 [] intact).telling
    (fun collected => .event (assembledEvent collected.1 collected.2))
    fun collected => (⟨collected.1, collected.2, []⟩ : Graph)

theorem fails_assembleOn (includeFlags : Bool) {resolved : Resolved.Class Writing}
    (listed : resolved ∈ classes) {points : List Nat}
    (named : writtenName? resolved = some (.torn points)) :
    Fails (assembleOn includeFlags classes) :=
  (fails_collectOn includeFlags 1 [] listed named).bind _

end Assembly

end Assembling

namespace Pipeline

theorem runs_connectOn (includeFlags : Bool) {classes : List (Resolved.Class Writing)}
    (intact : ∀ resolved ∈ classes, ∀ name ∈ Assembly.writtenName? resolved,
      name.isTorn = false) :
    Runs (connectOn includeFlags classes)
      (connect includeFlags (classes.map (·.map Writing.text))) := by
  have marked (graph : Graph) :=
    (Stage.runs_noted (markCycles graph)).bind
      (fun graph => do Stage.takeAll (adviseCycles graph); return graph)
      ((Stage.runs_takeAll _).map fun _ => (markCycles graph).value)
  have runs := (Assembly.runs_assembleOn includeFlags intact).bind
    (fun graph => do
      let graph ← Stage.noted (markCycles graph)
      Stage.takeAll (adviseCycles graph)
      return graph)
    (marked _)
  rwa [← List.append_assoc] at runs

theorem fails_connectOn (includeFlags : Bool) {classes : List (Resolved.Class Writing)}
    {resolved : Resolved.Class Writing} (listed : resolved ∈ classes) {points : List Nat}
    (named : Assembly.writtenName? resolved = some (.torn points)) :
    Fails (connectOn includeFlags classes) :=
  (Assembly.fails_assembleOn includeFlags listed named).bind _

/-- The strings of a record that are checked on the way to a graph. -/
def Record.examined : Record Writing → List Writing
  | .facts given => (given.name.bind Writing.nonBlank?).toList ++ given.examinedTokens
  | .resolved given => (Assembly.writtenName? given).toList

/-- The strings of records that are checked are all whole. -/
def Intact (records : List (Record Writing)) : Prop :=
  ∀ record ∈ records, ∀ writing ∈ record.examined, writing.isTorn = false

instance : DecidablePred Intact := fun records =>
  inferInstanceAs (Decidable (∀ record ∈ records, ∀ writing ∈ record.examined,
    writing.isTorn = false))

def mended (records : List (Record Writing)) : List Record := records.map (·.map Writing.text)

theorem factsOf_mended (records : List (Record Writing)) :
    factsOf (mended records) = (factsOf records).map (·.map Writing.text) := by
  simp only [factsOf, mended, List.filterMap_map, List.map_filterMap]
  refine List.filterMap_congr fun record _ => ?_
  cases record <;> rfl

theorem resolvedOf_mended (records : List (Record Writing)) :
    resolvedOf (mended records) = (resolvedOf records).map (·.map Writing.text) := by
  simp only [resolvedOf, mended, List.filterMap_map, List.map_filterMap]
  refine List.filterMap_congr fun record _ => ?_
  cases record <;> rfl

theorem mem_factsOf {τ : Type} {records : List (Record τ)} {facts : Facts.Class τ} :
    facts ∈ factsOf records ↔ .facts facts ∈ records := by
  simp only [factsOf, List.mem_filterMap]
  constructor
  · rintro ⟨record, listed, found⟩
    cases record with
    | facts given => exact Option.some.inj found ▸ listed
    | resolved given => nomatch found
  · exact fun listed => ⟨_, listed, rfl⟩

private theorem mem_resolvedOf {τ : Type} {records : List (Record τ)}
    {resolved : Resolved.Class τ} :
    resolved ∈ resolvedOf records ↔ .resolved resolved ∈ records := by
  simp only [resolvedOf, List.mem_filterMap]
  constructor
  · rintro ⟨record, listed, found⟩
    cases record with
    | facts given => nomatch found
    | resolved given => exact Option.some.inj found ▸ listed
  · exact fun listed => ⟨_, listed, rfl⟩

private theorem writtenName?_of_draft? {facts : Facts.Class Writing}
    {draft : Resolved.Class Writing}
    (drafted : facts.draft? = some draft) :
    Assembly.writtenName? draft = facts.name.bind Writing.nonBlank? := by
  obtain ⟨name, named, rfl⟩ := Option.map_eq_some_iff.mp drafted
  obtain ⟨written, _, trimmed⟩ := Option.bind_eq_some_iff.mp named
  rw [named]
  exact Writing.nonBlank?_of_nonBlank? trimmed

/-- Records are all resolved already, or all facts, or refused, on a ledger as their mended texts
without one. -/
theorem resolveOn_cases (records : List (Record Writing)) :
    (factsOf records = [] ∧ resolveOn records = pure (resolvedOf records) ∧
      resolve (mended records) = .ok ⟨(resolvedOf records).map (·.map Writing.text), []⟩) ∨
    (resolvedOf records = [] ∧ resolveOn records = Facts.resolveAllOn (factsOf records) ∧
      resolve (mended records) =
        .ok (Facts.resolveAll ((factsOf records).map (·.map Writing.text)))) ∨
    (resolveOn records = throw .mixedRecords ∧
      resolve (mended records) = .error .mixedRecords) := by
  rw [resolve, factsOf_mended, resolvedOf_mended, List.isEmpty_map, List.isEmpty_map, resolveOn]
  by_cases noFacts : (factsOf records).isEmpty = true
  · rw [if_pos noFacts, if_pos noFacts]
    exact .inl ⟨List.isEmpty_iff.mp noFacts, rfl, rfl⟩
  · rw [if_neg noFacts, if_neg noFacts]
    by_cases noResolved : (resolvedOf records).isEmpty = true
    · rw [if_pos noResolved, if_pos noResolved]
      exact .inr (.inl ⟨List.isEmpty_iff.mp noResolved, rfl, rfl⟩)
    · rw [if_neg noResolved, if_neg noResolved]
      exact .inr (.inr ⟨rfl, rfl⟩)

/-- Records of one sort whose checked strings are whole are resolved as their mended texts are. -/
theorem runs_resolveOn {records : List (Record Writing)} (intact : Intact records)
    {resolved : Noted (List Resolved.Class)} (ok : resolve (mended records) = .ok resolved) :
    ∃ drafts, Runs (resolveOn records) ⟨drafts, resolved.notes⟩ ∧
      drafts.map (·.map Writing.text) = resolved.value ∧
      ∀ draft ∈ drafts, ∀ name ∈ Assembly.writtenName? draft, name.isTorn = false := by
  rcases resolveOn_cases records with ⟨_, on, given⟩ | ⟨_, on, given⟩ | ⟨_, mixed⟩
  · obtain rfl := Except.ok.inj (given.symm.trans ok)
    rw [on]
    refine ⟨resolvedOf records, .pure _, rfl, fun draft listed name named => ?_⟩
    exact intact _ (mem_resolvedOf.mp listed) name (Option.mem_toList.mpr named)
  · obtain rfl := Except.ok.inj (given.symm.trans ok)
    rw [on]
    refine ⟨_, Facts.runs_resolveAllOn fun facts listed source examined => ?_,
      Facts.map_drafts _, fun draft listed name named => ?_⟩
    · exact intact _ (mem_factsOf.mp listed) source (List.mem_append_right _ examined)
    · obtain ⟨facts, listed, drafted⟩ := List.mem_filterMap.mp listed
      rw [writtenName?_of_draft? drafted] at named
      exact intact _ (mem_factsOf.mp listed) name
        (List.mem_append_left _ (Option.mem_toList.mpr named))
  · nomatch mixed.symm.trans ok

/-- Facts break building off if a token or a name that is checked is torn: a token when they are
resolved, a name at the latest when they are assembled. -/
private theorem fails_resolveAllOn_connectOn {classes : List (Facts.Class Writing)}
    {facts : Facts.Class Writing} (listed : facts ∈ classes) {points : List Nat}
    (torn : .torn points ∈ (Record.facts facts).examined) (includeFlags : Bool) :
    Fails (do connectOn includeFlags (← Facts.resolveAllOn classes)) := by
  by_cases tokens : ∀ facts ∈ classes, ∀ source ∈ facts.examinedTokens, source.isTorn = false
  · refine (Facts.runs_resolveAllOn tokens).fails_bind ?_
    rcases List.mem_append.mp torn with name | token
    · have named := Option.mem_toList.mp name
      obtain ⟨draft, drafted⟩ : ∃ draft, facts.draft? = some draft :=
        ⟨_, congrArg (Option.map _) named⟩
      exact fails_connectOn includeFlags (List.mem_filterMap.mpr ⟨facts, listed, drafted⟩)
        ((writtenName?_of_draft? drafted).trans named)
    · exact absurd (tokens facts listed _ token) Bool.true_eq_false.mp
  · obtain ⟨other, there, points, torn⟩ := Writing.exists_mem_torn tokens
    exact (Facts.fails_resolveAllOn there torn).bind _

/-- Records of one sort break building off if a string that is checked is torn. -/
theorem fails_resolveOn_connectOn {records : List (Record Writing)} (broken : ¬ Intact records)
    {resolved : Noted (List Resolved.Class)} (ok : resolve (mended records) = .ok resolved)
    (includeFlags : Bool) : Fails (do connectOn includeFlags (← resolveOn records)) := by
  obtain ⟨record, listed, points, torn⟩ := Writing.exists_mem_torn broken
  rcases resolveOn_cases records with ⟨noFacts, on, _⟩ | ⟨noResolved, on, _⟩ | ⟨_, mixed⟩
  · rw [on]
    cases record with
    | resolved given =>
      exact (Runs.pure _).fails_bind
        (fails_connectOn includeFlags (mem_resolvedOf.mpr listed) (Option.mem_toList.mp torn))
    | facts given =>
      rw [← mem_factsOf, noFacts] at listed
      nomatch listed
  · rw [on]
    cases record with
    | resolved given =>
      rw [← mem_resolvedOf, noResolved] at listed
      nomatch listed
    | facts given =>
      exact fails_resolveAllOn_connectOn (mem_factsOf.mpr listed) torn includeFlags
  · nomatch mixed.symm.trans ok

/-- Building on a ledger what can be resolved, with the strings that are checked whole. -/
theorem runs_buildOn (config : Config) {records : List (Record Writing)} (intact : Intact records)
    {resolved : Noted (List Resolved.Class)} (ok : resolve (mended records) = .ok resolved) :
    ∃ graph, (build config (mended records)).value = .ok graph ∧
      Runs (buildOn config records) ⟨graph, (build config (mended records)).notes⟩ := by
  obtain ⟨drafts, runs, texts, names⟩ := runs_resolveOn intact ok
  have connected := runs.bind (connectOn config.includeFlags)
    (runs_connectOn config.includeFlags names)
  rw [texts] at connected
  have whole := connected.closing (.finished "graph-build" .graphConstruction Log.instant)
  have complete := whole.bind
    (fun graph => do
      let part ← Stage.noted (focus config graph)
      Stage.take (built part)
      return part)
    ((Stage.runs_noted (focus config _)).telling built id)
  simp only [build, ok]
  refine ⟨_, rfl, ?_⟩
  rwa [← List.append_assoc] at complete

/-- Building on a ledger breaks off at a torn string that is checked. -/
theorem fails_buildOn (config : Config) {records : List (Record Writing)}
    (broken : ¬ Intact records) {resolved : Noted (List Resolved.Class)}
    (ok : resolve (mended records) = .ok resolved) : Fails (buildOn config records) :=
  ((fails_resolveOn_connectOn broken ok config.includeFlags).closing _).bind _

/-- Records of both sorts are refused, and nothing is recorded. -/
theorem run_buildOn_of_mixed (config : Config) {records : List (Record Writing)} {breach : Breach}
    (mixed : resolve (mended records) = .error breach) (ledger : Ledger) :
    (buildOn config records).run.run ledger =
      (.error breach, ledger.absorb (build config (mended records)).notes) := by
  simp only [build, mixed]
  rcases resolveOn_cases records with ⟨_, _, ok⟩ | ⟨_, _, ok⟩ | ⟨on, refused⟩
  · exact absurd (ok.symm.trans mixed) (by simp)
  · exact absurd (ok.symm.trans mixed) (by simp)
  · obtain rfl := Except.error.inj (refused.symm.trans mixed)
    rw [buildOn, on]
    rfl

/-- Build records with a store at hand, where an integer in a text may have so many digits: the graph
or why there is none, and what the store holds afterwards. -/
def outcome (digits : Option Nat) (store : Diagnostics) (config : Config)
    (records : List (Record Writing)) : Except Breach Graph × Diagnostics :=
  let (result, ledger) := (buildOn config records).run.run ⟨store, [], digits⟩
  (result, ledger.store)

variable {digits : Option Nat} {store : Diagnostics} {config : Config}
  {records : List (Record Writing)}

/-- If the strings that are checked are whole and all advice that is new can be told, then a store
comes out as it takes the notes of building without a store, with the same graph. -/
theorem outcome_eq (intact : Intact records)
    (told : Ledger.Tells ⟨store, [], digits⟩ (build config (mended records)).notes) :
    outcome digits store config records =
      ((build config (mended records)).value,
        (store.absorb (build config (mended records)).notes).1) := by
  cases ok : resolve (mended records) with
  | error breach =>
    rw [outcome, run_buildOn_of_mixed config ok]
    simp only [build, ok]
    rfl
  | ok resolved =>
    obtain ⟨graph, value, runs⟩ := runs_buildOn config intact ok
    rw [outcome, runs.gives _ told, value]
    rfl

theorem outcome_of_untold {most : Nat} (intact : Intact records)
    {resolved : Noted (List Resolved.Class)} (ok : resolve (mended records) = .ok resolved)
    (untold : ¬ Ledger.Tells ⟨store, [], some most⟩ (build config (mended records)).notes) :
    (outcome (some most) store config records).1 = .error (.tooManyDigits most) := by
  obtain ⟨graph, _, runs⟩ := runs_buildOn config intact ok
  obtain ⟨_, after, limit, broke⟩ := runs.breaks _ untold
  obtain rfl := Option.some.inj limit
  rw [outcome, broke]

theorem exists_breach {resolved : Noted (List Resolved.Class)}
    (ok : resolve (mended records) = .ok resolved)
    (broken : ¬ (Intact records ∧
      Ledger.Tells ⟨store, [], digits⟩ (build config (mended records)).notes)) :
    ∃ breach, (outcome digits store config records).1 = .error breach ∧
      breach ≠ .mixedRecords := by
  by_cases intact : Intact records
  · obtain ⟨graph, _, runs⟩ := runs_buildOn config intact ok
    obtain ⟨most, after, _, broke⟩ := runs.breaks _ fun told => broken ⟨intact, told⟩
    exact ⟨.tooManyDigits most, by rw [outcome, broke], nofun⟩
  · obtain ⟨breach, after, sort, broke⟩ := fails_buildOn config intact ok ⟨store, [], digits⟩
    exact ⟨breach, by rw [outcome, broke], sort⟩

/-- A graph comes out exactly if the strings that are checked are whole and all advice that is new
can be told. -/
theorem outcome_ok_iff {graph : Graph} (built : (build config (mended records)).value = .ok graph)
    {resolved : Noted (List Resolved.Class)} (ok : resolve (mended records) = .ok resolved) :
    (outcome digits store config records).1 = .ok graph ↔
      Intact records ∧
        Ledger.Tells ⟨store, [], digits⟩ (build config (mended records)).notes := by
  by_cases fine : Intact records ∧
      Ledger.Tells ⟨store, [], digits⟩ (build config (mended records)).notes
  · refine iff_of_true ?_ fine
    rw [outcome_eq fine.1 fine.2, built]
  · refine iff_of_false (fun given => ?_) fine
    obtain ⟨breach, broke, _⟩ := exists_breach ok fine
    rw [broke] at given
    nomatch given

/-- The graph that comes out is the one that is built without a store. -/
theorem build_of_outcome {graph : Graph}
    (given : (outcome digits store config records).1 = .ok graph) :
    (build config (mended records)).value = .ok graph := by
  cases ok : resolve (mended records) with
  | error breach =>
    rw [outcome, run_buildOn_of_mixed config ok] at given
    nomatch given
  | ok resolved =>
    obtain ⟨intact, told⟩ : Intact records ∧
        Ledger.Tells ⟨store, [], digits⟩ (build config (mended records)).notes := by
      by_contra broken
      obtain ⟨breach, broke, _⟩ := exists_breach ok broken
      rw [broke] at given
      nomatch given
    rwa [outcome_eq intact told] at given

section Texts

/-- Records of texts, as if they had been read. -/
def written (records : List Record) : List (Record Writing) := records.map (·.map Writing.whole)

private theorem map_whole_text_parameter (parameter : Facts.Parameter) :
    (parameter.map Writing.whole).map Writing.text = parameter := by
  have decorators (decorator : Facts.Decorator) :
      (decorator.map Writing.whole).map Writing.text = decorator := by
    simp [Facts.Decorator.map, Function.comp_def]
  have calls (call : Facts.InjectCall) : (call.map Writing.whole).map Writing.text = call := by
    simp [Facts.InjectCall.map, Function.comp_def]
  simp [Facts.Parameter.map, Function.comp_def, decorators, calls]

private theorem Record.map_whole_text (record : Record) :
    (record.map Writing.whole).map Writing.text = record := by
  cases record with
  | facts given =>
    simp [Record.map, Facts.Class.map, Function.comp_def, map_whole_text_parameter]
  | resolved given => simp [Record.map, Resolved.Class.map, Function.comp_def]

private theorem mended_written (records : List Record) : mended (written records) = records := by
  rw [mended, written, List.map_map]
  exact (List.map_congr_left fun record _ => record.map_whole_text).trans (List.map_id _)

private theorem intact_written (records : List Record) : Intact (written records) := by
  have trimmed {text : String} {writing : Writing}
      (kept : (Writing.whole text).nonBlank? = some writing) : writing.isTorn = false := by
    obtain ⟨_, _, rfl⟩ := Option.map_eq_some_iff.mp kept
    rfl
  have named {name : Option String} {writing : Writing}
      (kept : (name.map Writing.whole).bind Writing.nonBlank? = some writing) :
      writing.isTorn = false := by
    obtain ⟨_, given, kept⟩ := Option.bind_eq_some_iff.mp kept
    obtain ⟨text, _, rfl⟩ := Option.map_eq_some_iff.mp given
    exact trimmed kept
  intro record listed writing examined
  obtain ⟨record, _, rfl⟩ := List.mem_map.mp listed
  cases record with
  | resolved given => exact named (Option.mem_toList.mp examined)
  | facts given =>
    rcases List.mem_append.mp examined with name | token
    · exact named (Option.mem_toList.mp name)
    · unfold Facts.Class.examinedTokens at token
      split at token
      · obtain ⟨_, listed, taken⟩ := List.mem_filterMap.mp token
        obtain ⟨parameter, _, rfl⟩ := List.mem_map.mp listed
        obtain ⟨_, candidate, kept⟩ := Facts.Parameter.exists_of_source? taken
        rw [Facts.Parameter.candidates_map] at candidate
        obtain ⟨text, _, rfl⟩ := List.mem_map.mp candidate
        exact trimmed kept
      · nomatch token

/-- Build records of texts with a store at hand, with no limit on digits. -/
def buildIn (store : Diagnostics) (config : Config) (records : List Record) :
    Except Breach Graph × Diagnostics :=
  outcome none store config (written records)

/-- Building with a store at hand is building without one, and then taking the notes. -/
theorem buildIn_eq (store : Diagnostics) (config : Config) (records : List Record) :
    buildIn store config records =
      ((build config records).value, (store.absorb (build config records).notes).1) := by
  rw [buildIn, outcome_eq (intact_written records) (Ledger.tells_of_unlimited rfl _),
    mended_written]

theorem fst_buildIn (store : Diagnostics) (config : Config) (records : List Record) :
    (buildIn store config records).1 = (build config records).value :=
  congrArg Prod.fst (buildIn_eq store config records)

theorem snd_buildIn (store : Diagnostics) (config : Config) (records : List Record) :
    (buildIn store config records).2 = (store.absorb (build config records).notes).1 :=
  congrArg Prod.snd (buildIn_eq store config records)

end Texts

end Pipeline

end Wiring
