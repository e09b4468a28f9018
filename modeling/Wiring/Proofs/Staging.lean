import Wiring.Pipeline
import Wiring.Proofs.Diagnostics

/-! # Stages on a ledger

Building on a ledger takes every note at once, and could make use of what the store holds. It does
not: as long as nothing is refused it comes to what building without a store comes to, with the
notes taken into the store one after the other. It breaks off if a string that a model looks into is
torn, or if advice that is new to the store cannot be told, and for no other reason.
-/

namespace Wiring

open Json (Writing)

section Runs

open Note (advised)

variable {α β : Type}

namespace Ledger

/-- The ledger after notes that can all be told. -/
def absorb (ledger : Ledger) (notes : List Note) : Ledger :=
  { ledger with
    store := (ledger.store.absorb notes).1
    events := ledger.events ++ (ledger.store.absorb notes).2 }

/-- Whether all advice among notes that is new to the store can be told. -/
def Tells (ledger : Ledger) (notes : List Note) : Prop :=
  ∀ diagnostic ∈ Diagnostics.novel ledger.store.keys (advised notes),
    (Note.advice diagnostic).breach? ledger.digits = none

@[simp] theorem absorb_nil (ledger : Ledger) : ledger.absorb [] = ledger := by
  simp [absorb, Diagnostics.absorb]

theorem absorb_cons (ledger : Ledger) (note : Note) (notes : List Note) :
    ledger.absorb (note :: notes) = (ledger.absorb [note]).absorb notes := by
  simp [absorb, Diagnostics.absorb]

theorem absorb_append (ledger : Ledger) (first second : List Note) :
    ledger.absorb (first ++ second) = (ledger.absorb first).absorb second := by
  induction first generalizing ledger with
  | nil => simp
  | cons note rest ih =>
    rw [List.cons_append, absorb_cons, ih, ← absorb_cons]

@[simp] theorem tells_nil (ledger : Ledger) : ledger.Tells [] := by
  simp [Tells, Diagnostics.novel]

theorem tells_append {ledger : Ledger} {first second : List Note} :
    ledger.Tells (first ++ second) ↔
      ledger.Tells first ∧ (ledger.absorb first).Tells second := by
  have known : (ledger.absorb first).store.keys =
      ledger.store.keys ++ (Diagnostics.novel ledger.store.keys (advised first)).map (·.key) := by
    rw [Diagnostics.keys_eq, absorb, Diagnostics.warnings_absorb, List.map_append,
      ← Diagnostics.keys_eq]
  simp only [Tells, Note.advised_append, Diagnostics.novel_append, List.mem_append, or_imp,
    forall_and, known]
  rfl

/-- Without a limit on digits everything can be told. -/
theorem tells_of_unlimited {ledger : Ledger} (unlimited : ledger.digits = none)
    (notes : List Note) : ledger.Tells notes := by
  intro diagnostic _
  rw [unlimited]
  rfl

end Ledger

namespace Stage

/-- A stage that comes to a result with notes: it takes the notes and gives the result, unless one
of them cannot be told. -/
structure Runs (stage : Stage α) (noted : Noted α) : Prop where
  gives : ∀ ledger : Ledger, ledger.Tells noted.notes →
    stage.run.run ledger = (.ok noted.value, ledger.absorb noted.notes)
  breaks : ∀ ledger : Ledger, ¬ ledger.Tells noted.notes →
    ∃ most after, ledger.digits = some most ∧
      stage.run.run ledger = (.error (.tooManyDigits most), after)

/-- A stage that breaks off on every ledger. -/
def Fails (stage : Stage α) : Prop :=
  ∀ ledger, ∃ breach after, breach ≠ .mixedRecords ∧
    stage.run.run ledger = (.error breach, after)

theorem run_bind_of_ok {stage : Stage α} {next : α → Stage β} {ledger after : Ledger} {a : α}
    (ran : stage.run.run ledger = (.ok a, after)) :
    (stage >>= next).run.run ledger = (next a).run.run after := by
  simp only [ExceptT.run_bind, StateT.run_bind, ran]
  rfl

theorem run_bind_of_error {stage : Stage α} {next : α → Stage β} {ledger after : Ledger}
    {breach : Breach} (ran : stage.run.run ledger = (.error breach, after)) :
    (stage >>= next).run.run ledger = (.error breach, after) := by
  simp only [ExceptT.run_bind, StateT.run_bind, ran]
  rfl

theorem Runs.pure (a : α) : Runs (Pure.pure a : Stage α) ⟨a, []⟩ where
  gives ledger _ := by
    rw [Ledger.absorb_nil]
    rfl
  breaks ledger untold := absurd ledger.tells_nil untold

theorem Runs.bind {stage : Stage α} {first : Noted α} {second : Noted β}
    (runs : Runs stage first) (next : α → Stage β) (follows : Runs (next first.value) second) :
    Runs (stage >>= next) ⟨second.value, first.notes ++ second.notes⟩ where
  gives ledger told := by
    obtain ⟨toldFirst, toldSecond⟩ := Ledger.tells_append.mp told
    rw [run_bind_of_ok (runs.gives ledger toldFirst), follows.gives _ toldSecond,
      Ledger.absorb_append]
  breaks ledger untold := by
    by_cases toldFirst : ledger.Tells first.notes
    · rw [run_bind_of_ok (runs.gives ledger toldFirst)]
      exact follows.breaks _ fun toldSecond =>
        untold (Ledger.tells_append.mpr ⟨toldFirst, toldSecond⟩)
    · obtain ⟨most, after, limit, broke⟩ := runs.breaks ledger toldFirst
      exact ⟨most, after, limit, run_bind_of_error broke⟩

theorem Runs.before {stage : Stage Unit} {notes : List Note} (runs : Runs stage ⟨(), notes⟩)
    {next : Stage β} {noted : Noted β} (follows : Runs next noted) :
    Runs (do stage; next) ⟨noted.value, notes ++ noted.notes⟩ :=
  runs.bind (fun _ => next) follows

/-- What is recorded of a note is told, unless it has too many digits. -/
theorem tells_singleton {ledger : Ledger} {note : Note} :
    ledger.Tells [note] ↔
      (ledger.store.take note).2 = [] ∨ note.breach? ledger.digits = none := by
  cases note with
  | advice diagnostic =>
    by_cases old : diagnostic.key ∈ ledger.store.keys <;>
      simp [Ledger.Tells, Note.diagnostic?, Diagnostics.novel, Diagnostics.take,
        Diagnostics.record, old]
  | tally _ => simp [Ledger.Tells, Note.diagnostic?, Diagnostics.novel, Note.breach?]
  | event _ => simp [Ledger.Tells, Note.diagnostic?, Diagnostics.novel, Note.breach?]
  | built _ _ _ => simp [Ledger.Tells, Note.diagnostic?, Diagnostics.novel, Note.breach?]

private theorem exists_of_breach? {digits : Option Nat} {note : Note} {breach : Breach}
    (breached : note.breach? digits = some breach) :
    ∃ most, digits = some most ∧ breach = .tooManyDigits most := by
  unfold Note.breach? at breached
  split at breached
  · split at breached
    · split at breached
      · nomatch breached
      · exact ⟨_, rfl, (Option.some.inj breached).symm⟩
    · nomatch breached
  all_goals nomatch breached

/-- A note is taken, unless it is advice that is new and cannot be told. -/
theorem runs_take (note : Note) : Runs (take note) ⟨(), [note]⟩ := by
  have read (ledger : Ledger) : (get : Stage Ledger).run.run ledger = (.ok ledger, ledger) := rfl
  constructor
  · intro ledger told
    have absorbed : ledger.absorb [note] =
        { ledger with
          store := (ledger.store.take note).1
          events := ledger.events ++ (ledger.store.take note).2 } := by
      simp [Ledger.absorb, Diagnostics.absorb]
    have told := tells_singleton.mp told
    rw [absorbed, take, run_bind_of_ok (read ledger)]
    generalize ledger.store.take note = taken at told ⊢
    rcases taken with ⟨store, _ | ⟨event, events⟩⟩
    · rfl
    · rw [told.resolve_left (List.cons_ne_nil event events)]
      rfl
  · intro ledger untold
    rw [tells_singleton, not_or] at untold
    obtain ⟨breach, breached⟩ := Option.ne_none_iff_exists'.mp untold.2
    obtain ⟨most, limit, rfl⟩ := exists_of_breach? breached
    refine ⟨most, { ledger with store := (ledger.store.take note).1 }, limit, ?_⟩
    rw [take, run_bind_of_ok (read ledger), breached]
    have recorded := untold.1
    generalize ledger.store.take note = taken at recorded ⊢
    rcases taken with ⟨store, _ | ⟨event, events⟩⟩
    · exact absurd rfl recorded
    · rfl

theorem runs_takeAll (notes : List Note) : Runs (takeAll notes) ⟨(), notes⟩ := by
  induction notes with
  | nil => exact .pure ()
  | cons note rest ih => exact (runs_take note).bind (fun _ => takeAll rest) ih

theorem runs_noted (result : Noted α) : Runs (noted result) result := by
  have runs := (runs_takeAll result.notes).bind (fun _ => Pure.pure result.value)
    (.pure result.value)
  rwa [List.append_nil] at runs

private theorem run_closing (stage : Stage α) (event : Log.Event) (ledger : Ledger) :
    (closing event stage).run.run ledger =
      ((stage.run.run ledger).1, (stage.run.run ledger).2.absorb [.event event]) :=
  rfl

/-- What is logged at the end of a stage is one more note. -/
theorem Runs.closing {stage : Stage α} {noted : Noted α} (runs : Runs stage noted)
    (event : Log.Event) : Runs (closing event stage) (noted.followedBy (.event event)) := by
  have logged {ledger : Ledger} : ledger.Tells (noted.followedBy (.event event)).notes ↔
      ledger.Tells noted.notes :=
    Ledger.tells_append.trans (and_iff_left (tells_singleton.mpr (.inr rfl)))
  constructor
  · intro ledger told
    rw [run_closing, runs.gives ledger (logged.mp told), Noted.followedBy, Ledger.absorb_append]
  · intro ledger untold
    obtain ⟨most, after, limit, broke⟩ := runs.breaks ledger (mt logged.mpr untold)
    rw [run_closing, broke]
    exact ⟨most, _, limit, rfl⟩

theorem Runs.map {stage : Stage α} {noted : Noted α} (runs : Runs stage noted) (f : α → β) :
    Runs (do return f (← stage)) (noted.map f) := by
  have mapped := runs.bind (fun a => Pure.pure (f a)) (.pure _)
  rwa [List.append_nil] at mapped

/-- A note on the result is taken before it is passed on. -/
theorem Runs.telling {stage : Stage α} {noted : Noted α} (runs : Runs stage noted)
    (note : α → Note) (f : α → β) :
    Runs (do let a ← stage; take (note a); return f a)
      ⟨f noted.value, noted.notes ++ [note noted.value]⟩ :=
  runs.bind (fun a => do take (note a); return f a)
    ((runs_take (note noted.value)).map fun _ => f noted.value)

theorem Runs.mapM {each : α → Stage β} {results : α → Noted β} {items : List α}
    (runs : ∀ item ∈ items, Runs (each item) (results item)) :
    Runs (items.mapM each)
      ⟨items.map fun item => (results item).value,
        items.flatMap fun item => (results item).notes⟩ := by
  induction items with
  | nil => exact .pure []
  | cons item rest ih =>
    obtain ⟨first, others⟩ := List.forall_mem_cons.mp runs
    rw [List.mapM_cons, List.map_cons, List.flatMap_cons]
    exact first.bind (fun value => do return value :: (← rest.mapM each))
      ((ih others).map ((results item).value :: ·))

section Failing

variable {stage : Stage α}

theorem Runs.fails_bind {noted : Noted α} (runs : Runs stage noted) {next : α → Stage β}
    (fails : Fails (next noted.value)) : Fails (stage >>= next) := by
  intro ledger
  by_cases told : ledger.Tells noted.notes
  · rw [run_bind_of_ok (runs.gives ledger told)]
    exact fails _
  · obtain ⟨most, after, _, broke⟩ := runs.breaks ledger told
    exact ⟨.tooManyDigits most, after, nofun, run_bind_of_error broke⟩

theorem Fails.bind (fails : Fails stage) (next : α → Stage β) : Fails (stage >>= next) := by
  intro ledger
  obtain ⟨breach, after, sort, broke⟩ := fails ledger
  exact ⟨breach, after, sort, run_bind_of_error broke⟩

theorem Fails.closing (fails : Fails stage) (event : Log.Event) :
    Fails (closing event stage) := by
  intro ledger
  obtain ⟨breach, after, sort, broke⟩ := fails ledger
  rw [run_closing, broke]
  exact ⟨breach, _, sort, rfl⟩

/-- Steps that all run or fail break off if one of them fails. -/
theorem Fails.mapM {each : α → Stage β} {items : List α} {item : α}
    (known : ∀ item ∈ items, (∃ noted, Runs (each item) noted) ∨ Fails (each item))
    (listed : item ∈ items) (fails : Fails (each item)) : Fails (items.mapM each) := by
  induction items with
  | nil => nomatch listed
  | cons first rest ih =>
    rw [List.mapM_cons]
    obtain ⟨here, others⟩ := List.forall_mem_cons.mp known
    rcases List.mem_cons.mp listed with rfl | later
    · exact fails.bind _
    · rcases here with ⟨_, runs⟩ | broken
      · exact runs.fails_bind ((ih others later).bind _)
      · exact broken.bind _

end Failing

section Checks

variable {model field : String}

theorem runs_check {text : String} (filled : text ≠ "") :
    Runs (check model field (.whole text)) ⟨(), []⟩ := by
  have passes : check model field (.whole text) = Pure.pure () := by
    simp [check, Writing.value, Schema.Decoder.nonEmptyText, filled, Schema.Checked.within,
      Schema.Checked.forModel]
  rw [passes]
  exact .pure ()

theorem fails_check (points : List Nat) : Fails (check model field (.torn points)) :=
  fun ledger => ⟨.refused ⟨model, [⟨.notUnicode, [.key field]⟩]⟩, ledger, nofun, rfl⟩

end Checks

end Stage

end Runs

end Wiring
