import Mathlib.Data.List.Nodup
import Wiring.Diagnostics.Store

/-! # What a store makes of notes

From the notes that it takes in, a store keeps the advice whose key is new, in order, and it adds
up all tallies. Nothing else of them leaves a trace. So advice that was taken in once has no effect
when it comes again, and advice of one category is kept or left out as if there were no other.
-/

namespace Wiring

namespace Tally

@[simp] theorem add_zero (tally : Tally) : tally.add .zero = tally := by
  simp [add, zero, FlagCounts.add, FlagCounts.zero]

@[simp] theorem zero_add (tally : Tally) : Tally.zero.add tally = tally := by
  simp [add, zero, FlagCounts.add, FlagCounts.zero]

theorem add_assoc (a b c : Tally) : (a.add b).add c = a.add (b.add c) := by
  simp [add, FlagCounts.add, Nat.add_assoc]

end Tally

namespace Note

def diagnostic? : Note → Option Diagnostic
  | advice diagnostic => some diagnostic
  | tally _ | event _ | built _ _ _ => none

def tallied : Note → Tally
  | tally counts => counts
  | advice _ | event _ | built _ _ _ => .zero

/-- The diagnostics among notes, in order. -/
def advised (notes : List Note) : List Diagnostic := notes.filterMap diagnostic?

def counted (notes : List Note) : Tally := notes.foldr (fun note sum => note.tallied.add sum) .zero

@[simp] theorem advised_nil : advised [] = [] := rfl

@[simp] theorem advised_cons (note : Note) (notes : List Note) :
    advised (note :: notes) = note.diagnostic?.toList ++ advised notes := by
  cases note <;> rfl

@[simp] theorem advised_append (first second : List Note) :
    advised (first ++ second) = advised first ++ advised second :=
  List.filterMap_append

@[simp] theorem counted_nil : counted [] = .zero := rfl

@[simp] theorem counted_cons (note : Note) (notes : List Note) :
    counted (note :: notes) = note.tallied.add (counted notes) := rfl

/-- Whether a note leaves a trace in a store. What is only logged does not. -/
def lasts : Note → Bool
  | tally _ | advice _ => true
  | event _ | built _ _ _ => false

/-- The notes that leave a trace in a store, in order. -/
def lasting (notes : List Note) : List Note := notes.filter lasts

@[simp] theorem lasting_append (first second : List Note) :
    lasting (first ++ second) = lasting first ++ lasting second :=
  List.filter_append ..

theorem advised_lasting (notes : List Note) : advised (lasting notes) = advised notes := by
  induction notes with
  | nil => rfl
  | cons note notes ih =>
    rw [lasting] at ih ⊢
    cases note <;> simp [List.filter_cons, lasts, diagnostic?, ih]

theorem counted_lasting (notes : List Note) : counted (lasting notes) = counted notes := by
  induction notes with
  | nil => rfl
  | cons note notes ih =>
    rw [lasting] at ih ⊢
    cases note <;> simp [List.filter_cons, lasts, tallied, ih]

end Note

namespace Diagnostics

open Diagnostic (Key)

variable {known : List Key} {diagnostics : List Diagnostic}

section Novel

/-- The first of the diagnostics with each key, except where the key is known before. -/
def novel (known : List Key) : List Diagnostic → List Diagnostic
  | [] => []
  | diagnostic :: rest =>
    if diagnostic.key ∈ known then novel known rest
    else diagnostic :: novel (known ++ [diagnostic.key]) rest

theorem novel_append (known : List Key) (first second : List Diagnostic) :
    novel known (first ++ second) =
      novel known first ++ novel (known ++ (novel known first).map (·.key)) second := by
  induction first generalizing known with
  | nil => simp [novel]
  | cons diagnostic rest ih =>
    simp only [List.cons_append, novel]
    split
    · exact ih known
    · rw [ih, List.map_cons, List.cons_append, List.append_assoc, List.singleton_append]

theorem novel_singleton (known : List Key) (diagnostic : Diagnostic) :
    novel known [diagnostic] = if diagnostic.key ∈ known then [] else [diagnostic] := by
  simp only [novel]

/-- Every key is known in the end. -/
theorem mem_keys_novel (known : List Key) {diagnostic : Diagnostic}
    (listed : diagnostic ∈ diagnostics) :
    diagnostic.key ∈ known ++ (novel known diagnostics).map (·.key) := by
  induction diagnostics generalizing known with
  | nil => nomatch listed
  | cons first rest ih =>
    simp only [novel]
    rcases List.mem_cons.mp listed with rfl | later
    · split
      · exact List.mem_append_left _ ‹_›
      · simp
    · split
      · exact ih known later
      · simpa using ih (known ++ [first.key]) later

private theorem novel_eq_nil (old : ∀ diagnostic ∈ diagnostics, diagnostic.key ∈ known) :
    novel known diagnostics = [] := by
  induction diagnostics with
  | nil => rfl
  | cons first rest ih =>
    obtain ⟨here, later⟩ := List.forall_mem_cons.mp old
    rw [novel, if_pos here, ih later]

private theorem novel_eq_self (fresh : ∀ diagnostic ∈ diagnostics, diagnostic.key ∉ known)
    (distinct : (diagnostics.map (·.key)).Nodup) : novel known diagnostics = diagnostics := by
  induction diagnostics generalizing known with
  | nil => rfl
  | cons first rest ih =>
    obtain ⟨here, later⟩ := List.forall_mem_cons.mp fresh
    obtain ⟨apart, distinct⟩ := List.nodup_cons.mp distinct
    rw [novel, if_neg here, ih ?_ distinct]
    intro diagnostic listed before
    rcases List.mem_append.mp before with before | same
    · exact later diagnostic listed before
    · exact apart (List.mem_map.mpr ⟨diagnostic, listed, List.mem_singleton.mp same⟩)

/-- Categories do not interfere: only the known keys of a category matter to it. -/
theorem filter_novel (category : Diagnostic.Category) (known others : List Key)
    (same : ∀ key : Key, key.category = category → (key ∈ known ↔ key ∈ others)) :
    (novel known diagnostics).filter (·.category = category) =
      novel others (diagnostics.filter (·.category = category)) := by
  induction diagnostics generalizing known others with
  | nil => rfl
  | cons first rest ih =>
    by_cases chosen : first.category = category
    · simp only [novel, List.filter_cons, chosen, decide_true, if_true]
      by_cases old : first.key ∈ known
      · rw [if_pos old, if_pos ((same first.key chosen).mp old), ih known others same]
      · rw [if_neg old, if_neg (mt (same first.key chosen).mpr old)]
        simp only [List.filter_cons, chosen, decide_true, if_true]
        refine congrArg _ (ih _ _ fun key here => ?_)
        rw [List.mem_append, List.mem_append, same key here]
    · -- a diagnostic of another category brings a key that nothing here can have
      simp only [novel, List.filter_cons, chosen, decide_false]
      split
      · exact ih known others same
      · simp only [List.filter_cons, chosen, decide_false]
        refine ih _ _ fun key here => ?_
        have apart : key ≠ first.key := by
          rintro rfl
          exact chosen here
        rw [List.mem_append, List.mem_singleton, or_iff_left apart, same key here]

end Novel

section Absorb

open Note (advised counted)

variable (store : Diagnostics) (notes : List Note)

/-- The keys of a store follow from its warnings, so warnings and statistics tell stores apart. -/
theorem eq_of_warnings_tally {first second : Diagnostics}
    (warnings : first.warnings = second.warnings) (tally : first.tally = second.tally) :
    first = second := by
  obtain ⟨_, _, _, rfl⟩ := first
  obtain ⟨_, _, _, rfl⟩ := second
  subst warnings tally
  rfl

theorem warnings_take (note : Note) :
    (store.take note).1.warnings = store.warnings ++ novel store.keys note.diagnostic?.toList := by
  cases note with
  | advice diagnostic =>
    simp only [take, record, Note.diagnostic?, Option.toList_some, novel]
    split <;> simp
  | tally tally => exact (List.append_nil _).symm
  | event event => exact (List.append_nil _).symm
  | built nodes edges cycles => exact (List.append_nil _).symm

theorem tally_take (note : Note) :
    (store.take note).1.tally = store.tally.add note.tallied := by
  cases note with
  | advice diagnostic =>
    simp only [take, record, Note.tallied, Tally.add_zero]
    split <;> rfl
  | tally tally => rfl
  | event event => exact (Tally.add_zero _).symm
  | built nodes edges cycles => exact (Tally.add_zero _).symm

/-- Of the advice among notes a store keeps what is new to it. -/
theorem warnings_absorb :
    (store.absorb notes).1.warnings = store.warnings ++ novel store.keys (advised notes) := by
  induction notes generalizing store with
  | nil => simp [absorb, novel]
  | cons note rest ih =>
    have unfolded : (store.absorb (note :: rest)).1 = ((store.take note).1.absorb rest).1 := rfl
    rw [unfolded, ih, keys_eq, warnings_take, Note.advised_cons, novel_append, List.map_append,
      ← keys_eq, List.append_assoc]

variable {notes}

/-- All that is counted is added. -/
theorem tally_absorb : (store.absorb notes).1.tally = store.tally.add (counted notes) := by
  induction notes generalizing store with
  | nil => exact (Tally.add_zero _).symm
  | cons note rest ih =>
    have unfolded : (store.absorb (note :: rest)).1 = ((store.take note).1.absorb rest).1 := rfl
    rw [unfolded, ih, tally_take, Note.counted_cons, Tally.add_assoc]

/-- Notes that differ in what is logged alone do the same to a store. -/
theorem absorb_congr {others : List Note} (same : Note.lasting others = Note.lasting notes) :
    (store.absorb others).1 = (store.absorb notes).1 := by
  refine eq_of_warnings_tally ?_ ?_
  · rw [warnings_absorb, warnings_absorb, ← Note.advised_lasting others, same,
      Note.advised_lasting]
  · rw [tally_absorb, tally_absorb, ← Note.counted_lasting others, same, Note.counted_lasting]

/-- Advice that was taken in once is not recorded again. -/
theorem warnings_absorb_again {others : List Note}
    (same : Note.lasting others = Note.lasting notes) :
    ((store.absorb notes).1.absorb others).1.warnings = (store.absorb notes).1.warnings := by
  rw [absorb_congr _ same, warnings_absorb (store.absorb notes).1 notes]
  refine List.append_right_eq_self.mpr (novel_eq_nil fun diagnostic listed => ?_)
  rw [keys_eq, warnings_absorb, List.map_append, ← keys_eq]
  exact mem_keys_novel _ listed

/-- Advice of one category is recorded in full by a store without warnings, if no two pieces of it
have the same key. -/
theorem ofCategory_absorb (category : Diagnostic.Category) (fresh : store.warnings = [])
    (distinct : (((advised notes).filter (·.category = category)).map (·.key)).Nodup) :
    (store.absorb notes).1.ofCategory category =
      (advised notes).filter (·.category = category) := by
  have unknown : store.keys = [] := by rw [keys_eq, fresh, List.map_nil]
  calc
    (store.absorb notes).1.ofCategory category
      = (novel [] (advised notes)).filter (·.category = category) := by
        rw [ofCategory, warnings_absorb, fresh, List.nil_append, unknown]
    _ = novel [] ((advised notes).filter (·.category = category)) :=
        filter_novel category [] [] fun _ _ => Iff.rfl
    _ = (advised notes).filter (·.category = category) :=
        novel_eq_self (fun _ _ => List.not_mem_nil) distinct

end Absorb

end Diagnostics

end Wiring
