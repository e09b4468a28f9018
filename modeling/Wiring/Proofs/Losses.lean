import Mathlib.Data.List.DropRight
import Mathlib.Data.List.TakeWhile
import Wiring.Pipeline

/-! # Records that are dropped

A record is kept if it has a name that no record before it has. For every other one there is a loss
to be told of. Its wording ends with a number, and the number, together with the stage at which the
record is dropped, tells the losses of a batch apart whatever names and files they have.
-/

namespace Wiring

namespace Text

theorem trimChars_trimChars {α : Type} (drop : α → Bool) (chars : List α) :
    trimChars drop (trimChars drop chars) = trimChars drop chars := by
  have front : (trimChars drop chars).dropWhile drop = trimChars drop chars := by
    obtain ⟨rest, whole⟩ := List.rdropWhile_prefix drop (chars.dropWhile drop)
    change trimChars drop chars ++ rest = chars.dropWhile drop at whole
    cases left : trimChars drop chars with
    | nil => rfl
    | cons first others =>
      -- what is left starts as the list did once its front was trimmed
      have stays := List.dropWhile_idempotent drop chars
      rw [← whole, left] at stays
      have kept := List.dropWhile_eq_self_iff.mp stays (Nat.zero_lt_succ _)
      exact List.dropWhile_cons_of_neg kept
  rw [trimChars, front]
  exact List.rdropWhile_idempotent drop (chars.dropWhile drop)

theorem nonBlank?_eq_some_iff {written name : String} :
    nonBlank? written = some name ↔ trim written = name ∧ name ≠ "" := by
  unfold nonBlank?
  split
  · rename_i blank
    simp [blank]
  · rename_i nonBlank
    rw [Option.some.injEq]
    refine ⟨?_, And.left⟩
    rintro rfl
    exact ⟨rfl, nonBlank⟩

/-- What was trimmed stays as it is. -/
theorem nonBlank?_of_nonBlank? {written name : String} (trimmed : nonBlank? written = some name) :
    nonBlank? name = some name := by
  obtain ⟨rfl, nonempty⟩ := nonBlank?_eq_some_iff.mp trimmed
  refine nonBlank?_eq_some_iff.mpr ⟨?_, nonempty⟩
  rw [trim, trim, String.toList_ofList, trimChars_trimChars]

/-- The last number in a text, zero if there is none. -/
def lastNumber (text : String) : Nat :=
  Nat.ofDigitChars 10
    ((text.toList.reverse.dropWhile fun c => !c.isDigit).takeWhile Char.isDigit).reverse 0

/-- A number that stands apart from what is before it, and after which there is no digit, is the
last one. -/
theorem lastNumber_append (before : String) {lead after : String} (number : Nat)
    (apart : lead.toList.getLast? = some ' ') (plain : ∀ c ∈ after.toList, c.isDigit = false) :
    lastNumber (before ++ lead ++ number.repr ++ after) = number := by
  obtain ⟨front, split⟩ := List.getLast?_eq_some_iff.mp apart
  have digits : ∀ c ∈ (Nat.toDigits 10 number).reverse, c.isDigit = true := fun c listed =>
    Nat.isDigit_of_mem_toDigits (by decide) (by decide) (List.mem_reverse.mp listed)
  have skipped : ∀ c ∈ after.toList.reverse, (!c.isDigit) = true := fun c listed => by
    rw [plain c (List.mem_reverse.mp listed)]
    rfl
  -- read from the end: no digits, then those of the number, then a blank
  have backward : (before ++ lead ++ number.repr ++ after).toList.reverse =
      after.toList.reverse ++ ((Nat.toDigits 10 number).reverse ++
        ' ' :: (front.reverse ++ before.toList.reverse)) := by
    simp [split]
  obtain ⟨last, rest, reversed⟩ := List.exists_cons_of_ne_nil
    (mt List.reverse_eq_nil_iff.mp (Nat.toDigits_ne_nil : Nat.toDigits 10 number ≠ []))
  have digit : last.isDigit = true := digits last (reversed ▸ List.mem_cons_self ..)
  have stop (tail : List Char) : ((Nat.toDigits 10 number).reverse ++ tail).dropWhile
      (fun c => !c.isDigit) = (Nat.toDigits 10 number).reverse ++ tail := by
    rw [reversed]
    exact List.dropWhile_cons_of_neg (by simp [digit])
  rw [lastNumber, backward, List.dropWhile_append_of_pos skipped, stop,
    List.takeWhile_append_of_pos digits, List.takeWhile_cons_of_neg (by decide), List.append_nil,
    List.reverse_reverse, Nat.ofDigitChars_ten_toDigits]

end Text

namespace Pipeline

namespace Record

/-- The name that a record goes by, blanks around it apart. -/
def name? : Record → Option String
  | facts given => given.name.bind Text.nonBlank?
  | resolved given => Assembly.name? given

def kind : Record → NodeKind
  | facts given => given.kind
  | resolved given => given.kind

/-- The file of a record, empty if it is not known. -/
def file : Record → String
  | facts given => given.file
  | resolved given => given.file.getD ""

def location : Record → Option Location
  | facts given => given.location
  | resolved given => given.location

/-- The resolved class that a record gives. Facts about an anonymous class give none. -/
def resolved? : Record → Option Resolved.Class
  | facts given => (given.resolve none).value
  | resolved given => some given

def node (record : Record) : Node := ⟨record.name?.getD "", record.kind⟩

theorem resolve_value (facts : Facts.Class) (position : Option Int) :
    (facts.resolve position).value = (Record.facts facts).resolved? := by
  simp only [resolved?, Facts.Class.resolve]
  cases facts.name.bind Text.nonBlank? <;> rfl

/-- Resolving a class keeps its name, its kind and where it stands. -/
theorem of_resolved? {record : Record} {resolved : Resolved.Class}
    (found : record.resolved? = some resolved) :
    Assembly.name? resolved = record.name? ∧ resolved.kind = record.kind ∧
      resolved.file.getD "" = record.file ∧ resolved.location = record.location := by
  cases record with
  | resolved other =>
    obtain rfl := Option.some.inj found
    exact ⟨rfl, rfl, rfl, rfl⟩
  | facts facts =>
    cases named : facts.name.bind Text.nonBlank? with
    | none => simp [resolved?, Facts.Class.resolve, named] at found
    | some name =>
      simp only [resolved?, Facts.Class.resolve, named, Option.some.injEq] at found
      subst found
      obtain ⟨written, _, trimmed⟩ := Option.bind_eq_some_iff.mp named
      refine ⟨?_, rfl, rfl, rfl⟩
      rw [name?, named]
      exact Text.nonBlank?_of_nonBlank? trimmed

/-- Only anonymous classes are dropped before assembly. -/
theorem name?_of_resolved? {record : Record} (lost : record.resolved? = none) :
    record.name? = none := by
  cases record with
  | resolved resolved => nomatch lost
  | facts facts =>
    cases named : facts.name.bind Text.nonBlank? with
    | none => exact named
    | some name => simp [resolved?, Facts.Class.resolve, named] at lost

/-- Facts about an anonymous class are always dropped there. -/
theorem resolved?_facts {facts : Facts.Class} (unnamed : (Record.facts facts).name? = none) :
    (Record.facts facts).resolved? = none := by
  have blank : facts.name.bind Text.nonBlank? = none := unnamed
  simp only [resolved?, Facts.Class.resolve, blank]

theorem isNone_resolved? {record : Record} (named : record.name? ≠ none) :
    record.resolved?.isNone = false := by
  cases found : record.resolved? with
  | none => exact absurd (name?_of_resolved? found) named
  | some resolved => rfl

/-- How the loss of a record with a number is worded. -/
def lossMessage (record : Record) (number : Nat) : String :=
  match record.name?, record with
  | some name, _ =>
    s!"Duplicate class name '{name}' at class record {number}; keeping the first occurrence"
  | none, facts given => given.anonymousMessage (some number)
  | none, resolved _ => s!"Dropping class record {number} without a name"

/-- What could be done about the loss of a record. -/
def lossSuggestion (record : Record) : String :=
  if record.name?.isSome then "Rename one of the classes so every class name is unique"
  else "Give the class a name so it can be included in the dependency graph"

/-- The diagnostic that tells of the loss of a record with a number. -/
def loss (record : Record) (number : Nat) : Diagnostic where
  category := .skippedClasses
  message := record.lossMessage number
  file := record.file
  line := record.location.map fun place => (place.line : Int)
  column := record.location.bind fun place => place.column.map fun column => (column : Int)
  suggestion := some record.lossSuggestion
  severity := .warning

section Wording

variable (number : Nat)

private theorem lossMessage_of_name {record : Record} {name : String}
    (named : record.name? = some name) :
    record.lossMessage number =
      "Duplicate class name '" ++ name ++ "' at class record " ++ number.repr ++
        "; keeping the first occurrence" := by
  simp only [lossMessage, named]
  rfl

private theorem lossMessage_of_anonymous {facts : Facts.Class}
    (unnamed : (Record.facts facts).name? = none) :
    (Record.facts facts).lossMessage number =
      "Skipping anonymous " ++ (facts.kind.name ++ " class" ++
        if facts.file = "" then "" else " in " ++ facts.file) ++ " (class record " ++ number.repr ++
          ")" := by
  have written : facts.anonymousMessage (some number) =
      "Skipping anonymous " ++ facts.kind.name ++ " class" ++
        (if facts.file = "" then "" else " in " ++ facts.file) ++
          (" (class record " ++ number.repr ++ ")") := rfl
  simp only [lossMessage, unnamed, written, String.append_assoc]

private theorem lossMessage_of_nameless {resolved : Resolved.Class}
    (unnamed : (Record.resolved resolved).name? = none) :
    (Record.resolved resolved).lossMessage number =
      "Dropping" ++ " class record " ++ number.repr ++ " without a name" := by
  simp only [lossMessage, unnamed]
  rfl

/-- The number of a loss can be read off its wording. -/
theorem lastNumber_lossMessage (record : Record) :
    Text.lastNumber (record.lossMessage number) = number := by
  cases named : record.name? with
  | some name =>
    rw [lossMessage_of_name number named]
    exact Text.lastNumber_append _ number (by simp) (by simp)
  | none =>
    cases record with
    | facts facts =>
      rw [lossMessage_of_anonymous number named]
      exact Text.lastNumber_append _ number (by simp) (by simp)
    | resolved resolved =>
      rw [lossMessage_of_nameless number named]
      exact Text.lastNumber_append _ number (by simp) (by simp)

/-- The stage at which a record is lost shows in the first letter of the wording. -/
theorem head?_lossMessage (record : Record) :
    (record.lossMessage number).toList.head? =
      some (if record.resolved?.isNone then 'S' else 'D') := by
  cases named : record.name? with
  | some name =>
    have got : record.resolved?.isNone = false := isNone_resolved? (by simp [named])
    rw [lossMessage_of_name number named, got]
    simp
  | none =>
    cases record with
    | facts facts =>
      rw [lossMessage_of_anonymous number named, resolved?_facts named]
      simp
    | resolved resolved =>
      rw [lossMessage_of_nameless number named]
      simp [resolved?]

end Wording

end Record

/-- Whether a record in its place has a name that none before it has. -/
def isKept (records : List Record) (item : Record × Nat) : Bool :=
  item.1.name?.any fun name => (records.take item.2).all fun earlier => earlier.name? != some name

theorem not_isKept_of_lost (records : List Record) {item : Record × Nat}
    (lost : item.1.resolved? = none) : isKept records item = false := by
  rw [isKept, Record.name?_of_resolved? lost]
  rfl

/-- The records that are kept, each with its place. -/
def kept (records : List Record) : List (Record × Nat) := records.zipIdx.filter (isKept records)

/-- The records that are dropped, each with its place. -/
def dropped (records : List Record) : List (Record × Nat) :=
  records.zipIdx.filter fun item => !isKept records item

/-- The number under which a record in its place is told of. An anonymous class among facts counts
the records before it, any other class only those that gave a resolved class. -/
def number (records : List Record) (item : Record × Nat) : Nat :=
  if item.1.resolved?.isNone then item.2 + 1
  else ((records.take item.2).filterMap Record.resolved?).length + 1

/-- The losses of a batch in the order in which they are told: those of facts about anonymous
classes come first. -/
def losses (records : List Record) : List Diagnostic :=
  (((dropped records).filter fun item => item.1.resolved?.isNone) ++
    (dropped records).filter fun item => !item.1.resolved?.isNone).map
      fun item => item.1.loss (number records item)

/-- The losses of resolving, from records with their places on. -/
def resolvingLosses (left : List (Record × Nat)) : List Diagnostic :=
  (left.filter fun item => item.1.resolved?.isNone).map fun item => item.1.loss (item.2 + 1)

/-- The losses of assembling, from records with their places on. -/
def assemblingLosses (records : List Record) (left : List (Record × Nat)) : List Diagnostic :=
  (left.filter fun item => !item.1.resolved?.isNone && !isKept records item).map
    fun item => item.1.loss (number records item)

/-- The losses of a batch stage by stage. -/
theorem losses_eq (records : List Record) :
    losses records = resolvingLosses records.zipIdx ++ assemblingLosses records records.zipIdx := by
  have early : ((dropped records).filter fun item => item.1.resolved?.isNone) =
      records.zipIdx.filter fun item => item.1.resolved?.isNone := by
    rw [dropped, List.filter_filter]
    refine List.filter_congr fun item _ => ?_
    cases found : item.1.resolved? with
    | some resolved => rfl
    | none =>
      rw [not_isKept_of_lost records found]
      rfl
  rw [losses, List.map_append, early, dropped, List.filter_filter]
  refine congrArg (· ++ _) (List.map_congr_left fun item listed => ?_)
  rw [number, if_pos (List.mem_filter.mp listed).2]

theorem length_kept_add_dropped (records : List Record) :
    (kept records).length + (dropped records).length = records.length := by
  rw [kept, dropped, ← List.length_eq_length_filter_add, List.length_zipIdx]

/-- Every dropped record has a loss of its own. -/
theorem losses_perm (records : List Record) :
    (losses records).Perm ((dropped records).map fun item => item.1.loss (number records item)) :=
  (List.filter_append_perm ..).map _

theorem length_losses (records : List Record) :
    (losses records).length = (dropped records).length := by
  rw [(losses_perm records).length_eq, List.length_map]

/-- A record that gives a resolved class counts from its place on. -/
theorem resolved_before_lt {records : List Record} {first second : Record × Nat}
    (found : records[first.2]? = some first.1) (got : first.1.resolved?.isNone = false)
    (before : first.2 < second.2) :
    ((records.take first.2).filterMap Record.resolved?).length <
      ((records.take second.2).filterMap Record.resolved?).length := by
  obtain ⟨resolved, given⟩ := Option.isSome_iff_exists.mp (Option.isNone_eq_false_iff.mp got)
  have later : (records.take (first.2 + 1)).Sublist (records.take second.2) :=
    (List.take_prefix_take_left before).sublist
  have more := (later.filterMap Record.resolved?).length_le
  rw [List.take_add_one, found, List.filterMap_append, List.length_append, Option.toList_some,
    List.filterMap_cons_some given] at more
  exact Nat.lt_of_succ_le more

private theorem loss_key_ne {records : List Record} {first second : Record × Nat}
    (found : records[first.2]? = some first.1) (before : first.2 < second.2) :
    (first.1.loss (number records first)).key ≠ (second.1.loss (number records second)).key := by
  intro same
  have wording : first.1.lossMessage (number records first) =
      second.1.lossMessage (number records second) := congrArg Diagnostic.Key.message same
  have numbers : number records first = number records second := by
    rw [← Record.lastNumber_lossMessage (number records first) first.1, wording,
      Record.lastNumber_lossMessage]
  have letters := congrArg (fun text : String => text.toList.head?) wording
  simp only [Record.head?_lossMessage, Option.some.injEq] at letters
  cases lost : first.1.resolved?.isNone with
  | true =>
    cases lost' : second.1.resolved?.isNone with
    | true =>
      simp only [number, lost, lost', if_true] at numbers
      omega
    | false => simp [lost, lost'] at letters
  | false =>
    cases lost' : second.1.resolved?.isNone with
    | true => simp [lost, lost'] at letters
    | false =>
      have fewer := resolved_before_lt found lost before
      simp only [number, lost, lost', Bool.false_eq_true, if_false] at numbers
      omega

/-- No two losses of a batch have the same key. -/
theorem losses_distinct (records : List Record) : ((losses records).map (·.key)).Nodup := by
  have places : records.zipIdx.Pairwise fun first second => first.2 < second.2 := by
    rw [← List.pairwise_map, List.zipIdx_map_snd]
    exact List.pairwise_lt_range'
  have apart : (dropped records).Pairwise fun first second =>
      (first.1.loss (number records first)).key ≠ (second.1.loss (number records second)).key :=
    (places.filter _).imp_of_mem fun listed _ before =>
      loss_key_ne (List.mem_zipIdx_iff_getElem?.mp (List.mem_filter.mp listed).1) before
  refine (((losses_perm records).map _).nodup_iff).mpr ?_
  rw [List.map_map, List.Nodup, List.pairwise_map]
  exact apart

end Pipeline

end Wiring
