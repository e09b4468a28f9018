import Wiring.Facts.Load
import Wiring.Proofs.Configuration
import Wiring.Proofs.Losses
import Wiring.Proofs.Rendering

/-! # Facts that are stored and loaded again

Facts that were loaded can be written and loaded again. All of it comes back but the names of
decorators, which are bared a second time. A name of which blanks and then `@` signs were taken may
start with a blank, and only such a name is not kept: the blank, and what was behind it, goes when
the facts are loaded again.
-/

namespace Wiring

open Schema
open Json (Value Writing)

theorem map_eq_self_iff {α : Type} {f : α → α} {parts : List α} :
    parts.map f = parts ↔ ∀ a ∈ parts, f a = a := by
  simpa using List.map_inj_left (f := f) (g := id) (l := parts)

section Trimming

variable {drop : Char → Bool} {chars : List Char} {c : Char}

theorem dropWhile_eq_self (front : ∀ c ∈ chars.head?, drop c = false) :
    chars.dropWhile drop = chars := by
  cases chars with
  | nil => rfl
  | cons c rest => exact List.dropWhile_cons_of_neg (by simp [front c rfl])

private theorem head?_dropWhile (drop : Char → Bool) (first : c ∈ (chars.dropWhile drop).head?) :
    drop c = false := by
  have kept := List.head?_dropWhile_not drop chars
  rw [Option.mem_def.mp first] at kept
  simpa using kept

private theorem getLast?_trimChars (last : c ∈ (Text.trimChars drop chars).getLast?) :
    drop c = false := by
  rw [Text.trimChars, List.getLast?_reverse] at last
  exact head?_dropWhile drop last

theorem trimChars_eq_self (front : ∀ c ∈ chars.head?, drop c = false)
    (back : ∀ c ∈ chars.getLast?, drop c = false) : Text.trimChars drop chars = chars := by
  rw [Text.trimChars, dropWhile_eq_self front, dropWhile_eq_self, List.reverse_reverse]
  rwa [List.head?_reverse]

private theorem bind_nonBlank? (written : Option Writing) :
    (written.bind Writing.nonBlank?).bind Writing.nonBlank? = written.bind Writing.nonBlank? := by
  cases found : written.bind Writing.nonBlank? with
  | none => rfl
  | some name =>
    obtain ⟨text, rfl, trimmed⟩ := Option.bind_eq_some_iff.mp found
    rw [Option.bind_some, Writing.nonBlank?_of_nonBlank? trimmed]

end Trimming

theorem Flags.decode_encode (model : String) (flags : Flags) :
    decode model flags.encode = .ok flags :=
  record_gives model
    (((((Fields.nullable_gives_found rfl (Decoder.nullable_ofBool? flags.optional)).map
      Flags.mk).seq
      (Fields.nullable_gives_found rfl (Decoder.nullable_ofBool? flags.self))).seq
      (Fields.nullable_gives_found rfl (Decoder.nullable_ofBool? flags.skipSelf))).seq
      (Fields.nullable_gives_found rfl (Decoder.nullable_ofBool? flags.host)))
    (by simp [fields])

theorem Location.decode_encode_of_ordinals {location : Location}
    (line : Valid Decoder.ordinal location.line)
    (column : ∀ n ∈ location.column, Valid Decoder.ordinal n) :
    decode location.encode = .ok location :=
  record_gives "SourceLocation"
    (((Fields.required_gives rfl (Decoder.ordinal_ofNat line)).map Location.mk).seq
      (Fields.nullable_gives_found rfl (Decoder.nullable_getD location.column (fun _ => nofun)
        fun n present => Decoder.ordinal_ofNat (column n present))))
    (by simp)

theorem Location.decode_encode {location : Location} (valid : Valid decode location) :
    decode location.encode = .ok location := by
  obtain ⟨_, column, partly, columned, rfl⟩ := Fields.valid_of_seq (valid_of_record valid)
  obtain ⟨line, lined, rfl⟩ := Fields.valid_of_map partly
  exact decode_encode_of_ordinals (Fields.valid_of_required lined) fun n present =>
    Fields.valid_of_nullable columned present

theorem Location.nullable_encode {place : Option Location}
    (valid : ∀ location ∈ place, Valid decode location) :
    decode.nullable ((place.map encode).getD .null) = .ok place :=
  Decoder.nullable_getD place (fun _ => nofun) fun location present =>
    decode_encode (valid location present)

namespace Facts

namespace Decorator

/-- Whether a name starts with no blank. -/
def Settled (name : String) : Prop := ∀ c ∈ name.toList.head?, Text.isBlank c = false

theorem toList_bareName (written : String) :
    (bareName written).toList =
      (Text.trimChars Text.isBlank written.toList).dropWhile (· == '@') := by
  rw [bareName, Text.trim, String.toList_ofList, String.toList_ofList]

private theorem length_bareName_le (written : String) :
    (bareName written).toList.length ≤ (written.toList.dropWhile Text.isBlank).length := by
  rw [toList_bareName, Text.trimChars]
  refine (List.dropWhile_suffix _).length_le.trans ?_
  rw [List.length_reverse]
  exact (List.dropWhile_suffix _).length_le.trans_eq List.length_reverse

/-- A kept name stays as it is when it is bared again, unless it starts with a blank. -/
theorem bareName_bareName_eq_iff (written : String) :
    bareName (bareName written) = bareName written ↔ Settled (bareName written) := by
  constructor
  · intro same c first
    -- a blank at the start would be dropped, and nothing makes up for its loss
    by_contra blank
    have shorter := length_bareName_le (bareName written)
    rw [same] at shorter
    obtain ⟨rest, chars⟩ := List.head?_eq_some_iff.mp (Option.mem_def.mp first)
    rw [chars, List.dropWhile_cons_of_pos (by simpa using blank)] at shorter
    have := (List.dropWhile_suffix (p := Text.isBlank) (l := rest)).length_le
    simp only [List.length_cons] at shorter
    omega
  · intro settled
    have trimmed : Text.trimChars Text.isBlank (bareName written).toList =
        (bareName written).toList := by
      refine trimChars_eq_self settled fun c last => ?_
      rw [toList_bareName] at last
      obtain ⟨front, whole⟩ := List.dropWhile_suffix (p := (· == '@'))
        (l := Text.trimChars Text.isBlank written.toList)
      have lastWhole : c ∈ (Text.trimChars Text.isBlank written.toList).getLast? := by
        rw [← whole, List.getLast?_append, Option.mem_def.mp last]
        rfl
      exact getLast?_trimChars lastWhole
    rw [← String.toList_inj, toList_bareName (bareName written), trimmed]
    refine dropWhile_eq_self fun c first => ?_
    rw [toList_bareName] at first
    exact head?_dropWhile (· == '@') first

/-- The decorator with its name bared once more. -/
def rebared (decorator : Decorator Writing) : Decorator Writing :=
  { decorator with name := bareName decorator.name }

theorem decode_encode (decorator : Decorator Writing) :
    decode decorator.encode = .ok decorator.rebared := by
  have named : (Decoder.text.refine fun name => .ok (bareName name)) (.str decorator.name) =
      .ok (bareName decorator.name) :=
    Decoder.refine_eq_ok.mpr ⟨_, Decoder.text_str _, rfl⟩
  exact record_gives "DecoratorFact" (((Fields.required_gives rfl named).map Decorator.mk).seq
    (Fields.nullable_gives_found rfl (Decoder.nullable_ofWriting? decorator.token))) (by simp)

theorem rebared_eq_iff {decorator : Decorator Writing} (valid : Valid decode decorator) :
    decorator.rebared = decorator ↔ Settled decorator.name := by
  obtain ⟨_, token, partly, _, rfl⟩ := Fields.valid_of_seq (valid_of_record valid)
  obtain ⟨name, named, rfl⟩ := Fields.valid_of_map partly
  obtain ⟨value, decoded⟩ := Fields.valid_of_required named
  obtain ⟨written, _, bared⟩ := Decoder.refine_eq_ok.mp decoded
  obtain rfl := Except.ok.inj bared
  rw [rebared, mk.injEq, and_iff_left rfl]
  exact bareName_bareName_eq_iff written

end Decorator

theorem InjectCall.decode_encode (call : InjectCall Writing) : decode call.encode = .ok call :=
  record_gives "InjectCall"
    (((Fields.nullable_gives_found rfl (Decoder.nullable_ofWriting? call.token)).map
      InjectCall.mk).seq
      (Fields.nullable_gives_found rfl (Decoder.nullable_getD call.options (fun _ => nofun)
        fun options _ => options.decode_encode "InjectOptions")))
    (by simp)

namespace Parameter

/-- The parameter with the names of its decorators bared once more. -/
def rebared (parameter : Parameter Writing) : Parameter Writing :=
  { parameter with decorators := parameter.decorators.map Decorator.rebared }

/-- What makes a parameter one that was loaded: a trimmed type, or none, and valid parts. -/
structure Loaded (parameter : Parameter Writing) : Prop where
  trimmed : parameter.typeName.bind Writing.nonBlank? = parameter.typeName
  decorated : ∀ decorator ∈ parameter.decorators, Valid Decorator.decode decorator
  located : ∀ location ∈ parameter.location, Valid Location.decode location

theorem loaded_of_valid {parameter : Parameter Writing} (valid : Valid decode parameter) :
    parameter.Loaded := by
  obtain ⟨_, location, upToCall, located, rfl⟩ := Fields.valid_of_seq (valid_of_record valid)
  obtain ⟨_, call, upToDecorators, _, rfl⟩ := Fields.valid_of_seq upToCall
  obtain ⟨_, decorators, upToResolved, decorated, rfl⟩ := Fields.valid_of_seq upToDecorators
  obtain ⟨_, resolved, upToType, _, rfl⟩ := Fields.valid_of_seq upToResolved
  obtain ⟨_, type, upToName, typed, rfl⟩ := Fields.valid_of_seq upToType
  obtain ⟨name, _, rfl⟩ := Fields.valid_of_map upToName
  refine ⟨?_, ?_, fun place present => Fields.valid_of_nullable located present⟩
  · rcases Fields.valid_of_withDefault typed with rfl | ⟨value, decoded⟩
    · rfl
    · obtain ⟨written, _, trimmed⟩ := Decoder.refine_eq_ok.mp decoded
      obtain rfl := Except.ok.inj trimmed
      exact bind_nonBlank? written
  · rcases Fields.valid_of_withDefault decorated with rfl | listed
    · exact List.forall_mem_nil _
    · exact Decoder.valid_of_list listed

theorem decode_encode {parameter : Parameter Writing} (loaded : parameter.Loaded) :
    decode parameter.encode = .ok parameter.rebared := by
  have typed : (Decoder.writing.nullable.refine fun type => .ok (type.bind Writing.nonBlank?))
      (.ofWriting? parameter.typeName) = .ok parameter.typeName :=
    Decoder.refine_eq_ok.mpr
      ⟨_, Decoder.nullable_ofWriting? _, congrArg Except.ok loaded.trimmed⟩
  have called : InjectCall.decode.nullable
      ((parameter.injectCall.map InjectCall.encode).getD .null) = .ok parameter.injectCall :=
    Decoder.nullable_getD _ (fun _ => nofun) fun call _ => call.decode_encode
  exact record_gives "ParameterFacts"
    (((((((Fields.required_gives rfl (Decoder.text_str parameter.name)).map Parameter.mk).seq
      (Fields.withDefault_gives rfl typed)).seq
      (Fields.withDefault_gives rfl (Decoder.bool_bool parameter.typeResolved))).seq
      (Fields.withDefault_gives rfl
        (Decoder.list_map fun decorator _ => decorator.decode_encode))).seq
      (Fields.nullable_gives_found rfl called)).seq
      (Fields.nullable_gives_found rfl (Location.nullable_encode loaded.located)))
    (by simp)

theorem rebared_eq_iff {parameter : Parameter Writing} (loaded : parameter.Loaded) :
    parameter.rebared = parameter ↔
      ∀ decorator ∈ parameter.decorators, Decorator.Settled decorator.name := by
  have whole : parameter.rebared = parameter ↔
      parameter.decorators.map Decorator.rebared = parameter.decorators := by
    cases parameter
    simp [rebared]
  rw [whole, map_eq_self_iff]
  exact forall₂_congr fun decorator listed =>
    Decorator.rebared_eq_iff (loaded.decorated decorator listed)

end Parameter

namespace Class

/-- The class with the names of all decorators bared once more. -/
def rebared (facts : Class Writing) : Class Writing :=
  { facts with parameters := facts.parameters.map Parameter.rebared }

/-- Whether no decorator in a class has a name that starts with a blank. -/
def Settled (facts : Class Writing) : Prop :=
  ∀ parameter ∈ facts.parameters, ∀ decorator ∈ parameter.decorators,
    Decorator.Settled decorator.name

/-- What makes a class one that was loaded. -/
structure Loaded (facts : Class Writing) : Prop where
  parameters : ∀ parameter ∈ facts.parameters, parameter.Loaded
  located : ∀ location ∈ facts.location, Valid Location.decode location

theorem loaded_of_valid {facts : Class Writing} (valid : Valid decode facts) : facts.Loaded := by
  obtain ⟨_, location, upToParameters, located, rfl⟩ := Fields.valid_of_seq (valid_of_record valid)
  obtain ⟨_, parameters, upToFile, listed, rfl⟩ := Fields.valid_of_seq upToParameters
  obtain ⟨_, file, upToKind, _, rfl⟩ := Fields.valid_of_seq upToFile
  obtain ⟨_, kind, upToName, _, rfl⟩ := Fields.valid_of_seq upToKind
  obtain ⟨name, _, rfl⟩ := Fields.valid_of_map upToName
  refine ⟨?_, fun place present => Fields.valid_of_nullable located present⟩
  rcases Fields.valid_of_withDefault listed with rfl | listed
  · exact List.forall_mem_nil _
  · exact fun parameter there =>
      Parameter.loaded_of_valid (Decoder.valid_of_list listed parameter there)

theorem decode_encode {facts : Class Writing} (loaded : facts.Loaded) :
    decode facts.encode = .ok facts.rebared :=
  record_gives "ClassFacts"
    ((((((Fields.nullable_gives_found rfl (Decoder.nullable_ofWriting? facts.name)).map
      Class.mk).seq
      (Fields.withDefault_gives rfl facts.kind.decode_name)).seq
      (Fields.withDefault_gives rfl (Decoder.text_str facts.file))).seq
      (Fields.withDefault_gives rfl (Decoder.list_map fun parameter listed =>
        Parameter.decode_encode (loaded.parameters parameter listed)))).seq
      (Fields.nullable_gives_found rfl (Location.nullable_encode loaded.located)))
    (by simp)

theorem rebared_eq_iff {facts : Class Writing} (loaded : facts.Loaded) :
    facts.rebared = facts ↔ facts.Settled := by
  have whole : facts.rebared = facts ↔
      facts.parameters.map Parameter.rebared = facts.parameters := by
    cases facts
    simp [rebared]
  rw [whole, map_eq_self_iff]
  exact forall₂_congr fun parameter listed =>
    Parameter.rebared_eq_iff (loaded.parameters parameter listed)

end Class

theorem loaded_of_decodeDocument {value : Value} {classes : List (Class Writing)}
    (decoded : decodeDocument value = .ok classes) : ∀ facts ∈ classes, facts.Loaded := by
  have valid : Valid decodeDocument classes := ⟨value, decoded⟩
  rcases Fields.valid_of_withDefault (valid_of_record valid) with rfl | listed
  · exact List.forall_mem_nil _
  · exact fun facts there => Class.loaded_of_valid (Decoder.valid_of_list listed facts there)

/-- A value that is accepted is a document, or a list that could stand in one. -/
theorem document_of_ofValue {source : String} {value : Value} {classes : List (Class Writing)}
    (accepted : ofValue source value = .ok classes) :
    ∃ document, decodeDocument document = .ok classes := by
  unfold ofValue at accepted
  simp only at accepted
  split at accepted
  · rename_i decoded
    cases accepted
    split at decoded
    · exact ⟨_, Option.some.inj decoded⟩
    · exact ⟨_, Option.some.inj decoded⟩
    · exact ⟨_, Option.some.inj decoded⟩
    · nomatch decoded
  · nomatch accepted
  · nomatch accepted

/-- A list of records is read as the document that holds it. -/
theorem ofValue_arr (source : String) (records : List Value) :
    ofValue source (.arr records) = ofValue source (.obj [("classes", .arr records)]) := rfl

theorem ofValue_obj {source : String} {members : List (String × Value)} {classes : List (Class Writing)}
    (decoded : decodeDocument (.obj members) = .ok classes) :
    ofValue source (.obj members) = .ok classes := by
  simp only [ofValue, decoded]

theorem decodeDocument_encode {classes : List (Class Writing)} (loaded : ∀ facts ∈ classes, facts.Loaded) :
    decodeDocument (encodeDocument classes) = .ok (classes.map Class.rebared) :=
  record_gives "FactsDocument"
    (Fields.withDefault_gives rfl (Decoder.list_map fun facts listed =>
      Class.decode_encode (loaded facts listed)))
    (by simp)

/-- Facts that were loaded, written as a list or as a document, are accepted again. They come back
with the names of their decorators bared once more, so they come back as they are exactly if no such
name starts with a blank, and then the analysis of what comes back is the analysis of the facts. -/
theorem ofValue_encode (source again : String) (value : Value) (classes : List (Class Writing))
    (accepted : ofValue source value = .ok classes) :
    ofValue again (.arr (classes.map Class.encode)) = .ok (classes.map Class.rebared) ∧
    ofValue again (encodeDocument classes) = .ok (classes.map Class.rebared) ∧
    (classes.map Class.rebared = classes ↔ ∀ facts ∈ classes, facts.Settled) ∧
    ((∀ facts ∈ classes, facts.Settled) → ∀ digits store config,
      Pipeline.outcome digits store config ((classes.map Class.rebared).map .facts) =
        Pipeline.outcome digits store config (classes.map .facts)) := by
  obtain ⟨document, decoded⟩ := document_of_ofValue accepted
  have loaded := loaded_of_decodeDocument decoded
  have back : ofValue again (encodeDocument classes) = .ok (classes.map Class.rebared) :=
    ofValue_obj (decodeDocument_encode loaded)
  have same : classes.map Class.rebared = classes ↔ ∀ facts ∈ classes, facts.Settled :=
    map_eq_self_iff.trans
      (forall₂_congr fun facts listed => Class.rebared_eq_iff (loaded facts listed))
  exact ⟨(ofValue_arr ..).trans back, back, same, fun settled digits store config => by
    rw [same.mpr settled]⟩

/-- A class whose one parameter has a decorator, as it is written. -/
def written (decorator : String) : Value :=
  .arr [.obj [("name", .str "Users"), ("parameters", .arr [.obj [("name", .str "log"),
    ("type", .str " Log"), ("decorators", .arr [.obj [("name", .str decorator)]]),
    ("location", .obj [("line", .str "3")])]])]]

def kept (decorator : String) : List (Class Writing) :=
  [⟨some (.whole "Users"), .unknown, "", [⟨"log", some (.whole "Log"), true, [⟨decorator, none⟩], none,
    some ⟨3, none⟩⟩], none⟩]

theorem ofValue_encode_settled :
    ofValue inMemory (written " @@Optional ") = .ok (kept "Optional") ∧
    (∀ facts ∈ kept "Optional", facts.Settled) ∧
    ofValue inMemory (.arr ((kept "Optional").map Class.encode)) = .ok (kept "Optional") ∧
    ofValue inMemory (encodeDocument (kept "Optional")) = .ok (kept "Optional") ∧
    Pipeline.outcome none .empty .standard (((kept "Optional").map Class.rebared).map .facts) =
      Pipeline.outcome none .empty .standard ((kept "Optional").map .facts) := by
  have accepted : ofValue inMemory (written " @@Optional ") = .ok (kept "Optional") := rfl
  have settled : ∀ facts ∈ kept "Optional", facts.Settled :=
    List.forall_mem_singleton.mpr <| List.forall_mem_singleton.mpr <|
      List.forall_mem_singleton.mpr fun c first => by
        cases first
        rfl
  obtain ⟨list, document, same, alike⟩ := ofValue_encode inMemory inMemory _ _ accepted
  rw [same.mpr settled] at list document
  exact ⟨accepted, settled, list, document, alike settled none .empty .standard⟩

/-- The blank that is left behind an `@` sign hides a decorator, until the facts are loaded
again. -/
theorem reloading_uncovers_decorator :
    ofValue inMemory (written "@ Optional") = .ok (kept " Optional") ∧
    ofValue inMemory (.arr ((kept " Optional").map Class.encode)) = .ok (kept "Optional") ∧
    kept "Optional" ≠ kept " Optional" ∧
    (Pipeline.outcome none .empty ⟨.downstream, [], true⟩ ((kept " Optional").map .facts)).1 =
      .ok ⟨[⟨"Users", .unknown⟩], [⟨"Users", "Log", none, none⟩], []⟩ ∧
    (Pipeline.outcome none .empty ⟨.downstream, [], true⟩ ((kept "Optional").map .facts)).1 =
      .ok ⟨[⟨"Users", .unknown⟩],
        [⟨"Users", "Log", some ⟨some true, none, none, none⟩, none⟩], []⟩ := by
  refine ⟨rfl, rfl, by decide, ?_, ?_⟩
  all_goals
    rw [Pipeline.outcome_eq (by decide +kernel) (Ledger.tells_of_unlimited rfl _),
      Pipeline.build_value _ rfl, Graph.markCycles, Graph.circularity,
      Graph.Search.all_eq_moment _ 4 (by decide +kernel)]
    decide +kernel

end Facts

end Wiring
