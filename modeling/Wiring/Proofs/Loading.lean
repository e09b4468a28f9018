import Wiring.Cli.Run
import Wiring.Proofs.Json.Limits
import Wiring.Proofs.Reloading
import Wiring.Proofs.Utf8

/-! # How facts are loaded from a disk

What is on a disk decides how loading ends. Facts are loaded exactly from a file that may be read,
whose bytes are a text, whose text is a document, and whose records are all accepted, and then all
of them are loaded. A failure is told with a code and the path of the file, but for four that are
not foreseen: a directory, a name that is too long, bytes that are no text, and an integer with too
many digits.
-/

namespace Wiring

open Schema
open Json (Value Writing)
open Json.Complaint (isLimit)
open Files (Access Path ReadFault Disk)

namespace Schema.Decoder

/-- The items of a list are decoded one by one, and all of them. -/
theorem items_eq_ok_iff {α : Type} {decode : Decoder α} {position : Nat} {values : List Value}
    {parts : List α} :
    items decode position values = .ok parts ↔
      List.Forall₂ (fun value part => decode value = .ok part) values parts := by
  induction values generalizing position parts with
  | nil =>
    rw [List.forall₂_nil_left_iff]
    constructor
    · intro decoded
      cases decoded
      rfl
    · rintro rfl
      rfl
  | cons value values ih =>
    rw [List.forall₂_cons_left_iff]
    constructor
    · intro decoded
      obtain ⟨part, rest, first, others, rfl⟩ := Checked.both_eq_ok.mp decoded
      exact ⟨part, rest, Checked.within_eq_ok.mp first, ih.mp others, rfl⟩
    · rintro ⟨part, rest, first, others, rfl⟩
      exact Checked.both_eq_ok.mpr
        ⟨part, rest, Checked.within_eq_ok.mpr first, ih.mpr others, rfl⟩

private theorem list_eq_ok_iff {α : Type} {decode : Decoder α} {value : Value} {parts : List α} :
    list decode value = .ok parts ↔ ∃ values, value = .arr values ∧
      List.Forall₂ (fun value part => decode value = .ok part) values parts := by
  constructor
  · intro decoded
    unfold list at decoded
    split at decoded
    · exact ⟨_, rfl, items_eq_ok_iff.mp decoded⟩
    · nomatch decoded
  · rintro ⟨values, rfl, each⟩
    exact items_eq_ok_iff.mpr each

end Schema.Decoder

namespace Facts

section Documents

/-- The records of a value: of a list, or of an object that holds one and nothing else. -/
inductive Records : Value → List Value → Prop
  | list (records : List Value) : Records (.arr records) records
  | document {members : List (String × Value)} {records : List Value}
      (given : Json.lookup? members "classes" = some (.arr records))
      (only : ∀ member ∈ members, member.1 = "classes") : Records (.obj members) records
  | empty : Records (.obj []) []

/-- The classes that records are read as, one for each of them. -/
def ReadAs (records : List Value) (classes : List (Class Writing)) : Prop :=
  List.Forall₂ (fun record facts => Class.decode record = .ok facts) records classes

section Members

variable {members : List (String × Value)} {classes : List (Class Writing)}

private theorem decodeDocument_absent (absent : Json.lookup? members "classes" = none) :
    decodeDocument (.obj members) = .ok classes ↔ classes = [] ∧ members = [] := by
  rw [decodeDocument, record_obj, Checked.beside_eq_ok, unknownKeys, List.map_eq_nil_iff]
  simp only [Fields.withDefault, Fields.find?, List.findSome?_cons, List.findSome?_nil, absent,
    Option.map_none, Except.ok.injEq]
  rw [eq_comm]
  simp

private theorem decodeDocument_given {value : Value}
    (given : Json.lookup? members "classes" = some value) :
    decodeDocument (.obj members) = .ok classes ↔
      Decoder.list Class.decode value = .ok classes ∧
        ∀ member ∈ members, member.1 = "classes" := by
  rw [decodeDocument, record_obj, Checked.beside_eq_ok, unknownKeys, List.map_eq_nil_iff]
  simp [Fields.withDefault, Fields.find?, given, Checked.within_eq_ok]

/-- A document is accepted exactly if all its records are. -/
theorem decodeDocument_eq_ok_iff :
    decodeDocument (.obj members) = .ok classes ↔
      ∃ records, Records (.obj members) records ∧ ReadAs records classes := by
  cases found : Json.lookup? members "classes" with
  | none =>
    rw [decodeDocument_absent found]
    constructor
    · rintro ⟨rfl, rfl⟩
      exact ⟨[], .empty, .nil⟩
    · rintro ⟨records, holds, each⟩
      cases holds with
      | document given only =>
        rw [found] at given
        nomatch given
      | empty =>
        cases each
        exact ⟨rfl, rfl⟩
  | some value =>
    rw [decodeDocument_given found, Decoder.list_eq_ok_iff]
    constructor
    · rintro ⟨⟨records, rfl, each⟩, only⟩
      exact ⟨records, .document found only, each⟩
    · rintro ⟨records, holds, each⟩
      cases holds with
      | document given only =>
        rw [found] at given
        cases given
        exact ⟨⟨records, rfl, each⟩, only⟩
      | empty => nomatch found

end Members

private theorem ofValue_obj_iff {source : String} {members : List (String × Value)}
    {classes : List (Class Writing)} :
    ofValue source (.obj members) = .ok classes ↔ decodeDocument (.obj members) = .ok classes := by
  refine ⟨fun accepted => ?_, ofValue_obj⟩
  unfold ofValue at accepted
  dsimp only at accepted
  split at accepted
  · rename_i decoded
    cases accepted
    exact Option.some.inj decoded
  · nomatch accepted
  · nomatch accepted

/-- A value is accepted exactly if it has records, and all of them are accepted. -/
theorem ofValue_eq_ok_iff {source : String} {value : Value} {classes : List (Class Writing)} :
    ofValue source value = .ok classes ↔
      ∃ records, Records value records ∧ ReadAs records classes := by
  cases value with
  | obj members => rw [ofValue_obj_iff, decodeDocument_eq_ok_iff]
  | arr records =>
    rw [ofValue_arr, ofValue_obj_iff, decodeDocument_eq_ok_iff]
    constructor
    · rintro ⟨_, holds, each⟩
      cases holds with
      | document given only =>
        cases given
        exact ⟨records, .list records, each⟩
    · rintro ⟨_, holds, each⟩
      cases holds
      exact ⟨records, .document rfl (List.forall_mem_singleton.mpr rfl), each⟩
  | _ =>
    -- no other value has records
    constructor
    · intro accepted
      nomatch accepted
    · rintro ⟨_, holds, _⟩
      nomatch holds

/-- A failure that is told with a code and where the facts come from. -/
def Foreseen (code : FaultCode) (source : String) (fault : LoadFault) : Prop :=
  ∃ told, fault.failure = .fault told ∧ told.code = code ∧ told.file = some source

theorem not_foreseen {code : FaultCode} {source sort message : String} {fault : LoadFault}
    (told : fault.failure = .unexpected sort message) : ¬ Foreseen code source fault := by
  simp [Foreseen, told]

private theorem foreseen_of_ofValue {source : String} {value : Value} {fault : LoadFault}
    (refused : ofValue source value = .error fault) : Foreseen .factsInvalid source fault := by
  unfold ofValue at refused
  dsimp only at refused
  split at refused
  · nomatch refused
  · cases refused
    exact ⟨_, rfl, rfl, rfl⟩
  · cases refused
    exact ⟨_, rfl, rfl, rfl⟩

end Documents

section Contents

/-- The text that a file with these bytes holds. -/
def Holds (bytes : List UInt8) (text : String) : Prop :=
  ∃ written : String, written.toUTF8.toList = bytes ∧
    text = String.ofList (Text.Utf8.unifyLineEnds written.toList)

/-- Bytes from which facts are loaded: the text has the records that the classes are read from. -/
def Stores (depth : Nat) (bytes : List UInt8) (classes : List (Class Writing)) : Prop :=
  ∃ text value records, Holds bytes text ∧
    Json.parseLimited (readingLimits depth) text = .ok value ∧
    Records value records ∧ ReadAs records classes

/-- Bytes with which loading ends in a failure that is not foreseen: they are no text, or an integer
in the text has too many digits or a value is nested too deep, so that the limits change what the
text is read as. -/
inductive Unreadable (depth : Nat) (bytes : List UInt8) : Prop
  | notText (broken : ∀ written : String, written.toUTF8.toList ≠ bytes)
  | overLimit {text : String} (holds : Holds bytes text)
      (limited : Json.parseLimited (readingLimits depth) text ≠ Json.parse text)

/-- The text of bytes is what they are decoded into, if they are decoded. -/
theorem holds_iff {bytes : List UInt8} {text : String} :
    Holds bytes text ↔ ∃ chars, Text.Utf8.decode bytes = .ok chars ∧
      text = String.ofList (Text.Utf8.unifyLineEnds chars) := by
  constructor
  · rintro ⟨written, encoded, rfl⟩
    refine ⟨written.toList, ?_, rfl⟩
    rwa [Text.Utf8.decode_eq_ok_iff, String.ofList_toList]
  · rintro ⟨chars, decoded, rfl⟩
    refine ⟨String.ofList chars, Text.Utf8.decode_eq_ok_iff.mp decoded, ?_⟩
    rw [String.toList_ofList]

variable {depth : Nat} {path : Path} {bytes : List UInt8}

/-- The classes of a file are those of all its records. -/
theorem ofBytes_eq_ok_iff {classes : List (Class Writing)} :
    ofBytes depth path bytes = .ok classes ↔ Stores depth bytes classes := by
  constructor
  · intro accepted
    unfold ofBytes at accepted
    split at accepted
    · nomatch accepted
    · rename_i chars decoded
      dsimp only at accepted
      split at accepted
      · rename_i value parsed
        obtain ⟨records, has, each⟩ := ofValue_eq_ok_iff.mp accepted
        exact ⟨_, value, records, holds_iff.mpr ⟨chars, decoded, rfl⟩, parsed, has, each⟩
      · split at accepted <;> nomatch accepted
  · rintro ⟨text, value, records, holds, parsed, has, each⟩
    obtain ⟨chars, decoded, rfl⟩ := holds_iff.mp holds
    unfold ofBytes
    rw [decoded]
    dsimp only
    rw [parsed]
    exact ofValue_eq_ok_iff.mpr ⟨records, has, each⟩

/-- Bytes that are decoded are unreadable only if the limits change what they are read as. -/
theorem unreadable_iff {chars : List Char} (decoded : Text.Utf8.decode bytes = .ok chars) :
    Unreadable depth bytes ↔
      let text := String.ofList (Text.Utf8.unifyLineEnds chars)
      Json.parseLimited (readingLimits depth) text ≠ Json.parse text := by
  constructor
  · rintro (broken | ⟨holds, limited⟩)
    · exact absurd (Text.Utf8.decode_eq_ok_iff.mp decoded) (broken _)
    · obtain ⟨others, same, rfl⟩ := holds_iff.mp holds
      rw [decoded] at same
      cases same
      exact limited
  · exact .overLimit (holds_iff.mpr ⟨chars, decoded, rfl⟩)

private theorem Stores.readable {classes : List (Class Writing)}
    (stores : Stores depth bytes classes) :
    ¬ Unreadable depth bytes := by
  obtain ⟨text, value, _, holds, parsed, _⟩ := stores
  obtain ⟨chars, decoded, rfl⟩ := holds_iff.mp holds
  rw [unreadable_iff decoded]
  exact not_not_intro (Json.parseLimited_eq_parse parsed)

/-- The failures of a file that may be read are foreseen, unless it is unreadable. -/
theorem foreseen_of_ofBytes_iff {fault : LoadFault}
    (refused : ofBytes depth path bytes = .error fault) :
    Foreseen .factsInvalid path.text fault ↔ ¬ Unreadable depth bytes := by
  unfold ofBytes at refused
  split at refused
  · rename_i broken
    cases refused
    refine iff_of_false (not_foreseen rfl) (not_not_intro (.notText ?_))
    rintro written rfl
    have decoded : Text.Utf8.decode written.toUTF8.toList = .ok written.toList := by
      rw [Text.Utf8.decode_eq_ok_iff, String.ofList_toList]
    exact absurd (broken.symm.trans decoded) (by simp)
  · rename_i chars decoded
    rw [unreadable_iff decoded]
    dsimp only at refused ⊢
    split at refused
    · rename_i value parsed
      exact iff_of_true (foreseen_of_ofValue refused)
        (not_not_intro (Json.parseLimited_eq_parse parsed))
    · rename_i syntaxFault parsed
      rw [Json.parseLimited_ne_iff_isLimit parsed]
      -- of the limits there is no failure with a code
      split at refused <;> cases refused
      · rename_i count complains
        exact iff_of_false (not_foreseen rfl) (by simp [complains, isLimit])
      · rename_i container complains
        exact iff_of_false (not_foreseen rfl) (by simp [complains, isLimit])
      · rename_i digits depth
        refine iff_of_true ⟨_, rfl, rfl, rfl⟩ fun limit => ?_
        unfold isLimit at limit
        split at limit
        · exact digits _ ‹_›
        · exact depth _ ‹_›
        · exact absurd limit Bool.false_ne_true

end Contents

section Disks

/-- The code that a failure to load is told with: nothing is there, what is there may not be read,
or it holds no facts. -/
def loadCode (access : Access) (disk : Disk) (path : Path) : FaultCode :=
  match disk.read path with
  | .error .missing => .factsNotFound
  | _ => if access = .unreadable then .permissionDenied else .factsInvalid

/-- What is on a disk when loading ends in a failure that is not foreseen, given what the system
grants. Whether there is anything at the end of a way that may not be searched cannot be said. -/
@[mk_iff] inductive Unforeseen (depth : Nat) (access : Access) (disk : Disk) (path : Path) : Prop
  | closedWay (closed : access = .unsearchable) (spelled : path.hasNull = false)
  | directory (granted : access = .granted) (there : disk.read path = .error .isDirectory)
  | longName (there : disk.read path = .error .nameTooLong)
  | failing {sort message : String} (fails : access = .failing sort message)
      (there : disk.read path ≠ .error .missing)
  | unreadable {bytes : List UInt8} (granted : access = .granted)
      (there : disk.read path = .ok bytes) (unreadable : Unreadable depth bytes)

variable {depth : Nat} {access : Access} {disk : Disk} {path : Path}

/-- Who may read everything reads a file, or fails for one of three reasons. -/
theorem read_cases (disk : Disk) (path : Path) :
    (∃ bytes, disk.read path = .ok bytes) ∨ disk.read path = .error .missing ∨
      disk.read path = .error .isDirectory ∨ disk.read path = .error .nameTooLong := by
  unfold Disk.read
  split
  · exact .inr (.inl rfl)
  · split <;> simp

private theorem read_eq_missing_of_hasNull (null : path.hasNull = true) :
    disk.read path = .error .missing := if_pos null

/-- A failure is not foreseen exactly if reading fails in a way that is not, or gives bytes that are
unreadable. -/
theorem unforeseen_iff_readAs :
    Unforeseen depth access disk path ↔
      match disk.readAs access path with
      | .ok bytes => Unreadable depth bytes
      | .error .missing | .error .denied => False
      | .error _ => True := by
  rw [unforeseen_iff]
  cases access with
  | granted =>
    rcases read_cases disk path with ⟨bytes, there⟩ | there | there | there <;>
      simp [Disk.readAs, there]
  | unsearchable =>
    cases spelled : path.hasNull with
    | true => simp [Disk.readAs, spelled, read_eq_missing_of_hasNull spelled]
    | false => cases long : path.isTooLong <;> simp [Disk.readAs, spelled, long]
  | unreadable =>
    rcases read_cases disk path with ⟨bytes, there⟩ | there | there | there <;>
      simp [Disk.readAs, there]
  | failing sort message =>
    rcases read_cases disk path with ⟨bytes, there⟩ | there | there | there <;>
      simp [Disk.readAs, there]

/-- The code by what reading comes to. -/
theorem loadCode_eq :
    match disk.readAs access path with
    | .ok _ => loadCode access disk path = .factsInvalid
    | .error .missing => loadCode access disk path = .factsNotFound
    | .error .denied => loadCode access disk path = .permissionDenied
    | .error _ => True := by
  cases access with
  | unsearchable =>
    cases spelled : path.hasNull with
    | true => simp [Disk.readAs, spelled, loadCode, read_eq_missing_of_hasNull spelled]
    | false => cases long : path.isTooLong <;> simp [Disk.readAs, spelled, long]
  | _ =>
    rcases read_cases disk path with ⟨bytes, there⟩ | there | there | there <;>
      simp [Disk.readAs, loadCode, there]

private theorem readAs_eq_ok_iff {bytes : List UInt8} :
    disk.readAs access path = .ok bytes ↔ access = .granted ∧ disk.read path = .ok bytes := by
  cases access with
  | unsearchable =>
    cases spelled : path.hasNull <;> cases long : path.isTooLong <;>
      simp [Disk.readAs, spelled, long]
  | _ =>
    rcases read_cases disk path with ⟨bytes, there⟩ | there | there | there <;>
      simp [Disk.readAs, there]

theorem told_error_iff {fault : LoadFault} {told : LoadFault → Prop} :
    (∃ classes : List (Class Writing), Except.error fault = .ok classes) ∨
      (∃ other, (.error fault : Except LoadFault (List (Class Writing))) = .error other ∧
        told other) ↔ told fault := by
  simp

/-- Loading from a file that may be read ends as it should, unless the file is unreadable. -/
theorem told_ofBytes_iff {bytes : List UInt8} :
    (∃ classes, ofBytes depth path bytes = .ok classes) ∨
      (∃ fault, ofBytes depth path bytes = .error fault ∧
        Foreseen .factsInvalid path.text fault) ↔ ¬ Unreadable depth bytes := by
  cases loaded : ofBytes depth path bytes with
  | ok classes =>
    exact iff_of_true (.inl ⟨classes, rfl⟩) (ofBytes_eq_ok_iff.mp loaded).readable
  | error fault =>
    rw [told_error_iff]
    exact foreseen_of_ofBytes_iff loaded

/-- Classes are loaded exactly from a file that may be read and stores them. -/
theorem loaded_iff {classes : List (Class Writing)} :
    ofRead depth path (disk.readAs access path) = .ok classes ↔
      access = .granted ∧ ∃ bytes, disk.read path = .ok bytes ∧ Stores depth bytes classes := by
  have opened : ofRead depth path (disk.readAs access path) = .ok classes ↔
      ∃ bytes, disk.readAs access path = .ok bytes ∧ ofBytes depth path bytes = .ok classes := by
    cases disk.readAs access path with
    | ok bytes => simp [ofRead]
    | error fault => cases fault <;> simp [ofRead]
  simp only [opened, readAs_eq_ok_iff, ofBytes_eq_ok_iff, and_assoc, exists_and_left]

/-- Loading ends as it should, unless what is on the disk is not foreseen. -/
theorem told_iff :
    (∃ classes, ofRead depth path (disk.readAs access path) = .ok classes) ∨
      (∃ fault, ofRead depth path (disk.readAs access path) = .error fault ∧
        Foreseen (loadCode access disk path) path.text fault) ↔
      ¬ Unforeseen depth access disk path := by
  have code := @loadCode_eq access disk path
  rw [unforeseen_iff_readAs]
  cases there : disk.readAs access path with
  | ok bytes =>
    rw [there] at code
    rw [code]
    exact told_ofBytes_iff
  | error fault =>
    rw [there] at code
    cases fault with
    | missing | denied =>
      rw [code]
      exact told_error_iff.trans (iff_of_true ⟨_, rfl, rfl, rfl⟩ id)
    | _ =>
      exact told_error_iff.trans (iff_of_false (not_foreseen rfl) (not_not_intro trivial))

end Disks

/-- Loading a path gives the classes of all records exactly if there is a file that may be read and
stores them. If loading fails, the failure has its code and the path of the file, unless the way to
it may not be searched, there is a directory, a name is too long, the system fails, or the file has
bytes that are no text, an integer with too many digits or a value that is nested too deep. -/
theorem ofRead_foreseen (surroundings : Cli.Surroundings) (stamp : String)
    (trace : Option String) (disk : Disk) (path : Path) :
    let host := Cli.diskHost surroundings stamp trace
    let loaded := ofRead host.depth path ((host.read path).run disk).1
    (∀ classes, loaded = .ok classes ↔ surroundings.access = .granted ∧
      ∃ bytes, disk.read path = .ok bytes ∧ Stores surroundings.depth bytes classes) ∧
    ((∃ classes, loaded = .ok classes) ∨
      (∃ fault, loaded = .error fault ∧
        Foreseen (loadCode surroundings.access disk path) path.text fault) ↔
      ¬ Unforeseen surroundings.depth surroundings.access disk path) :=
  ⟨fun _ => loaded_iff, told_iff⟩

/-- A directory in place of the file, bytes that are no text, lists that are nested deeper than they
may be and a way that may not be searched are told by the name of their sort, with neither a code nor
the path as the file. -/
theorem loading_unforeseen :
    let path : Path := ⟨"", ["f.json"]⟩
    let loaded (access : Access) (entry : Files.Entry) :=
      ofRead 3 path (((Cli.diskHost ⟨access, 3, none⟩ "" none).read path).run
        ⟨[(⟨.working, ["f.json"]⟩, entry)]⟩).1
    (∃ fault message, loaded .granted .directory = .error fault ∧
      fault.failure = .unexpected "IsADirectoryError" message) ∧
    (∃ fault message, loaded .granted (.file [0xFF]) = .error fault ∧
      fault.failure = .unexpected "UnicodeDecodeError" message) ∧
    (∃ fault message, loaded .granted (.file (List.replicate 4 0x5B)) = .error fault ∧
      fault.failure = .unexpected "RecursionError" message) ∧
    ∃ fault message, loaded .unsearchable (.file []) = .error fault ∧
      fault.failure = .unexpected "PermissionError" message := by
  exact ⟨⟨_, _, rfl, rfl⟩, ⟨_, _, rfl, rfl⟩, ⟨_, _, rfl, rfl⟩, _, _, rfl, rfl⟩

end Facts

end Wiring
