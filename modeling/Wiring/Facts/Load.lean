import Wiring.Facts.Basic
import Wiring.Fault
import Wiring.Files.Disk
import Wiring.Json.Parser
import Wiring.Log.Event
import Wiring.Text.Utf8

/-! # Loading facts

Facts come as a JSON value: a list of class records, or a document that holds one. The value may
come out of a file. Most failures are faults that are told to the user; a directory in place of a
file, a way that may not be searched, a name that is too long, other failures of the system, bytes
that are no text, integers of too many digits and values that are nested too deep are not expected,
and are told by the name of their sort. How deep is too deep depends on where the tool runs.
-/

namespace Wiring.Facts

open Schema
open Json (Value Writing)
open Files (Path ReadFault)

/-- Why facts cannot be loaded. `source` is where they come from. -/
inductive LoadFault where
  | notFound (path : Path)
  | denied (path : Path)
  | unsearchable (path : Path)
  | isDirectory (path : Path)
  | nameTooLong (path : Path)
  | system (sort message : String)
  | notText (fault : Text.Utf8.Fault)
  | notJson (path : Path) (fault : Json.SyntaxFault)
  | tooManyDigits (count : Nat)
  | tooDeep (container : String)
  | notDocument (source : String)
  | invalid (source : String) (issues : List Issue)
  | notSource (sort : String)
deriving DecidableEq, Repr

namespace LoadFault

/-- How a failure to load is told. -/
def failure : LoadFault → Failure
  | notFound path =>
    .fault ⟨"Facts file not found at: " ++ path.text, .factsNotFound, some path.text, []⟩
  | denied path =>
    .fault ⟨"Permission denied reading facts file: " ++ path.text, .permissionDenied,
      some path.text, []⟩
  | unsearchable path => .unexpected "PermissionError" (Files.WriteFault.denied path).message
  | isDirectory path =>
    .unexpected "IsADirectoryError" (Files.WriteFault.isDirectory path).message
  | nameTooLong path => .unexpected "OSError" (Files.WriteFault.nameTooLong path).message
  | system sort message => .unexpected sort message
  | notText fault => .unexpected "UnicodeDecodeError" fault.message
  | notJson path fault =>
    .fault ⟨"Invalid JSON in facts file: " ++ fault.message, .factsInvalid, some path.text, []⟩
  | tooManyDigits count =>
    .unexpected "ValueError"
      (s!"Exceeds the limit ({Text.digitLimit} digits) for integer string conversion: " ++
        s!"value has {count} digits; use sys.set_int_max_str_digits() to increase the limit")
  | tooDeep container =>
    .unexpected "RecursionError"
      s!"maximum recursion depth exceeded while decoding a JSON {container} from a unicode string"
  | notDocument source =>
    .fault ⟨"Facts document must be a JSON object or array", .factsInvalid, some source, []⟩
  | invalid source issues =>
    let count := issues.length
    .fault ⟨s!"Invalid facts document: {count} validation error(s)", .factsInvalid, some source,
      [("errors", .ofStrings ((issues.take 5).map fun issue => issue.problem.message))]⟩
  | notSource sort =>
    .unexpected "TypeError" s!"expected str, bytes or os.PathLike object, not {sort}"

end LoadFault

/-- The name of a document that came from no file. -/
def inMemory : String := "<memory>"

/-- The classes of a document, or of a list of class records. -/
def ofValue (source : String) (value : Value) : Except LoadFault (List (Class Writing)) :=
  let decoded :=
    match value with
    | .arr records => some (decodeDocument (.obj [("classes", .arr records)]))
    | .obj _ | .tornObj _ => some (decodeDocument value)
    | _ => none
  match decoded with
  | some (.ok classes) => .ok classes
  | some (.error issues) => .error (.invalid source issues)
  | none => .error (.notDocument source)

/-- The limits of reading facts that may be nested to a depth. -/
def readingLimits (depth : Nat) : Json.Limits := ⟨some Text.digitLimit, some depth⟩

/-- The classes of a file with the given bytes. -/
def ofBytes (depth : Nat) (path : Path) (bytes : List UInt8) :
    Except LoadFault (List (Class Writing)) :=
  match Text.Utf8.decode bytes with
  | .error fault => .error (.notText fault)
  | .ok chars =>
    let text := String.ofList (Text.Utf8.unifyLineEnds chars)
    match Json.parseLimited (readingLimits depth) text with
    | .ok value => ofValue path.text value
    | .error fault =>
      match fault.complaint with
      | .tooManyDigits count => .error (.tooManyDigits count)
      | .tooDeep container => .error (.tooDeep container)
      | _ => .error (.notJson path fault)

/-- The classes of a file, given what reading it came to. -/
def ofRead (depth : Nat) (path : Path) :
    Except ReadFault (List UInt8) → Except LoadFault (List (Class Writing))
  | .ok bytes => ofBytes depth path bytes
  | .error .missing => .error (.notFound path)
  | .error .denied => .error (.denied path)
  | .error .unsearchable => .error (.unsearchable path)
  | .error .isDirectory => .error (.isDirectory path)
  | .error .nameTooLong => .error (.nameTooLong path)
  | .error (.system sort message) => .error (.system sort message)

def loadedEvent (source : String) (classes : List (Class Writing)) : Log.Event :=
  .of .info .fileProcessing "Loaded facts file"
    [("path", .str source), ("classes", .ofNat classes.length)]

end Wiring.Facts
