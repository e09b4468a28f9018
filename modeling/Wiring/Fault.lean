import Wiring.Json.Printer
import Wiring.Text.Join
import Wiring.Text.Quoted

/-! # Faults of the tool

A fault of loading, of arguments or of writing is told to the user with its code, what it is about
and what could be done. Each code is fatal or not, and has an exit code.
-/

namespace Wiring

open Json (Value)

/-- The sort of a fault. -/
inductive FaultCode where
  | factsNotFound
  | factsInvalid
  | memoryLimitExceeded
  | internalError
  | invalidArguments
  | permissionDenied
  | outputWriteError
deriving DecidableEq, Repr

namespace FaultCode

def name : FaultCode → String
  | factsNotFound => "FACTS_NOT_FOUND"
  | factsInvalid => "FACTS_INVALID"
  | memoryLimitExceeded => "MEMORY_LIMIT_EXCEEDED"
  | internalError => "INTERNAL_ERROR"
  | invalidArguments => "INVALID_ARGUMENTS"
  | permissionDenied => "PERMISSION_DENIED"
  | outputWriteError => "OUTPUT_WRITE_ERROR"

def all : List FaultCode :=
  [factsNotFound, factsInvalid, memoryLimitExceeded, internalError, invalidArguments,
    permissionDenied, outputWriteError]

def ofName? (name : String) : Option FaultCode := all.find? (·.name == name)

/-- Whether a fault with the code ends the work. -/
def isFatal : FaultCode → Bool
  | outputWriteError => false
  | _ => true

def exitCode : FaultCode → Nat
  | factsNotFound => 3
  | factsInvalid => 4
  | memoryLimitExceeded => 6
  | permissionDenied => 8
  | invalidArguments => 2
  | internalError | outputWriteError => 1

/-- What could be done about a fault. -/
def guidance : FaultCode → List String
  | factsNotFound =>
    ["Check that the facts file path is correct",
      "Run the source analyzer first to produce the facts file",
      "Try using an absolute path instead of a relative one"]
  | factsInvalid =>
    ["Validate the JSON syntax of the facts file",
      "Compare the file against the schema emitted by scripts/generate_schemas.py",
      "Remove unknown keys; every record is validated strictly"]
  | memoryLimitExceeded =>
    ["Process a smaller portion of the codebase", "Use --entry filtering to limit scope"]
  | outputWriteError =>
    ["Check file permissions for the output location", "Try writing to a different location",
      "Omit --out to write to stdout instead"]
  | permissionDenied =>
    ["Check file and directory permissions",
      "Verify read access to the facts file and write access to the output location"]
  | invalidArguments =>
    ["Review --help for valid options", "Ensure all required arguments are provided"]
  | internalError =>
    ["Review the error message for specific details",
      "Try running with --verbose for more information"]

end FaultCode

/-- A fault as it is told to the user. -/
structure Fault where
  message : String
  code : FaultCode
  file : Option String
  context : List (String × Value)

namespace Fault

/-- The exit code of the tool after it, zero if there is none. -/
def exitCode (fault : Option Fault) : Nat := (fault.map (·.code.exitCode)).getD 0

/-- The report on a fault, with a trace if there is one. -/
def report (fault : Fault) (trace : Option String) : String :=
  let file := fault.file.getD ""
  let about := fault.context.map fun (key, value) => s!"  {key}: " ++ Json.canonical value
  Text.joinLines
    ([if fault.code.isFatal then "Fatal Error" else "Warning", "", "Message: " ++ fault.message] ++
      (if file = "" then [] else ["File: " ++ file]) ++
      ["Code: " ++ fault.code.name] ++
      (if about.isEmpty then [] else ["", "Context:"] ++ about) ++
      ["", "Suggestions:"] ++ (fault.code.guidance.map ("  - " ++ ·)) ++
      ((trace.map fun trace => ["", "Traceback:", trace]).getD []) ++
      ["", "Run with --help for usage information",
        "Use --verbose for detailed debugging information"])

end Fault

/-- A failure of the tool: a fault, or something unexpected with the name of its sort. -/
inductive Failure where
  | fault (fault : Fault)
  | unexpected (sort message : String)

/-- The fault by which a failure is told to the user. -/
def Failure.toFault : Failure → Fault
  | fault told => told
  | unexpected sort message => ⟨message, .internalError, none, [("originalError", .str sort)]⟩

end Wiring
