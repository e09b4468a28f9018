import Std.Time
import Wiring.Cli.Run

/-! # The command line

The tool on the files of the system. Nothing is decided here: files are read and written, the
clock is asked once for the stamp of log lines, and the outcome of the run is put on the standard
streams.
-/

namespace Wiring.Cli

open Files (Path ReadFault WriteFault)

/-- The fault that a failure to read stands for. A file in place of a directory on the way leaves
nothing to be found. -/
def readFault? : IO.Error → Option ReadFault
  | .noFileOrDirectory .. => some .missing
  | .permissionDenied .. => some .denied
  | .inappropriateType _ 21 _ => some .isDirectory
  | .inappropriateType .. => some .missing
  | .invalidArgument .. => some .nameTooLong
  | failure => some (.system "OSError" (toString failure))

/-- The fault that a failure to write on a path stands for. -/
def writeFault? (path : Path) : IO.Error → Option WriteFault
  | .noFileOrDirectory .. => some (.noSuchDirectory path)
  | .alreadyExists .. => some (.fileExists path)
  | .permissionDenied .. => some (.denied path)
  | .inappropriateType _ 21 _ => some (.isDirectory path)
  | .inappropriateType _ 20 _ => some (.notDirectory path)
  | .invalidArgument .. => some (.nameTooLong path)
  | _ => none

/-- Run an action, and tell its failures as faults where they stand for one. -/
def attempt {α ε : Type} (fault? : IO.Error → Option ε) (action : IO α) : IO (Except ε α) := do
  match ← action.toBaseIO with
  | .ok value => return .ok value
  | .error failure =>
    match fault? failure with
    | some fault => return .error fault
    | none => throw failure

/-- Whether a path leads to a directory: only a directory has an entry for itself. -/
def isDirectory (path : Path) : IO Bool := do
  let opened ← (IO.FS.Handle.mk (path.text ++ "/.") .read).toBaseIO
  return opened.isOk

/-- Whether the way to a path may be searched: what is no directory is then known to have no
entries. -/
def isSearchable (path : Path) : IO Bool := do
  match ← (IO.FS.Handle.mk (path.text ++ "/.") .read).toBaseIO with
  | .error (.permissionDenied ..) => return false
  | _ => return true

def makeDirectory (path : Path) : IO (Except WriteFault Unit) := do
  let made ← attempt (writeFault? path) (IO.FS.createDir path.text)
  if made.isOk then return made
  if ← isDirectory path then return .ok ()
  return made

/-- Make a directory with all that lead to it; the names are given innermost first. -/
def makeDirectories (root : String) : List String → IO (Except WriteFault Unit)
  | [] => return .ok ()
  | name :: outer => do
    let path : Path := ⟨root, (name :: outer).reverse⟩
    match ← makeDirectory path with
    | .error (.noSuchDirectory _) =>
      match ← makeDirectories root outer with
      | .error fault => return .error fault
      | .ok () => makeDirectory path
    | made => return made

/-- The files of the system, with the given stamp for log lines. -/
def systemHost (stamp : String) : Host IO where
  read path := do
    if path.hasNull then return .error .missing
    match ← attempt readFault? do return (← IO.FS.readBinFile path.text).toList with
    | .error .denied => return .error (if ← isSearchable path then .denied else .unsearchable)
    | result => return result
  write path content := do
    if path.parent.hasNull then return .error .nullByte
    match ← makeDirectories path.root path.parent.names.reverse with
    | .error fault => return .error fault
    | .ok () =>
      if path.hasNull then return .error .nullByte
      attempt (writeFault? path) (IO.FS.writeFile path.text content)
  depth := 960
  interruption := none
  stamp := stamp
  trace := none

end Wiring.Cli

def main (arguments : List String) : IO UInt32 := do
  let now ← Std.Time.PlainDateTime.now
  let stamp := now.format "uuuu-MM-dd HH:mm:ss,SSS"
  let outcome ← Wiring.Cli.run (Wiring.Cli.systemHost stamp) arguments
  (← IO.getStdout).putStr outcome.stdout
  (← IO.getStderr).putStr outcome.stderr
  return outcome.exit.toUInt32
