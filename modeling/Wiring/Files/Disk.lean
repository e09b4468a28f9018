import Wiring.Files.Path
import Wiring.Text.Quoted

/-! # A working directory with files

A disk holds files and directories, each at a place: a list of names from the working directory,
from a directory above it, or from the root. The working directory, those above it and the root are
always there. A path is walked name by name, through directories, with a double dot for one step up.
Names and paths have a greatest length.
-/

namespace Wiring.Files

/-- What a name stands for. -/
inductive Entry where
  | file (bytes : List UInt8)
  | directory
deriving DecidableEq, Repr

/-- A directory that is always there: so many steps above the working directory, or the root. -/
inductive Base where
  | above (steps : Nat)
  | root
deriving DecidableEq, Repr

def Base.working : Base := above 0

/-- One step up. Nothing is above the root. -/
def Base.up : Base → Base
  | above steps => above (steps + 1)
  | root => root

/-- A place on a disk: the names that lead to it from a directory that is always there. -/
structure Place where
  base : Base
  names : List String
deriving DecidableEq, Repr

namespace Place

def child (place : Place) (name : String) : Place := { place with names := place.names ++ [name] }

def up (place : Place) : Place :=
  if place.names.isEmpty then { place with base := place.base.up }
  else { place with names := place.names.dropLast }

end Place

structure Disk where
  entries : List (Place × Entry)
deriving DecidableEq, Repr

/-- Where a path leads: to an entry, to a name that a directory lacks, or nowhere: for want of a
directory on the way, because a file is in the way, or because a name on the way is too long. -/
inductive Walk where
  | directory (place : Place)
  | file (place : Place) (bytes : List UInt8)
  | absent (place : Place)
  | noParent
  | fileInTheWay
  | tooLong
deriving DecidableEq, Repr

/-- Why a file cannot be read. A way that may not be searched hides even whether it is there. The
system may fail in other ways, each with its sort and its wording. -/
inductive ReadFault where
  | missing
  | denied
  | unsearchable
  | isDirectory
  | nameTooLong
  | system (sort message : String)
deriving DecidableEq, Repr

/-- What the system grants to who wants to read a file. -/
inductive Access where
  | granted
  | unreadable
  | unsearchable
  | failing (sort message : String)
deriving DecidableEq, Repr

/-- Why a file cannot be written, and on which path. A null character is found before any path is
looked up. -/
inductive WriteFault where
  | noSuchDirectory (path : Path)
  | fileExists (path : Path)
  | notDirectory (path : Path)
  | isDirectory (path : Path)
  | denied (path : Path)
  | nameTooLong (path : Path)
  | nullByte
deriving DecidableEq, Repr

namespace WriteFault

/-- A system message: its number, its wording and the path. -/
def systemMessage (number : Nat) (wording : String) (path : Path) : String :=
  let shown := Text.quoted path.text
  s!"[Errno {number}] {wording}: {shown}"

def message : WriteFault → String
  | noSuchDirectory path => systemMessage 2 "No such file or directory" path
  | fileExists path => systemMessage 17 "File exists" path
  | notDirectory path => systemMessage 20 "Not a directory" path
  | isDirectory path => systemMessage 21 "Is a directory" path
  | denied path => systemMessage 13 "Permission denied" path
  | nameTooLong path => systemMessage 36 "File name too long" path
  | nullByte => "embedded null byte"

end WriteFault

namespace Disk

def empty : Disk := ⟨[]⟩

def lookup? (disk : Disk) (place : Place) : Option Entry :=
  (disk.entries.find? (·.1 == place)).map (·.2)

/-- Put an entry at a place, instead of what was there. -/
def put (disk : Disk) (place : Place) (entry : Entry) : Disk :=
  if (disk.lookup? place).isSome then
    ⟨disk.entries.map fun old => if old.1 = place then (place, entry) else old⟩
  else ⟨disk.entries ++ [(place, entry)]⟩

/-- Walk from a directory along names. -/
def walk (disk : Disk) (here : Place) : List String → Walk
  | [] => .directory here
  | name :: rest =>
    if name = ".." then walk disk here.up rest
    else if Path.nameLimit < name.utf8ByteSize then .tooLong
    else
      match disk.lookup? (here.child name) with
      | some .directory => walk disk (here.child name) rest
      | some (.file bytes) =>
        if rest.isEmpty then .file (here.child name) bytes else .fileInTheWay
      | none => if rest.isEmpty then .absent (here.child name) else .noParent

def locate (disk : Disk) (path : Path) : Walk :=
  if path.isTooLong then .tooLong
  else disk.walk ⟨if path.root = "" then .working else .root, []⟩ path.names

def read (disk : Disk) (path : Path) : Except ReadFault (List UInt8) :=
  if path.hasNull then .error .missing
  else
    match disk.locate path with
    | .file _ bytes => .ok bytes
    | .directory _ => .error .isDirectory
    | .tooLong => .error .nameTooLong
    | .absent _ | .noParent | .fileInTheWay => .error .missing

/-- The bytes of a file, as far as the system grants them. Whether something is there is looked up
before it is read, and only the way to it is needed for that. -/
def readAs (disk : Disk) (access : Access) (path : Path) : Except ReadFault (List UInt8) :=
  match access with
  | .granted => disk.read path
  | .unsearchable =>
    if path.hasNull then .error .missing
    else if path.isTooLong then .error .nameTooLong
    else .error .unsearchable
  | .unreadable =>
    match disk.read path with
    | .ok _ | .error .isDirectory => .error .denied
    | .error fault => .error fault
  | .failing sort message =>
    match disk.read path with
    | .ok _ | .error .isDirectory => .error (.system sort message)
    | .error fault => .error fault

/-- A change to a disk that may fail, and then keeps what was changed before. -/
abbrev Change (α : Type) := ExceptT WriteFault (StateM Disk) α

/-- Make sure that a directory is there, once the directory that holds it is. -/
def ensureLast (path : Path) : Change Unit := do
  match (← get).locate path with
  | .directory _ => return
  | .absent place => modify (·.put place .directory)
  | .file _ _ => throw (.fileExists path)
  | .fileInTheWay => throw (.notDirectory path)
  | .noParent => throw (.noSuchDirectory path)
  | .tooLong => throw (.nameTooLong path)

/-- Make sure that a directory is there, with all that lead to it; `inner` has its names, the
innermost first. -/
def ensure (root : String) : List String → Change Unit
  | [] => ensureLast ⟨root, []⟩
  | name :: outer => do
    let path : Path := ⟨root, (name :: outer).reverse⟩
    match (← get).locate path with
    | .noParent =>
      ensure root outer
      ensureLast path
    | _ => ensureLast path

/-- Put a file where a path ends. -/
def putFile (path : Path) (bytes : List UInt8) : Change Unit := do
  match (← get).locate path with
  | .file place _ | .absent place => modify (·.put place (.file bytes))
  | .directory _ => throw (.isDirectory path)
  | .fileInTheWay => throw (.notDirectory path)
  | .noParent => throw (.noSuchDirectory path)
  | .tooLong => throw (.nameTooLong path)

/-- Write a file, with the directories that lead to it. -/
def writeBytes (path : Path) (bytes : List UInt8) : Change Unit :=
  if path.parent.hasNull then throw .nullByte
  else do
    ensure path.root path.parent.names.reverse
    if path.hasNull then throw .nullByte else putFile path bytes

/-- Write a text to a file, with the directories that lead to it. -/
def write (path : Path) (content : String) : Change Unit := writeBytes path content.toUTF8.toList

/-- The files below the working directory, as names and bytes. -/
def files (disk : Disk) : List (List String × List UInt8) :=
  disk.entries.filterMap fun (place, entry) =>
    match entry with
    | .file bytes => if place.base = .working then some (place.names, bytes) else none
    | .directory => none

/-- The files below the working directory that are new or changed since an earlier state. -/
def changes (before after : Disk) : List (List String × List UInt8) :=
  after.files.filter fun (names, bytes) =>
    before.lookup? ⟨.working, names⟩ ≠ some (.file bytes)

end Disk

end Wiring.Files
