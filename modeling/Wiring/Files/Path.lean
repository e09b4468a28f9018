import Wiring.Text.Join

/-! # Paths

A path is a list of names below a root. Repeated and trailing slashes and single dots in the
written form do not count; double dots do.
-/

namespace Wiring.Files

/-- A path. The root is empty for a path that starts at the working directory. -/
structure Path where
  root : String
  names : List String
deriving DecidableEq, Repr

namespace Path

/-- The pieces of a text between slashes; `piece` holds the piece under way in reverse. -/
def pieces (piece : List Char) : List Char → List String
  | [] => [String.ofList piece.reverse]
  | '/' :: rest => String.ofList piece.reverse :: pieces [] rest
  | c :: rest => pieces (c :: piece) rest

/-- The root that a written path starts with. Two slashes, but not more, are a root of their own. -/
def rootOf : List Char → String
  | '/' :: '/' :: '/' :: _ => "/"
  | '/' :: '/' :: _ => "//"
  | '/' :: _ => "/"
  | _ => ""

def ofString (written : String) : Path where
  root := rootOf written.toList
  names := (pieces [] written.toList).filter fun name => name ≠ "" ∧ name ≠ "."

/-- Write a path. The working directory is a single dot. -/
def text (path : Path) : String :=
  if path.root = "" ∧ path.names = [] then "." else path.root ++ Text.join "/" path.names

/-- The most bytes that a name may have. -/
def nameLimit : Nat := 255

/-- The most bytes that a written path may have. -/
def textLimit : Nat := 4095

/-- Whether a path is too long to be looked up at all. -/
def isTooLong (path : Path) : Bool := textLimit < path.text.utf8ByteSize

/-- Whether a path has a null character, which no name has. -/
def hasNull (path : Path) : Bool := path.names.any fun name => name.toList.contains '\x00'

/-- The path of the directory that holds the last name. -/
def parent (path : Path) : Path := { path with names := path.names.dropLast }

end Path

end Wiring.Files
