import Wiring.Text.Join
import Wiring.Text.Quoted

/-! # Command line switches -/

namespace Wiring.Cli

/-- The switches of the command line. -/
inductive Switch where
  | help
  | version
  | facts
  | format
  | entry
  | direction
  | includeDecorators
  | out
  | verbose
deriving DecidableEq, Repr

/-- How many arguments a switch takes. -/
inductive Arity where
  | none
  | one
  | some
deriving DecidableEq, Repr

namespace Switch

/-- All switches, in the order in which they are listed. -/
def all : List Switch :=
  [help, version, facts, format, entry, direction, includeDecorators, out, verbose]

/-- The names of a switch, a short one first. -/
def names : Switch → List String
  | help => ["-h", "--help"]
  | version => ["--version"]
  | facts => ["-p", "--facts"]
  | format => ["-f", "--format"]
  | entry => ["-e", "--entry"]
  | direction => ["-d", "--direction"]
  | includeDecorators => ["--include-decorators"]
  | out => ["--out"]
  | verbose => ["-v", "--verbose"]

def arity : Switch → Arity
  | facts | format | direction | out => .one
  | entry => .some
  | help | version | includeDecorators | verbose => .none

/-- The arguments that a switch allows, if not all. -/
def choices? : Switch → Option (List String)
  | format => Option.some ["json", "mermaid"]
  | direction => Option.some ["upstream", "downstream", "both"]
  | _ => Option.none

/-- A switch as messages name it. -/
def label (switch : Switch) : String := Text.join "/" switch.names

/-- Every name with its switch, in order. -/
def table : List (String × Switch) :=
  all.flatMap fun switch => switch.names.map fun name => (name, switch)

def ofName? (name : String) : Option Switch := (table.find? (·.1 == name)).map (·.2)

end Switch

/-- Why a command line is refused. -/
inductive UsageFault where
  | factsRequired
  | expectedOne (switch : Switch)
  | expectedSome (switch : Switch)
  | invalidChoice (switch : Switch) (choices : List String) (argument : String)
  | ignoredArgument (switch : Switch) (argument : String)
  | ambiguous (written : String) (names : List String)
  | unrecognized (words : List String)
deriving DecidableEq, Repr

namespace UsageFault

/-- A message about a switch. -/
def about (switch : Switch) (message : String) : String :=
  let label := switch.label
  s!"argument {label}: {message}"

def message : UsageFault → String
  | factsRequired => "the following arguments are required: " ++ Switch.facts.label
  | expectedOne switch => about switch "expected one argument"
  | expectedSome switch => about switch "expected at least one argument"
  | invalidChoice switch choices argument =>
    let shown := Text.quoted argument
    let listed := Text.join ", " (choices.map Text.quoted)
    about switch s!"invalid choice: {shown} (choose from {listed})"
  | ignoredArgument switch argument =>
    about switch ("ignored explicit argument " ++ Text.quoted argument)
  | ambiguous written names =>
    let listed := Text.join ", " names
    s!"ambiguous option: {written} could match {listed}"
  | unrecognized words => "unrecognized arguments: " ++ Text.join " " words

end UsageFault

def tool : String := "injectgraph"

def release : String := "1.0.0"

/-- How the tool is called. -/
def usage : String :=
  "usage: injectgraph [-h] [--version] -p FACTS [-f \x7bjson,mermaid\x7d]\n" ++
  "                   [-e SYMBOL [SYMBOL ...]] [-d \x7bupstream,downstream,both\x7d]\n" ++
  "                   [--include-decorators] [--out OUT] [-v]\n"

def help : String :=
  usage ++ "\n" ++
  "Dependency-injection graph from decorated constructor facts\n" ++
  "\n" ++
  "options:\n" ++
  "  -h, --help            show this help message and exit\n" ++
  "  --version             show program's version number and exit\n" ++
  "  -p FACTS, --facts FACTS\n" ++
  "                        Path to the facts JSON produced by the source analyzer\n" ++
  "  -f \x7bjson,mermaid\x7d, --format \x7bjson,mermaid\x7d\n" ++
  "                        Output format: json (default) or mermaid\n" ++
  "  -e SYMBOL [SYMBOL ...], --entry SYMBOL [SYMBOL ...]\n" ++
  "                        Starting nodes for a sub-graph\n" ++
  "  -d \x7bupstream,downstream,both\x7d, --direction \x7bupstream,downstream,both\x7d\n" ++
  "                        Filtering direction from the entry nodes (default:\n" ++
  "                        downstream)\n" ++
  "  --include-decorators  Include Optional/Self/SkipSelf/Host flags on edges\n" ++
  "  --out OUT             Output file (stdout if omitted)\n" ++
  "  -v, --verbose         Show detailed processing information on stderr\n"

end Wiring.Cli
