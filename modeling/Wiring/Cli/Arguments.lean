import Wiring.Cli.Switch
import Wiring.Files.Path
import Wiring.Graph.Restrict
import Wiring.Text.DecimalDigit

/-! # Reading a command line

Every word is first told to be an argument, the divider `--`, a switch or an unknown switch. A
switch may be abbreviated, carry an argument after `=`, or be one of several short ones in a word.
Then the words act in order: each switch takes the arguments that follow it, and words that belong
to none are left over. A divider that a switch carries is no argument, so that the switch is then
given nothing. Asking for help or for the version ends the reading there.
-/

namespace Wiring.Cli

open Files (Path)

/-- A word of the command line. A switch may carry the rest of its word, after an equals sign or
directly. -/
inductive Word where
  | argument
  | divider
  | switch (switch : Switch) (short : Bool) (carried : Option (List Char))
  | unknown
deriving DecidableEq, Repr

/-- Whether a word looks like a negative number; a newline may follow it. -/
def isNegative (cs : List Char) : Bool :=
  match (if cs.getLast? = some '\n' then cs.dropLast else cs) with
  | '-' :: rest =>
    let isDigit := fun c => (Text.decimalDigit? c).isSome
    let whole := rest.takeWhile isDigit
    match rest.dropWhile isDigit with
    | [] => !whole.isEmpty
    | '.' :: fraction => !fraction.isEmpty && fraction.all isDigit
    | _ => false
  | _ => false

/-- The part of a word before its first equals sign, and the part after it, if there is one. -/
def splitEquals (cs : List Char) : List Char × Option (List Char) :=
  match cs.dropWhile (· != '=') with
  | [] => (cs, none)
  | _ :: rest => (cs.takeWhile (· != '='), some rest)

/-- The ways in which a word that is no name of a switch can stand for one: long names may be cut
short, and what follows a short name is carried by it. -/
def readings (cs : List Char) : List (String × Word) :=
  match cs with
  | '-' :: '-' :: _ =>
    let (written, carried) := splitEquals cs
    Switch.table.filterMap fun (name, switch) =>
      if written.isPrefixOf name.toList then
        some (name, .switch switch false carried)
      else none
  | '-' :: c :: rest =>
    Switch.table.filterMap fun (name, switch) =>
      if name.toList = ['-', c] then some (name, .switch switch true (some rest)) else none
  | _ => []

def isShort (cs : List Char) : Bool := (cs.drop 1).head? != some '-'

/-- What a word other than the divider is. -/
def classify (written : String) : Except UsageFault Word :=
  let cs := written.toList
  let (name, carried) := splitEquals cs
  if cs.head? ≠ some '-' then .ok .argument
  else
    match Switch.ofName? written, carried, Switch.ofName? (String.ofList name) with
    | some switch, _, _ => .ok (.switch switch (isShort cs) none)
    | none, some rest, some switch => .ok (.switch switch (isShort cs) (some rest))
    | _, _, _ =>
      if cs.length = 1 then .ok .argument
      else
        match readings cs with
        | [(_, word)] => .ok word
        | [] =>
          if isNegative cs || cs.contains ' ' then .ok .argument else .ok .unknown
        | several => .error (.ambiguous written (several.map (·.1)))

/-- What the words of a command line are. After the divider all are arguments. -/
def classifyAll : List String → Except UsageFault (List (String × Word))
  | [] => .ok []
  | written :: rest =>
    if written = "--" then .ok ((written, .divider) :: rest.map fun other => (other, .argument))
    else do
      let word ← classify written
      let others ← classifyAll rest
      return (written, word) :: others

/-- Which text the tool writes. -/
inductive Format where
  | json
  | mermaid
deriving DecidableEq, Repr

namespace Format

def word : Format → String
  | json => "json"
  | mermaid => "mermaid"

def ofWord (word : String) : Format := if word = "mermaid" then mermaid else json

end Format

/-- What a switch with one argument holds: a value, or nothing. -/
inductive Slot (α : Type) where
  | filled (value : α)
  | blank
deriving DecidableEq, Repr

/-- The slot that arguments fill: the first of them, read by `read`, or nothing. -/
def Slot.ofArguments {α : Type} (read : String → α) : List String → Slot α
  | [] => blank
  | argument :: _ => filled (read argument)

/-- What a command line has asked for so far, and the words left over. -/
structure Request where
  facts : Option (Slot Path)
  format : Slot Format
  entries : Option (List String)
  direction : Slot Direction
  includeDecorators : Bool
  out : Option (Slot Path)
  verbose : Bool
  leftover : List String
deriving DecidableEq, Repr

def Request.initial : Request where
  facts := none
  format := .filled .json
  entries := none
  direction := .filled .downstream
  includeDecorators := false
  out := none
  verbose := false
  leftover := []

/-- What a command line asks for. -/
structure Settings where
  facts : Slot Path
  format : Slot Format
  entries : List String
  direction : Slot Direction
  includeDecorators : Bool
  out : Option (Slot Path)
  verbose : Bool
deriving DecidableEq, Repr

/-- Why reading a command line ends before its work begins. -/
inductive Stop where
  | help
  | version
  | refused (fault : UsageFault)
deriving DecidableEq, Repr

/-- What a word with switches comes to: switches with their arguments, and perhaps a last one that
looks for its arguments in the words after. -/
structure Cluster where
  acts : List (Switch × List String)
  open? : Option Switch
deriving DecidableEq, Repr

/-- Take apart a word whose switch carries `carried`. A short switch without arguments may carry the
letters of others, and no other switch without arguments may carry anything. -/
def cluster (switch : Switch) (short : Bool) (carried : List Char) : Except UsageFault Cluster :=
  if switch.arity ≠ .none then .ok ⟨[(switch, [String.ofList carried])], none⟩
  else
    match carried with
    | [] => .error (.ignoredArgument switch "")
    | c :: rest =>
      match if short then Switch.ofName? (String.ofList ['-', c]) else none with
      | none => .error (.ignoredArgument switch (String.ofList (c :: rest)))
      | some next =>
        if rest.isEmpty then .ok ⟨[(switch, [])], some next⟩
        else do
          let others ← cluster next true rest
          return { others with acts := (switch, []) :: others.acts }

/-- The arguments that a switch takes from the words after it. -/
def takeArguments (switch : Switch) (words : List (String × Word)) :
    Except UsageFault (List String) :=
  let arguments := (words.takeWhile fun word => word.2 == .argument).map (·.1)
  match switch.arity, arguments with
  | .none, _ => .ok []
  | .one, argument :: _ => .ok [argument]
  | .one, [] => .error (.expectedOne switch)
  | .some, [] => .error (.expectedSome switch)
  | .some, arguments => .ok arguments

/-- Refuse arguments that a switch does not allow. -/
def checkChoices (switch : Switch) (arguments : List String) : Except UsageFault Unit :=
  match switch.choices? with
  | none => .ok ()
  | some choices =>
    match arguments.find? fun argument => !choices.contains argument with
    | some argument => .error (.invalidChoice switch choices argument)
    | none => .ok ()

/-- Let a switch act on what was asked for. A divider among its arguments does not count. -/
def act (request : Request) (switch : Switch) (given : List String) : Except Stop Request := do
  let arguments := given.erase "--"
  (checkChoices switch arguments).mapError Stop.refused
  match switch with
  | .help => .error .help
  | .version => .error .version
  | .facts => .ok { request with facts := some (.ofArguments .ofString arguments) }
  | .format => .ok { request with format := .ofArguments .ofWord arguments }
  | .entry => .ok { request with entries := some arguments }
  | .direction => .ok { request with direction := .ofArguments .ofWord arguments }
  | .includeDecorators => .ok { request with includeDecorators := true }
  | .out => .ok { request with out := some (.ofArguments .ofString arguments) }
  | .verbose => .ok { request with verbose := true }

def actAll (request : Request) : List (Switch × List String) → Except Stop Request
  | [] => .ok request
  | (switch, arguments) :: rest => do
    let request ← act request switch arguments
    actAll request rest

/-- Let the words act in order; the first `skipped` were taken as arguments already. -/
def proceed (request : Request) (skipped : Nat) : List (String × Word) → Except Stop Request
  | [] => .ok request
  | (written, word) :: rest =>
    match skipped with
    | skipped + 1 => proceed request skipped rest
    | 0 =>
      match word with
      | .argument | .divider | .unknown =>
        proceed { request with leftover := request.leftover ++ [written] } 0 rest
      | .switch switch short carried => do
        let parts ←
          match carried with
          | some text => (cluster switch short text).mapError Stop.refused
          | none => Except.ok ⟨[], some switch⟩
        let taken ←
          match parts.open? with
          | some last => (takeArguments last rest).mapError Stop.refused
          | none => Except.ok []
        let closing := parts.open?.toList.map fun last => (last, taken)
        let request ← actAll request (parts.acts ++ closing)
        proceed request taken.length rest

/-- The settings that a request comes to. Facts are required, and nothing may be left over. -/
def Request.settings (request : Request) : Except UsageFault Settings :=
  match request.facts with
  | none => .error .factsRequired
  | some facts =>
    if request.leftover.isEmpty then
      .ok
        { facts := facts
          format := request.format
          entries := request.entries.getD []
          direction := request.direction
          includeDecorators := request.includeDecorators
          out := request.out
          verbose := request.verbose }
    else .error (.unrecognized request.leftover)

def readArguments (written : List String) : Except Stop Settings := do
  let words ← (classifyAll written).mapError Stop.refused
  let request ← proceed .initial 0 words
  request.settings.mapError Stop.refused

end Wiring.Cli
