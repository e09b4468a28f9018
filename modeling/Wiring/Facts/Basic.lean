import Wiring.Graph.Basic
import Wiring.Location
import Wiring.Text.Blank

/-! # Facts about classes

What a source analyzer found: one record for each decorated class, with one record for each
parameter of its constructor. The records say what was written, not what it means. A decorator's
name is kept without blanks and `@` signs before it, and a blank type is no type. Names of classes,
types and tokens are kept as they are read, so that a torn one is noticed where it is looked into;
with them mended, the records are of texts alone.
-/

namespace Wiring.Facts

open Schema
open Json (Value Writing)

/-- A decorator of a parameter, and the token given to it. -/
structure Decorator (τ : Type := String) where
  name : String
  token : Option τ
deriving DecidableEq, Repr

namespace Decorator

def map {τ σ : Type} (f : τ → σ) (decorator : Decorator τ) : Decorator σ where
  name := decorator.name
  token := decorator.token.map f

/-- A decorator's name as it is kept. -/
def bareName (written : String) : String :=
  String.ofList ((Text.trim written).toList.dropWhile (· == '@'))

def decode : Decoder (Decorator Writing) :=
  record "DecoratorFact" <|
    Decorator.mk <$> Fields.required ["name"] (Decoder.text.refine fun name => .ok (bareName name))
      <*> Fields.nullable ["token"] Decoder.writing

def encode (decorator : Decorator Writing) : Value :=
  .obj [("name", .str decorator.name), ("token", .ofWriting? decorator.token)]

end Decorator

/-- A call that injects a token with options. -/
structure InjectCall (τ : Type := String) where
  token : Option τ
  options : Option Flags
deriving DecidableEq, Repr

namespace InjectCall

def map {τ σ : Type} (f : τ → σ) (call : InjectCall τ) : InjectCall σ where
  token := call.token.map f
  options := call.options

def decode : Decoder (InjectCall Writing) :=
  record "InjectCall" <|
    InjectCall.mk <$> Fields.nullable ["token"] Decoder.writing
      <*> Fields.nullable ["options"] (Flags.decode "InjectOptions")

def encode (call : InjectCall Writing) : Value :=
  .obj [("token", .ofWriting? call.token),
    ("options", (call.options.map Flags.encode).getD .null)]

end InjectCall

/-- A constructor parameter. `typeResolved` is false when the import of its type is unknown. -/
structure Parameter (τ : Type := String) where
  name : String
  typeName : Option τ
  typeResolved : Bool
  decorators : List (Decorator τ)
  injectCall : Option (InjectCall τ)
  location : Option Location
deriving DecidableEq, Repr

namespace Parameter

def map {τ σ : Type} (f : τ → σ) (parameter : Parameter τ) : Parameter σ where
  name := parameter.name
  typeName := parameter.typeName.map f
  typeResolved := parameter.typeResolved
  decorators := parameter.decorators.map (·.map f)
  injectCall := parameter.injectCall.map (·.map f)
  location := parameter.location

def decode : Decoder (Parameter Writing) :=
  record "ParameterFacts" <|
    Parameter.mk <$> Fields.required ["name"] Decoder.text
      <*> Fields.withDefault ["type"] none
        (Decoder.writing.nullable.refine fun type => .ok (type.bind Writing.nonBlank?))
      <*> Fields.withDefault ["typeResolved", "type_resolved"] true Decoder.bool
      <*> Fields.withDefault ["decorators"] [] (Decoder.list Decorator.decode)
      <*> Fields.nullable ["injectCall", "inject_call"] InjectCall.decode
      <*> Fields.nullable ["location"] Location.decode

def encode (parameter : Parameter Writing) : Value :=
  .obj [("name", .str parameter.name), ("type", .ofWriting? parameter.typeName),
    ("typeResolved", .bool parameter.typeResolved),
    ("decorators", .arr (parameter.decorators.map Decorator.encode)),
    ("injectCall", (parameter.injectCall.map InjectCall.encode).getD .null),
    ("location", (parameter.location.map Location.encode).getD .null)]

end Parameter

/-- A decorated class. It is anonymous if it has no name or a blank one. -/
structure Class (τ : Type := String) where
  name : Option τ
  kind : NodeKind
  file : String
  parameters : List (Parameter τ)
  location : Option Location
deriving DecidableEq, Repr

namespace Class

def map {τ σ : Type} (f : τ → σ) (facts : Class τ) : Class σ where
  name := facts.name.map f
  kind := facts.kind
  file := facts.file
  parameters := facts.parameters.map (·.map f)
  location := facts.location

def decode : Decoder (Class Writing) :=
  record "ClassFacts" <|
    Class.mk <$> Fields.nullable ["name"] Decoder.writing
      <*> Fields.withDefault ["kind"] .unknown NodeKind.decode
      <*> Fields.withDefault ["filePath", "file_path"] "" Decoder.text
      <*> Fields.withDefault ["parameters"] [] (Decoder.list Parameter.decode)
      <*> Fields.nullable ["location"] Location.decode

def encode (facts : Class Writing) : Value :=
  .obj [("name", .ofWriting? facts.name), ("kind", .str facts.kind.name),
    ("filePath", .str facts.file), ("parameters", .arr (facts.parameters.map Parameter.encode)),
    ("location", (facts.location.map Location.encode).getD .null)]

end Class

/-- Read a document of facts: a record with the list of classes. -/
def decodeDocument : Decoder (List (Class Writing)) :=
  record "FactsDocument" <| Fields.withDefault ["classes"] [] (Decoder.list Class.decode)

def encodeDocument (classes : List (Class Writing)) : Value :=
  .obj [("classes", .arr (classes.map Class.encode))]

end Wiring.Facts
