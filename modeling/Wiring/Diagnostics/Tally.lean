import Wiring.Graph.Flags

/-! # Resolver statistics

Counters of what resolving parameters came across. The tally of a batch is the sum of the tallies
of its parameters.
-/

namespace Wiring

open Json (Value)

/-- How many parameters have each flag true. -/
structure FlagCounts where
  optional : Nat
  self : Nat
  skipSelf : Nat
  host : Nat
deriving DecidableEq, Repr

namespace FlagCounts

def zero : FlagCounts := ⟨0, 0, 0, 0⟩

def add (a b : FlagCounts) : FlagCounts where
  optional := a.optional + b.optional
  self := a.self + b.self
  skipSelf := a.skipSelf + b.skipSelf
  host := a.host + b.host

/-- One for each flag that is true. -/
def ofFlags (flags : Flags) : FlagCounts where
  optional := if flags.optional = some true then 1 else 0
  self := if flags.self = some true then 1 else 0
  skipSelf := if flags.skipSelf = some true then 1 else 0
  host := if flags.host = some true then 1 else 0

def encode (counts : FlagCounts) : Value :=
  .obj [("optional", .ofNat counts.optional), ("self", .ofNat counts.self),
    ("skipSelf", .ofNat counts.skipSelf), ("host", .ofNat counts.host)]

end FlagCounts

/-- Statistics of resolved parameters: flags, the names of decorators that mean nothing here,
parameters with and without qualifiers, decorators that mean something, inject calls, and
parameters in all. -/
structure Tally where
  flags : FlagCounts
  ignored : List String
  qualified : Nat
  plain : Nat
  decorators : Nat
  injectCalls : Nat
  parameters : Nat
deriving DecidableEq, Repr

namespace Tally

def zero : Tally := ⟨.zero, [], 0, 0, 0, 0, 0⟩

/-- The sum of two tallies; ignored names are listed one after the other. -/
def add (a b : Tally) : Tally where
  flags := a.flags.add b.flags
  ignored := a.ignored ++ b.ignored
  qualified := a.qualified + b.qualified
  plain := a.plain + b.plain
  decorators := a.decorators + b.decorators
  injectCalls := a.injectCalls + b.injectCalls
  parameters := a.parameters + b.parameters

def encode (tally : Tally) : Value :=
  .obj [("decoratorCounts", tally.flags.encode),
    ("skippedDecorators", .arr (tally.ignored.map fun name =>
      .obj [("name", .str name), ("reason", .str "Not a recognized injection decorator")])),
    ("parametersWithDecorators", .ofNat tally.qualified),
    ("parametersWithoutDecorators", .ofNat tally.plain),
    ("legacyDecoratorsUsed", .ofNat tally.decorators),
    ("injectPatternsUsed", .ofNat tally.injectCalls),
    ("totalParameters", .ofNat tally.parameters)]

end Tally

end Wiring
