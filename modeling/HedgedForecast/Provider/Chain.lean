import HedgedForecast.Failure

/-! # Provider chains

The names of the providers of a forecast, the most wanted first. No name occurs twice.
-/

namespace HedgedForecast

/-- The first name that occurred before. -/
def repeatedName? : List String → List String → Option String
  | _, [] => none
  | seen, name :: rest =>
    if seen.contains name then some name else repeatedName? (name :: seen) rest

/-- A chain of differently named providers. -/
structure ProviderChain where
  names : List String
  distinct : repeatedName? [] names = none

namespace ProviderChain

/-- Builds a chain unless a name is repeated. -/
def make (names : List String) : Except Failure ProviderChain :=
  match h : repeatedName? [] names with
  | none => .ok ⟨names, h⟩
  | some name => .error (.invalidRequest s!"duplicate provider name: {name}")

/-- How many providers there are. -/
def size (chain : ProviderChain) : Nat :=
  chain.names.length

/-- The chain for a log. -/
def debugText (chain : ProviderChain) : String :=
  "ProviderChain \x7b providers: [" ++ ", ".intercalate (chain.names.map Text.quote) ++ "] \x7d"

end ProviderChain

end HedgedForecast
