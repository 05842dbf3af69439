import HedgedForecast.Cache.Calls
import HedgedForecast.Proofs.Arrays

/-! # Runs of a cache

A cache is driven by events: calls begin, flights and waiting calls take their turns, callers go
away or cancel, keys are dropped, time passes. What happens between two points of waiting is one
event, and events come in any order that a rule allows. The weakest rule here is that nobody outside
of the cache cancels the scope of a flight; stronger ones say what else a theorem relies on.
-/

namespace HedgedForecast.Cache

variable {V : Type}

/-- What may happen to a cache. -/
inductive Event (V : Type) where
  | begin (key : String) (policy : Policy) (deadline : Deadline)
  /-- A flight takes its turn; the computation's own end is given if it has come. -/
  | flight (number : Nat) (work : Option (WorkEnd V))
  | call (number : Nat)
  /-- A caller goes away. -/
  | drop (number : Nat)
  | purge
  | remove (key : String)
  /-- Time moves on. -/
  | pass (instant : Nat)
  /-- A scope is made outside of the cache, possibly within another one. -/
  | scope (parent : Option Token)
  /-- A scope is cancelled from outside of the cache. -/
  | cancel (token : Token)

/-- The cache after an event; a turn that cannot be made is no event. -/
def step? (cache : Cache V) : Event V → Option (Cache V)
  | .begin key policy deadline => some (cache.begin key policy deadline).2
  | .flight number work => cache.turnFlight? number work
  | .call number => cache.turnCall? number
  | .drop number => some (cache.dropCall number)
  | .purge => some cache.purge.2
  | .remove key => some (cache.remove key).2
  | .pass instant => some { cache with clock := cache.clock.moveTo instant }
  | .scope none => some { cache with clock := cache.clock.freshToken.2 }
  | .scope (some parent) => some { cache with clock := (cache.clock.childToken parent).2 }
  | .cancel token => some { cache with clock := cache.clock.cancel token }

/-- Which events may come in which state. -/
abbrev Rule (V : Type) := Cache V → Event V → Prop

/-- The token is of a scope that exists and is not that of a flight. -/
structure Outside (cache : Cache V) (token : Token) : Prop where
  issued : ∀ scope ∈ token.lineage, scope < cache.clock.scopes.issued
  noFlight : ∀ flight ∈ cache.flights, flight.token.lineage.head? ≠ token.lineage.head?

/-- The scope of a flight belongs to the cache: others cancel only other scopes. -/
def Lawful : Rule V
  | cache, .cancel token => cache.Outside token
  | _, _ => True

/-- A sequence of events that obey a rule leads from one cache to another. -/
inductive Run (rule : Rule V) (source : Cache V) : Cache V → Prop
  | nil : Run rule source source
  | snoc {middle target : Cache V} {event : Event V} (run : Run rule source middle)
      (allowed : rule middle event) (step : middle.step? event = some target) :
      Run rule source target

namespace Run

variable {rule weaker : Rule V} {source middle target : Cache V}

theorem single {event : Event V} (allowed : rule source event)
    (step : source.step? event = some target) : Run rule source target :=
  .snoc .nil allowed step

theorem append (left : Run rule source middle) (right : Run rule middle target) :
    Run rule source target := by
  induction right with
  | nil => exact left
  | snoc _ allowed step ih => exact .snoc ih allowed step

theorem weaken (weakening : ∀ cache event, rule cache event → weaker cache event)
    (run : Run rule source target) : Run weaker source target := by
  induction run with
  | nil => exact .nil
  | snoc _ allowed step ih => exact .snoc ih (weakening _ _ allowed) step

/-- Events that are allowed in every state make a run as far as they can happen one after the other. -/
theorem of_events {events : List (Event V)} (allowed : ∀ event ∈ events, ∀ cache, rule cache event)
    (steps : events.foldlM step? source = some target) : Run rule source target := by
  induction events generalizing source with
  | nil => cases steps; exact .nil
  | cons event events ih =>
    obtain ⟨middle, step, rest⟩ := Option.bind_eq_some_iff.mp steps
    have first : Run rule source middle := .single (allowed event (List.mem_cons_self ..) source) step
    exact first.append (ih (fun event member => allowed event (List.mem_cons_of_mem _ member)) rest)

/-- What holds at the start and is kept by every allowed event holds after the run. -/
theorem invariant {property : Cache V → Prop} (run : Run rule source target)
    (kept : ∀ cache event next, property cache → rule cache event →
      cache.step? event = some next → property next)
    (initial : property source) : property target := by
  induction run with
  | nil => exact initial
  | snoc _ allowed step ih => exact kept _ _ _ ih allowed step

end Run

/-- A run from a new cache leads to the cache. -/
def Reachable (rule : Rule V) (cache : Cache V) : Prop :=
  ∃ maxEntries, Run rule (empty maxEntries) cache

namespace Reachable

variable {rule weaker : Rule V} {cache next : Cache V}

theorem step {event : Event V} (reachable : Reachable rule cache) (allowed : rule cache event)
    (step : cache.step? event = some next) : Reachable rule next := by
  obtain ⟨maxEntries, run⟩ := reachable
  exact ⟨maxEntries, .snoc run allowed step⟩

theorem extend (reachable : Reachable rule cache) (run : Run rule cache next) :
    Reachable rule next := by
  obtain ⟨maxEntries, before⟩ := reachable
  exact ⟨maxEntries, before.append run⟩

theorem weaken (weakening : ∀ cache event, rule cache event → weaker cache event)
    (reachable : Reachable rule cache) : Reachable weaker cache := by
  obtain ⟨maxEntries, run⟩ := reachable
  exact ⟨maxEntries, run.weaken weakening⟩

/-- What holds of new caches and is kept by every allowed event holds of every reachable cache. -/
theorem invariant {property : Cache V → Prop} (reachable : Reachable rule cache)
    (kept : ∀ cache event next, property cache → rule cache event →
      cache.step? event = some next → property next)
    (initial : ∀ maxEntries, property (empty maxEntries)) : property cache := by
  obtain ⟨maxEntries, run⟩ := reachable
  exact run.invariant kept (initial maxEntries)

end Reachable

/-- A policy under which values are stale at once and may be served for a second. -/
def lenient : Policy where
  ttl := 0
  failSafe := true
  maxAge := 1000
  throttle := 0
  softTimeout := 100
  hardTimeout := 0
  eagerThreshold := 0.5

end HedgedForecast.Cache
