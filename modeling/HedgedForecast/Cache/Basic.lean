import HedgedForecast.Cache.Policy
import HedgedForecast.Work

/-! # The cache

A cache maps keys to slots. A slot holds the last stored value and at most one flight: a computation
of the value that every caller of the key may wait for. Slots, flights and calls are numbered and
never forgotten, so that the state also tells its history; a key that was dropped and comes back
gets a new slot.
-/

namespace HedgedForecast

/-- A stored value. -/
structure Entry (V : Type) where
  value : V
  /-- When it was stored. -/
  storedAt : Nat
  /-- The policy under which it was stored. -/
  policy : Policy
  /-- The flight that computed it. -/
  flight : Nat
  /-- Whether a background refresh was started for it. -/
  refreshing : Bool := false
  deriving Repr

namespace Entry

variable {V : Type}

/-- When the value is no longer fresh. -/
def expiresAt (entry : Entry V) : Nat :=
  entry.storedAt + entry.policy.ttl

/-- When the value may no longer be served at all. -/
def servableUntil (entry : Entry V) : Nat :=
  if entry.policy.failSafe then entry.storedAt + max entry.policy.maxAge entry.policy.ttl
  else entry.expiresAt

/-- Whether the value is to be recomputed in the background. -/
def eagerDue (entry : Entry V) (now : Nat) : Bool :=
  match entry.policy.eagerPoint with
  | .after nanoseconds => entry.storedAt * 1000000 + nanoseconds ≤ now * 1000000
  | _ => false

end Entry

/-- Why a flight was started. -/
inductive Trigger where
  /-- There was no value to serve. -/
  | cold
  /-- The value was stale. -/
  | stale
  /-- The value was fresh, but past its eager point. -/
  | eager
  deriving DecidableEq, Repr

/-- Where a flight stands. -/
inductive FlightPhase (V : Type) where
  /-- It has not begun. -/
  | queued
  | working (deadline : Deadline)
  /-- It has a result. -/
  | landed (result : Except Failure V)
  /-- It ended without a result. -/
  | lost
  deriving Repr

/-- A computation that callers share. -/
structure Flight (V : Type) where
  key : String
  slot : Nat
  policy : Policy
  trigger : Trigger
  token : Token
  /-- How many callers wait for it. -/
  waiters : Nat
  /-- Whether it goes on when nobody waits for it. -/
  detached : Bool
  launchedAt : Nat
  phase : FlightPhase V := .queued
  startedAt : Option Nat := none
  endedAt : Option Nat := none
  outcome : Option WorkOutcome := none
  deriving Repr

/-- What the cache knows about a key. -/
structure Slot (V : Type) where
  key : String
  entry : Option (Entry V) := none
  flight : Option Nat := none
  /-- When a refresh of a stale value was last started. -/
  lastRefresh : Option Nat := none
  /-- The number of the last call on the key. -/
  lastAccess : Nat
  deriving Repr

/-- Where a call stands. -/
inductive CallPhase (V : Type) where
  /-- It waits for a flight. -/
  | cold (flight : Nat)
  /-- It waits for a flight and falls back on a stale value. -/
  | stale (flight : Nat) (soft : Deadline) (fallback : V)
  | returned (result : Except Failure V) (instant : Nat)
  | dropped
  deriving Repr

/-- A caller's question for the value of a key. -/
structure Call (V : Type) where
  key : String
  slot : Nat
  policy : Policy
  deadline : Deadline
  begunAt : Nat
  phase : CallPhase V
  deriving Repr

/-- What the cache counts. -/
structure CacheStats where
  hits : Nat := 0
  staleHits : Nat := 0
  misses : Nat := 0
  factoryCalls : Nat := 0
  refreshFailures : Nat := 0
  evictions : Nat := 0
  deriving DecidableEq, Repr

/-- A cache in time, with everything that ever happened in it. -/
structure Cache (V : Type) where
  clock : Clock := {}
  maxEntries : Nat
  /-- The slot of each key. -/
  keys : List (String × Nat) := []
  slots : Array (Slot V) := #[]
  flights : Array (Flight V) := #[]
  calls : Array (Call V) := #[]
  /-- How many calls were made. -/
  tick : Nat := 0
  stats : CacheStats := {}
  deriving Repr

namespace Cache

variable {V : Type}

/-- The bound on keys unless another is given. -/
def defaultMaxEntries : Nat := 10000

/-- A cache without keys; it holds at least one. -/
def empty (maxEntries : Nat) : Cache V :=
  { maxEntries := max maxEntries 1 }

/-- How many keys there are. -/
def size (cache : Cache V) : Nat :=
  cache.keys.length

/-- Whether a slot has no flight. -/
def isIdle (cache : Cache V) (slot : Nat) : Bool :=
  match cache.slots[slot]? with
  | some slot => slot.flight.isNone
  | none => true

/-- The entry of a slot. -/
def entryOf (cache : Cache V) (slot : Nat) : Option (Entry V) :=
  cache.slots[slot]?.bind Slot.entry

/-- The flight of a slot, unless it is cancelled. -/
def liveFlight? (cache : Cache V) (slot : Nat) : Option Nat := do
  let slot ← cache.slots[slot]?
  let number ← slot.flight
  let flight ← cache.flights[number]?
  if cache.clock.isCancelled flight.token then none else some number

/-- Changes a slot. -/
def modifySlot (cache : Cache V) (slot : Nat) (change : Slot V → Slot V) : Cache V :=
  { cache with slots := cache.slots.modify slot change }

/-- Changes a flight. -/
def modifyFlight (cache : Cache V) (flight : Nat) (change : Flight V → Flight V) : Cache V :=
  { cache with flights := cache.flights.modify flight change }

/-- Changes a call. -/
def modifyCall (cache : Cache V) (call : Nat) (change : Call V → Call V) : Cache V :=
  { cache with calls := cache.calls.modify call change }

/-- Changes the counts. -/
def count (cache : Cache V) (change : CacheStats → CacheStats) : Cache V :=
  { cache with stats := change cache.stats }

end Cache

end HedgedForecast
