import HedgedForecast.Cache.Flights

/-! # Calls

A call on a key is served at once from a fresh entry. Without any servable entry it waits for the
key's flight, which it launches if there is none. With a stale entry it waits a little for a flight
and then takes the stale value; refreshes of stale values are throttled.
-/

namespace HedgedForecast.Cache

variable {V : Type}

/-- What waiting callers learn from a flight that was lost. -/
def lostFailure : Failure :=
  .providerFailed "cache" "factory task ended without a result"

/-- What a flight tells its callers, once it has ended. -/
def resultOf (cache : Cache V) (number : Nat) : Option (Except Failure V) :=
  match cache.flights[number]? with
  | some flight =>
    match flight.phase with
    | .landed result => some result
    | .lost => some (.error lostFailure)
    | _ => none
  | none => none

/-- How a failed computation looks to its caller: failures of a provider mean that the forecast is
unavailable, all others keep their kind. -/
def callerFailure : Failure → Failure
  | .providerFailed provider detail => .unavailable (.providerFailed provider detail)
  | failure => failure

/-- Whether a failure may be due to the caller alone. -/
def isCallerSide : Failure → Bool
  | .cancelled => true
  | .timeout .request => true
  | _ => false

/-- Adds a call; its number is its place. -/
def addCall (cache : Cache V) (call : Call V) : Nat × Cache V :=
  (cache.calls.size, { cache with calls := cache.calls.push call })

/-- Ends a call. -/
def returnCall (cache : Cache V) (number : Nat) (result : Except Failure V) : Cache V :=
  let now := cache.clock.now
  cache.modifyCall number fun call => { call with phase := .returned result now }

/-- Starts the background refresh of a fresh entry, unless a flight is there. -/
def refreshEagerly (cache : Cache V) (key : String) (slot : Nat) (policy : Policy) : Cache V :=
  let cache := cache.modifySlot slot fun slot =>
    { slot with entry := slot.entry.map fun entry => { entry with refreshing := true } }
  if (cache.liveFlight? slot).isSome then cache else (cache.launch key slot policy .eager 0).2

/-- Whether the refresh of a stale value has to wait. -/
def isThrottled (cache : Cache V) (slot : Nat) (policy : Policy) : Bool :=
  match cache.slots[slot]?.bind Slot.lastRefresh with
  | some instant => cache.clock.now - instant < policy.throttle
  | none => false

/-- The flight that the holder of a stale value waits for: the one that is there or, unless
throttled, a new one. -/
def staleFlight? (cache : Cache V) (key : String) (slot : Nat) (policy : Policy) :
    Option Nat × Cache V :=
  match cache.liveFlight? slot with
  | some flight => (some flight, cache.join flight)
  | none =>
    if cache.isThrottled slot policy then (none, cache)
    else
      let now := cache.clock.now
      let cache := cache.modifySlot slot fun slot => { slot with lastRefresh := some now }
      let (flight, cache) := cache.launch key slot policy .stale 1
      (some flight, cache)

/-- The flight that a caller without a value waits for: the one that is there, or a new one. -/
def coldFlight (cache : Cache V) (key : String) (slot : Nat) (policy : Policy) : Nat × Cache V :=
  match cache.liveFlight? slot with
  | some flight => (flight, cache.join flight)
  | none => cache.launch key slot policy .cold 1

/-- A call that finds a fresh entry. -/
def beginHit (cache : Cache V) (call : Call V) (entry : Entry V) : Nat × Cache V :=
  let cache := cache.count fun stats => { stats with hits := stats.hits + 1 }
  let cache :=
    if entry.eagerDue cache.clock.now && !entry.refreshing then
      cache.refreshEagerly call.key call.slot call.policy
    else cache
  cache.addCall { call with phase := .returned (.ok entry.value) cache.clock.now }

/-- A call that finds a stale entry. -/
def beginStale (cache : Cache V) (call : Call V) (entry : Entry V) : Nat × Cache V :=
  let cache := cache.count fun stats => { stats with staleHits := stats.staleHits + 1 }
  let served : Call V := { call with phase := .returned (.ok entry.value) cache.clock.now }
  match cache.staleFlight? call.key call.slot call.policy with
  | (none, cache) => cache.addCall served
  | (some flight, cache) =>
    if call.policy.softTimeout == 0 then ((cache.detach flight).leave flight).addCall served
    else
      let (soft, clock) := call.deadline.tighten cache.clock call.policy.softTimeout
      { cache with clock }.addCall { call with phase := .stale flight soft entry.value }

/-- A call that waits because there is nothing to serve. -/
def beginCold (cache : Cache V) (call : Call V) : Nat × Cache V :=
  let cache := cache.count fun stats => { stats with misses := stats.misses + 1 }
  let (flight, cache) := cache.coldFlight call.key call.slot call.policy
  cache.addCall { call with phase := .cold flight }

/-- A call that finds nothing to serve. Before it waits, it looks whether a fresh entry has come. -/
def beginMiss (cache : Cache V) (call : Call V) : Nat × Cache V :=
  match cache.entryOf call.slot with
  | some entry =>
    if cache.clock.now < entry.expiresAt then
      let cache := cache.count fun stats => { stats with misses := stats.misses + 1 }
      cache.addCall { call with phase := .returned (.ok entry.value) cache.clock.now }
    else cache.beginCold call
  | none => cache.beginCold call

/-- A call on a key under a policy and a deadline. -/
def begin (cache : Cache V) (key : String) (policy : Policy) (deadline : Deadline) :
    Nat × Cache V :=
  let (slot, cache) := cache.touch key
  let now := cache.clock.now
  let call : Call V := { key, slot, policy, deadline, begunAt := now, phase := .dropped }
  match cache.entryOf slot with
  | some entry =>
    if now < entry.expiresAt then cache.beginHit call entry
    else if policy.failSafe && now < entry.servableUntil then cache.beginStale call entry
    else cache.beginMiss call
  | none => cache.beginMiss call

/-- Nothing happens between its two looks, so that a call never finds at the second one what it did
not find at the first. -/
theorem begin_eq (cache : Cache V) (key : String) (policy : Policy) (deadline : Deadline) :
    cache.begin key policy deadline =
      let (slot, cache) := cache.touch key
      let now := cache.clock.now
      let call : Call V := { key, slot, policy, deadline, begunAt := now, phase := .dropped }
      match cache.entryOf slot with
      | some entry =>
        if now < entry.expiresAt then cache.beginHit call entry
        else if policy.failSafe && now < entry.servableUntil then cache.beginStale call entry
        else cache.beginCold call
      | none => cache.beginCold call := by
  unfold begin
  simp only
  split
  · next entry found =>
    split
    · rfl
    · next expired => simp only [beginMiss, found, expired, if_false]
  · next none => simp only [beginMiss, none]

/-- What guarded waiting gives: cancellation and lack of time are failures of the caller. -/
def waitResult : GuardEnd (Except Failure V) → Except Failure V
  | .cancelled => .error .cancelled
  | .expired => .error (.timeout .request)
  | .done result => result

/-- Ends a call that waited without a value. -/
def endCold (cache : Cache V) (number : Nat) (call : Call V) (flight : Nat)
    (result : Except Failure V) : Cache V :=
  let cache := cache.leave flight
  match result with
  | .ok value => cache.returnCall number (.ok value)
  | .error failure =>
    let cache := if isCallerSide failure then cache else cache.evictFailed call.key call.slot
    cache.returnCall number (.error (callerFailure failure))

/-- Ends a call that waited with a stale value to fall back on. -/
def endStale (cache : Cache V) (number : Nat) (call : Call V) (flight : Nat) (fallback : V)
    (result : Except Failure V) : Cache V :=
  match result with
  | .ok value => (cache.leave flight).returnCall number (.ok value)
  | .error failure =>
    if failure == .cancelled && call.deadline.isCancelled cache.clock then
      (cache.leave flight).returnCall number (.error .cancelled)
    else ((cache.detach flight).leave flight).returnCall number (.ok fallback)

/-- The next turn of a waiting call, if it can make one: it ends. -/
def turnCall? (cache : Cache V) (number : Nat) : Option (Cache V) :=
  match cache.calls[number]? with
  | some call =>
    match call.phase with
    | .cold flight =>
      (call.deadline.verdict cache.clock (cache.resultOf flight)).map fun verdict =>
        cache.endCold number call flight (waitResult verdict)
    | .stale flight soft fallback =>
      (soft.verdict cache.clock (cache.resultOf flight)).map fun verdict =>
        cache.endStale number call flight fallback (waitResult verdict)
    | _ => none
  | none => none

/-- The caller goes away without waiting for an answer. -/
def dropCall (cache : Cache V) (number : Nat) : Cache V :=
  match cache.calls[number]? with
  | some call =>
    match call.phase with
    | .cold flight =>
      (cache.leave flight).modifyCall number fun call => { call with phase := .dropped }
    | .stale flight _ _ =>
      (cache.leave flight).modifyCall number fun call => { call with phase := .dropped }
    | _ => cache
  | none => cache

/-- When a turn of a flight or call may become possible. -/
def timers (cache : Cache V) : List Nat :=
  (cache.flights.toList.filterMap fun flight =>
    match flight.phase with
    | .working deadline => some deadline.instant
    | _ => none) ++
  (cache.calls.toList.filterMap fun call =>
    match call.phase with
    | .cold _ => some call.deadline.instant
    | .stale _ soft _ => some soft.instant
    | _ => none)

/-- Whether a call waits. -/
def isWaiting (cache : Cache V) (number : Nat) : Bool :=
  match cache.calls[number]? with
  | some call =>
    match call.phase with
    | .cold _ => true
    | .stale _ _ _ => true
    | _ => false
  | none => false

end HedgedForecast.Cache
