import HedgedForecast.Decimal.Shortest
import HedgedForecast.Settings.Basic

/-! # Cache policies

How long a value is fresh, how long it may be served at all, how often and how long it is
recomputed. Times are in milliseconds; the point from which a fresh value is recomputed in the
background is a part of its fresh time, taken in double precision and rounded to nanoseconds.
-/

namespace HedgedForecast

/-- What a cache does with a key. -/
structure Policy where
  /-- How long a value is fresh. -/
  ttl : Nat
  /-- Whether a value may be served after that. -/
  failSafe : Bool
  /-- How long a value may be served at most. -/
  maxAge : Nat
  /-- The least time between two attempts to refresh a stale value. -/
  throttle : Nat
  /-- How long the holder of a stale value waits for a fresh one; zero means not at all. -/
  softTimeout : Nat
  /-- How long a computation may run; zero means no bound. -/
  hardTimeout : Nat
  /-- The part of the fresh time after which a value is recomputed in the background. -/
  eagerThreshold : Float
  deriving DecidableEq, Repr

/-- The nearest whole number to a quotient; of two, the even one. -/
def roundHalfEven (numerator denominator : Nat) : Nat :=
  let quotient := numerator / denominator
  let twice := 2 * (numerator % denominator)
  if denominator < twice || (twice == denominator && quotient % 2 == 1) then quotient + 1
  else quotient

/-- A time in seconds, given in milliseconds. -/
def secondsOf (milliseconds : Nat) : Float :=
  Float.ofNat (milliseconds / 1000) + Float.ofNat (milliseconds % 1000 * 1000000) / 1000000000.0

/-- The nanoseconds of a time in seconds, if it is a number and not negative. -/
def nanosecondsOf? (seconds : Float) : Option Nat :=
  match Decimal.read seconds with
  | .finite negative significand exponent _ =>
    if negative && significand != 0 then none
    else
      let numerator := significand * 1000000000 * Nat.pow 2 exponent.toNat
      some (roundHalfEven numerator (Nat.pow 2 (-exponent).toNat))
  | _ => none

/-- When a fresh value is recomputed in the background. -/
inductive EagerPoint where
  | never
  /-- Some nanoseconds after it was stored. -/
  | after (nanoseconds : Nat)
  /-- The policy names no point at all. -/
  | undefined
  deriving DecidableEq, Repr

namespace Policy

/-- The policy that settings describe. -/
def ofSettings (settings : CacheSettings) : Policy where
  ttl := settings.durationMinutes.toNat * 60000
  failSafe := settings.enableFailSafe
  maxAge := settings.failSafeMaxDurationMinutes.toNat * 60000
  throttle := settings.failSafeThrottleSeconds.toNat * 1000
  softTimeout := settings.factorySoftTimeout.toNat
  hardTimeout := settings.factoryHardTimeout.toNat
  eagerThreshold := settings.eagerRefreshThreshold

/-- The bound on a computation, if there is one. -/
def hardLimit (policy : Policy) : Option Nat :=
  if policy.hardTimeout == 0 then none else some policy.hardTimeout

/-- When a value is recomputed: never for a threshold of at most zero or at least one. -/
def eagerPoint (policy : Policy) : EagerPoint :=
  if policy.ttl == 0 || policy.eagerThreshold ≤ 0.0 || 1.0 ≤ policy.eagerThreshold then .never
  else
    match nanosecondsOf? (policy.eagerThreshold * secondsOf policy.ttl) with
    | some nanoseconds => .after nanoseconds
    | none => .undefined

/-- Whether a value could be served again once it is stored. -/
def storesEntries (policy : Policy) : Bool :=
  policy.ttl != 0 || (policy.failSafe && policy.maxAge != 0)

end Policy

end HedgedForecast
