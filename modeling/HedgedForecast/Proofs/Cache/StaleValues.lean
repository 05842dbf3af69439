import HedgedForecast.Proofs.Cache.Counts
import HedgedForecast.Proofs.Cache.ReadOrder

/-! # Stale values

A stale hit is counted exactly when a call begins that finds a value which has expired and may still be served. As long
as all calls are made under one policy, that policy alone decides whether there are such values: none if it has no
fail-safe, and none if no value may be served for longer than it is fresh. Then what a call returns is fresh at that
instant, or it comes from a flight that has landed since the call began.
-/

namespace HedgedForecast

variable {V : Type}

/-- Nothing is served under the policy once it has expired. -/
def Policy.IsStrict (policy : Policy) : Prop :=
  policy.failSafe = false ∨ policy.maxAge ≤ policy.ttl

theorem Entry.servableUntil_of_isStrict {entry : Entry V} (strict : entry.policy.IsStrict) :
    entry.servableUntil = entry.expiresAt := by
  unfold servableUntil
  split
  · next failSafe =>
    have within := strict.resolve_left (ne_false_of_eq_true failSafe)
    rw [Nat.max_eq_right within, expiresAt]
  · rfl

namespace Cache

variable {cache next : Cache V} {key : String} {policy : Policy} {entry : Entry V}

/-- The key has a value that has expired and may still be served to calls under the policy. -/
def OffersStale (cache : Cache V) (key : String) (policy : Policy) : Prop :=
  ∃ entry, cache.entryFor key = some entry ∧ entry.expiresAt ≤ cache.clock.now ∧ policy.failSafe = true ∧
    cache.clock.now < entry.servableUntil

/-- What a call returns at the instant is fresh then, or it is what a flight has landed with since the call began. -/
inductive InTime (rule : Rule V) (cache : Cache V) (asked : Question) (value : V) (instant : Nat) : Prop
  | fresh {entry : Entry V} (found : Found rule cache asked entry) (same : entry.value = value)
      (inTime : instant < entry.expiresAt) : InTime rule cache asked value instant
  | flight {policy : Policy} {flight ended : Nat} (awaited : Awaited rule cache asked flight)
      (origin : Origin rule cache asked.key policy flight value ended) (notBefore : asked.begunAt ≤ ended)
      (notAfter : ended ≤ instant) : InTime rule cache asked value instant

/-- What there is to say of a call where nothing is served stale. -/
inductive StandsFresh (rule : Rule V) (cache : Cache V) (number : Nat) (call : Call V) : Prop
  | served {value : V} {instant : Nat} (phase : call.phase = .returned (.ok value) instant)
      (inTime : InTime rule cache (call.question number) value instant)
  | failed {failure : Failure} {instant : Nat} (phase : call.phase = .returned (.error failure) instant)
  | dropped (phase : call.phase = .dropped)
  | cold {flight : Nat} (phase : call.phase = .cold flight) (awaited : Awaited rule cache (call.question number) flight)

section

variable {rule : Rule V} {event : Event V} {number : Nat} {call : Call V} {value : V} {instant : Nat}

theorem InTime.snoc {asked : Question} (inTime : InTime rule cache asked value instant) (allowed : rule cache event)
    (step : cache.step? event = some next) (begun : asked.begunAt ≤ cache.clock.now) :
    InTime rule next asked value instant := by
  cases inTime with
  | fresh found same inTime => exact .fresh (found.snoc allowed step) same inTime
  | flight awaited origin notBefore notAfter =>
    exact .flight (awaited.snoc allowed step begun) (origin.snoc allowed step) notBefore notAfter

namespace StandsFresh

theorem later (stands : StandsFresh rule cache number call) (allowed : rule cache event)
    (step : cache.step? event = some next) (begun : call.begunAt ≤ cache.clock.now) :
    StandsFresh rule next number call := by
  cases stands with
  | served phase inTime => exact .served phase (inTime.snoc allowed step begun)
  | failed phase => exact .failed phase
  | dropped phase => exact .dropped phase
  | cold phase awaited => exact .cold phase (awaited.snoc allowed step begun)

/-- A call that is answered has waited for a flight, as it has nothing to fall back on. -/
theorem answered (stands : StandsFresh rule cache number call) (reachable : Reachable rule cache)
    {answer : Except Failure V} (answered : cache.answer? call = some answer) :
    StandsFresh rule cache number { call with phase := .returned answer cache.clock.now } := by
  cases answer with
  | error failure => exact .failed rfl
  | ok value =>
    cases stands with
    | served phase | failed phase | dropped phase => simp [answer?, phase] at answered
    | cold phase awaited =>
      obtain ⟨flight, waits, told⟩ | ⟨flight, soft, absurd⟩ := answer?_ok answered
      · simp only [Call.flight?, phase, Option.some.injEq] at waits
        subst waits
        obtain ⟨policy, ended, origin, notBefore, notAfter⟩ := awaited.origin reachable told
        exact .served rfl (.flight awaited origin notBefore notAfter)
      · rw [phase] at absurd
        contradiction

end StandsFresh

end

section

variable {number : Nat} {call : Call V} {value : V} {instant : Nat}

theorem Reachable.policy_of_entryFor (reachable : Reachable (Uniform policy) cache)
    (there : cache.entryFor key = some entry) : entry.policy = policy := by
  obtain ⟨slot, _, holds, _⟩ := reachable.placed.content_of_entryFor there
  obtain ⟨flight, present, _, own, _⟩ := reachable.storedBy holds
  exact own.symm.trans (reachable.policy_of_uniform present)

theorem Reachable.not_offersStale (reachable : Reachable (Uniform policy) cache) (strict : policy.IsStrict)
    (key : String) (other : Policy) : ¬OffersStale cache key other := by
  rintro ⟨entry, there, expired, _, servable⟩
  rw [← reachable.policy_of_entryFor there] at strict
  rw [Entry.servableUntil_of_isStrict strict] at servable
  exact Nat.not_lt.mpr expired servable

theorem StandsFresh.opened (reachable : Reachable (Uniform policy) cache) (strict : policy.IsStrict)
    {deadline : Deadline} {phase : CallPhase V}
    (opens : Opens cache (cache.begin key policy deadline).2 key policy deadline phase) :
    StandsFresh (Uniform policy) (cache.begin key policy deadline).2 cache.calls.size
      { cache.opening key policy deadline with phase } := by
  have allowed : Uniform policy cache (.begin key policy deadline) := rfl
  have noStale := reachable.not_offersStale strict key policy
  cases opens with
  | fresh there inTime => exact .served rfl (.fresh (Stands.found reachable deadline allowed there) rfl inTime)
  | stale there failSafe expired servable => exact absurd ⟨_, there, expired, failSafe, servable⟩ noStale
  | softly there failSafe expired servable => exact absurd ⟨_, there, expired, failSafe, servable⟩ noStale
  | cold awaits => exact .cold rfl (Stands.awaited reachable deadline awaits)

theorem Reachable.standsFresh (reachable : Reachable (Uniform policy) cache) (strict : policy.IsStrict)
    (present : cache.calls[number]? = some call) : StandsFresh (Uniform policy) cache number call := by
  obtain ⟨maxEntries, run⟩ := reachable
  induction run generalizing call with
  | nil => simp [empty] at present
  | @snoc middle target event run allowed step ih =>
    have reached : Reachable (Uniform policy) middle := ⟨maxEntries, run⟩
    cases step_cameFrom step present with
    | same there => exact (ih there).later allowed step (reached.begunAt_le there)
    | answered there answered same =>
      have begun := reached.begunAt_le there
      rw [same]
      exact ((ih there).answered reached answered).later allowed step begun
    | dropped _ same =>
      rw [same]
      exact .dropped rfl
    | begun last opens same =>
      cases step
      cases allowed
      rw [same, last]
      exact .opened reached strict opens

/-- Under a strict policy nothing is returned that has expired, unless it has just been computed. -/
theorem Reachable.inTime (reachable : Reachable (Uniform policy) cache) (strict : policy.IsStrict)
    (present : cache.calls[number]? = some call) (returned : call.phase = .returned (.ok value) instant) :
    InTime (Uniform policy) cache (call.question number) value instant := by
  cases reachable.standsFresh strict present with
  | served phase inTime =>
    rw [returned] at phase
    cases phase
    exact inTime
  | failed phase | dropped phase | cold phase =>
    rw [returned] at phase
    cases phase

end

section

variable {deadline : Deadline}

end

end Cache

end HedgedForecast
