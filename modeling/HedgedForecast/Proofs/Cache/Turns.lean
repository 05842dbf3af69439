import HedgedForecast.Proofs.Cache.Begins
import HedgedForecast.Proofs.Cache.Landings

/-! # The turn of a waiting call

A waiting call has one turn, by which it is answered. Whether it can take it and what the answer is
depend on its deadline and on what its flight has told so far. No other event but the caller's going
away touches a call.
-/

namespace HedgedForecast

variable {V : Type}

/-- Guarded work goes on as long as its scope is not cancelled, its time is not over, and it has no
result. -/
theorem Deadline.verdict_eq_none_iff {α : Type} {clock : Clock} {deadline : Deadline} {work : Option α} :
    deadline.verdict clock work = none ↔
      deadline.isCancelled clock = false ∧ clock.now < deadline.instant ∧ work = none := by
  unfold verdict
  cases deadline.isCancelled clock with
  | true => simp
  | false =>
    by_cases past : deadline.instant ≤ clock.now
    · simp [isExpired, past, Nat.not_lt.mpr past]
    · simp [isExpired, past, Nat.lt_of_not_le past]

/-- The three ways of ending exclude each other. -/
theorem Deadline.verdict_cases {α : Type} {clock : Clock} {deadline : Deadline} {work : Option α}
    {ending : GuardEnd α} (verdict : deadline.verdict clock work = some ending) :
    deadline.isCancelled clock = true ∧ ending = .cancelled ∨
      deadline.isCancelled clock = false ∧ deadline.instant ≤ clock.now ∧ ending = .expired ∨
      deadline.isCancelled clock = false ∧ clock.now < deadline.instant ∧
        ∃ result, work = some result ∧ ending = .done result := by
  unfold Deadline.verdict at verdict
  split at verdict
  · next cancelled => exact .inl ⟨cancelled, (Option.some.inj verdict).symm⟩
  · next uncancelled =>
    have uncancelled : deadline.isCancelled clock = false := by simpa using uncancelled
    split at verdict
    · next past =>
      exact .inr (.inl ⟨uncancelled, of_decide_eq_true past, (Option.some.inj verdict).symm⟩)
    · next time =>
      obtain ⟨result, done, rfl⟩ := Option.map_eq_some_iff.mp verdict
      exact .inr (.inr ⟨uncancelled, by simpa [isExpired] using time, result, done, rfl⟩)

namespace Cache

/-- How the end of waiting looks to a caller without a value. -/
def coldAnswer : Except Failure V → Except Failure V
  | .ok value => .ok value
  | .error failure => .error (callerFailure failure)

/-- How the end of waiting looks to a caller with a value to fall back on, who may have cancelled. -/
def staleAnswer (cancelled : Bool) (fallback : V) : Except Failure V → Except Failure V
  | .ok value => .ok value
  | .error failure => if failure == .cancelled && cancelled then .error .cancelled else .ok fallback

/-- What a call would be answered if it took its turn now. -/
def answer? (cache : Cache V) (call : Call V) : Option (Except Failure V) :=
  match call.phase with
  | .cold flight =>
    (call.deadline.verdict cache.clock (cache.resultOf flight)).map fun verdict => coldAnswer (waitResult verdict)
  | .stale flight soft fallback =>
    (soft.verdict cache.clock (cache.resultOf flight)).map fun verdict =>
      staleAnswer (call.deadline.isCancelled cache.clock) fallback (waitResult verdict)
  | _ => none

theorem evictFailed_calls (cache : Cache V) (key : String) (slot : Nat) :
    (cache.evictFailed key slot).calls = cache.calls := by
  unfold evictFailed
  split <;> rfl

theorem endCold_calls (cache : Cache V) (number : Nat) (call : Call V) (flight : Nat) (result : Except Failure V) :
    (cache.endCold number call flight result).calls = cache.calls.modify number fun call =>
      { call with phase := .returned (coldAnswer result) cache.clock.now } := by
  rw [endCold_eq]
  cases result with
  | ok value => simp only [leave_calls]; rfl
  | error failure =>
    simp only
    split
    · simp only [leave_calls]; rfl
    · simp only [evictFailed_calls, leave_calls]; rfl

theorem endStale_calls (cache : Cache V) (number : Nat) (call : Call V) (flight : Nat) (fallback : V)
    (result : Except Failure V) :
    (cache.endStale number call flight fallback result).calls = cache.calls.modify number fun call' =>
      { call' with
        phase := .returned (staleAnswer (call.deadline.isCancelled cache.clock) fallback result) cache.clock.now } := by
  rw [endStale_eq]
  cases result with
  | ok value => simp only [leave_calls]; rfl
  | error failure =>
    simp only [staleAnswer]
    split
    · simp only [leave_calls]; rfl
    · simp only [leave_calls]; rfl

/-- A call can take its turn as soon as there is an answer. -/
theorem turnCall?_eq_none_iff {cache : Cache V} {number : Nat} {call : Call V}
    (present : cache.calls[number]? = some call) : cache.turnCall? number = none ↔ cache.answer? call = none := by
  unfold turnCall? answer?
  cases phase : call.phase <;> simp [present, phase]

/-- By its turn a call is given the answer that there is, and nothing else happens to calls. -/
theorem turnCall?_calls {cache next : Cache V} {number : Nat} (turn : cache.turnCall? number = some next) :
    ∃ call answer, cache.calls[number]? = some call ∧ cache.answer? call = some answer ∧
      next.calls = cache.calls.modify number fun call =>
        { call with phase := .returned answer cache.clock.now } := by
  obtain ⟨call, present, cold | stale⟩ := turnCall?_eq_some_iff.mp turn
  · obtain ⟨flight, verdict, phase, ended, rfl⟩ := cold
    exact ⟨call, _, present, by simp only [answer?, phase, ended, Option.map_some], endCold_calls ..⟩
  · obtain ⟨flight, soft, fallback, verdict, phase, ended, rfl⟩ := stale
    exact ⟨call, _, present, by simp only [answer?, phase, ended, Option.map_some], endStale_calls ..⟩

/-- A call that begins comes after all others. -/
theorem begin_calls (cache : Cache V) (key : String) (policy : Policy) (deadline : Deadline) :
    ∃ call, (cache.begin key policy deadline).2.calls = cache.calls.push call := by
  have calls := (touch_frame cache key).2.2.1
  rcases begin_cases cache key policy deadline with ⟨entry, _, _, same⟩ | ⟨entry, _, _, _, _, same⟩ | ⟨_, same⟩
  · obtain ⟨_, added⟩ := beginHit_call (cache.touch key).2 (cache.opening key policy deadline) entry
    exact ⟨_, by rw [same, added, calls]⟩
  · obtain ⟨_, _, added, _⟩ := beginStale_call (cache.touch key).2 (cache.opening key policy deadline) entry
    exact ⟨_, by rw [same, added, calls]⟩
  · obtain ⟨_, added⟩ := beginCold_call (cache.touch key).2 (cache.opening key policy deadline)
    exact ⟨_, by rw [same, added, calls]⟩

/-- A call is left alone by everything but its own turn and its caller's going away. -/
theorem step_calls {cache next : Cache V} {event : Event V} {number : Nat} {call : Call V}
    (step : cache.step? event = some next) (turn : event ≠ .call number) (drop : event ≠ .drop number)
    (present : cache.calls[number]? = some call) : next.calls[number]? = some call := by
  cases event with
  | begin key policy deadline =>
    cases step
    obtain ⟨added, calls⟩ := begin_calls cache key policy deadline
    rw [calls]
    exact getElem?_push_of_some added present
  | flight other work =>
    obtain ⟨flight, _, ⟨_, rfl⟩ | ⟨deadline, ending, _, _, rfl⟩⟩ := turnFlight?_eq_some_iff.mp step
    · exact present
    · rw [(endFlight_frame cache other flight ending).2.1]
      exact present
  | call other =>
    obtain ⟨_, _, _, _, calls⟩ := turnCall?_calls step
    rw [calls, getElem?_modify_of_ne _ _ (by rintro rfl; exact turn rfl), present]
  | drop other =>
    cases step
    rcases dropCall_eq cache other with ⟨same, _⟩ | ⟨_, flight, _, _, left⟩
    · rw [same, present]
    · rw [left, leave_calls]
      exact (getElem?_modify_of_ne _ _ (by rintro rfl; exact drop rfl)).trans present
  | purge => cases step; exact present
  | remove key => cases step; exact present
  | pass instant => cases step; exact present
  | scope parent => cases parent <;> cases step <;> exact present
  | cancel token => cases step; exact present

end Cache

end HedgedForecast
