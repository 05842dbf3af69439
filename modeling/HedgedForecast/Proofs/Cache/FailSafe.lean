import HedgedForecast.Proofs.Cache.History
import HedgedForecast.Proofs.Cache.Pace

/-! # Stale values as a safety net

A call that finds a stale entry under a policy with fail-safe returns a value, that of the entry or
that of the flight it waits for, within its soft bound. What the flight does and what other callers do
makes no difference. Only a caller whose own deadline is cancelled while the call waits is told so.
-/

namespace HedgedForecast.Cache

variable {V : Type}

/-- Time is prompt, and the caller of one call stays. -/
def Staying (number : Nat) : Rule V :=
  fun cache event => Prompt cache event ∧ event ≠ .drop number

/-- The soft deadline of a wait is cancelled with the caller's own and, if it is still to come, not
after the bound. -/
structure Softens (soft deadline : Deadline) (now bound : Nat) : Prop where
  within : ∀ scope ∈ deadline.token.lineage, scope ∈ soft.token.lineage
  inTime : now < soft.instant → soft.instant ≤ bound

/-- Where a call may stand that has a value to fall back on and an instant by which it is to end;
`waited` is the flight that it waits for, if any. -/
inductive Covered (cache : Cache V) (call : Call V) (fallback : V) (waited : Option Nat) (bound : Nat) : Prop
  | waiting {flight : Nat} {soft : Deadline} (phase : call.phase = .stale flight soft fallback)
      (awaited : waited = some flight) (softens : Softens soft call.deadline cache.clock.now bound)
      (inTime : cache.clock.now ≤ bound)
  | stale {instant : Nat} (phase : call.phase = .returned (.ok fallback) instant) (inTime : instant ≤ bound)
  | refreshed {flight : Nat} {value : V} {instant : Nat} (phase : call.phase = .returned (.ok value) instant)
      (awaited : waited = some flight) (told : cache.resultOf flight = some (.ok value)) (inTime : instant ≤ bound)
  | cancelled {flight instant : Nat} (phase : call.phase = .returned (.error .cancelled) instant)
      (awaited : waited = some flight) (own : call.deadline.isCancelled cache.clock = true) (inTime : instant ≤ bound)

theorem Softens.tighten (deadline : Deadline) (clock : Clock) (limit : Nat) :
    Softens (deadline.tighten clock limit).1 deadline clock.now
      (clock.now + min limit (deadline.remaining clock)) := by
  constructor
  · exact fun scope member => List.mem_cons_of_mem _ member
  · simp only [Deadline.tighten, Clock.childToken, Deadline.remaining]
    omega

theorem Softens.isCancelled {soft deadline : Deadline} {now bound : Nat} (softens : Softens soft deadline now bound)
    {clock : Clock} (cancelled : deadline.isCancelled clock = true) : soft.isCancelled clock = true := by
  obtain ⟨scope, own, member⟩ := (Scopes.isCancelled_iff ..).mp cancelled
  exact (Scopes.isCancelled_iff ..).mpr ⟨scope, softens.within scope own, member⟩

theorem Softens.later {soft deadline : Deadline} {now later bound : Nat} (softens : Softens soft deadline now bound)
    (le : now ≤ later) : Softens soft deadline later bound :=
  ⟨softens.within, fun before => softens.inTime (Nat.lt_of_le_of_lt le before)⟩

/-- A waiting caller is told that the call was cancelled exactly when it was; otherwise there is a value. -/
theorem answer?_stale {cache : Cache V} {call : Call V} {flight now bound : Nat} {soft : Deadline} {fallback : V}
    {answer : Except Failure V} (phase : call.phase = .stale flight soft fallback)
    (softens : Softens soft call.deadline now bound) (answered : cache.answer? call = some answer) :
    call.deadline.isCancelled cache.clock = true ∧ answer = .error .cancelled ∨
      call.deadline.isCancelled cache.clock = false ∧
        (answer = .ok fallback ∨ ∃ value, cache.resultOf flight = some (.ok value) ∧ answer = .ok value) := by
  simp only [answer?, phase] at answered
  obtain ⟨ending, verdict, rfl⟩ := Option.map_eq_some_iff.mp answered
  cases own : call.deadline.isCancelled cache.clock with
  | true =>
    rcases Deadline.verdict_cases verdict with ⟨_, rfl⟩ | ⟨uncancelled, _⟩ | ⟨uncancelled, _⟩
    · exact .inl ⟨rfl, rfl⟩
    · rw [softens.isCancelled own] at uncancelled; contradiction
    · rw [softens.isCancelled own] at uncancelled; contradiction
  | false =>
    refine .inr ⟨rfl, ?_⟩
    have failed (failure : Failure) : staleAnswer false fallback (.error failure) = .ok fallback := by
      simp [staleAnswer]
    rcases Deadline.verdict_cases verdict with ⟨_, rfl⟩ | ⟨_, _, rfl⟩ | ⟨_, _, result, told, rfl⟩
    · exact .inl (failed _)
    · exact .inl (failed _)
    · cases result with
      | ok value => exact .inr ⟨value, told, rfl⟩
      | error failure => exact .inl (failed failure)

namespace Covered

variable {cache next : Cache V} {call : Call V} {fallback : V} {waited : Option Nat} {bound : Nat}

/-- In a settled state the soft deadline of a waiting call is still to come. -/
theorem soft_of_settled {number flight : Nat} {soft : Deadline} (settled : cache.Settled)
    (present : cache.calls[number]? = some call) (phase : call.phase = .stale flight soft fallback) :
    cache.clock.now < soft.instant := by
  refine settled.now_lt (mem_timers.mpr (.inr ⟨number, call, present, .inr ⟨flight, soft, fallback, phase, rfl⟩⟩))

/-- The call stays covered when something else happens. -/
theorem other {event : Event V} {number : Nat} (covered : cache.Covered call fallback waited bound)
    (present : cache.calls[number]? = some call) (prompt : Prompt cache event)
    (step : cache.step? event = some next) : next.Covered call fallback waited bound := by
  have extended := Extends.step step
  cases covered with
  | @waiting flight soft phase awaited softens inTime =>
    refine .waiting phase awaited (softens.later extended.now) ?_
    by_cases passing : ∃ instant, event = .pass instant
    · obtain ⟨instant, rfl⟩ := passing
      cases step
      obtain ⟨settled, timely⟩ := prompt
      have member : soft.instant ∈ cache.timers :=
        mem_timers.mpr (.inr ⟨number, call, present, .inr ⟨flight, soft, fallback, phase, rfl⟩⟩)
      have soon := softens.inTime (settled.now_lt member)
      exact Nat.max_le.mpr ⟨inTime, Nat.le_trans (timely _ member) soon⟩
    · rw [step_now step fun instant same => passing ⟨instant, same⟩]
      exact inTime
  | stale phase inTime => exact .stale phase inTime
  | refreshed phase awaited told inTime => exact .refreshed phase awaited (extended.resultOf told) inTime
  | cancelled phase awaited own inTime => exact .cancelled phase awaited (extended.cancelled _ own) inTime

/-- The call stays covered by its own turn. -/
theorem turn {number : Nat} (covered : cache.Covered call fallback waited bound)
    (present : cache.calls[number]? = some call) (turn : cache.turnCall? number = some next) :
    ∃ later, next.calls[number]? = some later ∧ later.deadline = call.deadline ∧
      next.Covered later fallback waited bound := by
  obtain ⟨found, answer, there, answered, calls⟩ := turnCall?_calls turn
  obtain rfl := Option.some.inj (present.symm.trans there)
  have extended : Extends next cache := Extends.moves (turnCall?_moves turn)
  refine ⟨{ call with phase := .returned answer cache.clock.now }, ?_, rfl, ?_⟩
  · rw [calls]
    exact getElem?_modify_self _ present
  cases covered with
  | waiting phase awaited softens inTime =>
    rcases answer?_stale phase softens answered with ⟨own, rfl⟩ | ⟨_, rfl | ⟨value, told, rfl⟩⟩
    · exact .cancelled rfl awaited (extended.cancelled _ own) inTime
    · exact .stale rfl inTime
    · exact .refreshed rfl awaited (extended.resultOf told) inTime
  | stale phase => simp [answer?, phase] at answered
  | refreshed phase => simp [answer?, phase] at answered
  | cancelled phase => simp [answer?, phase] at answered

theorem run {number : Nat} {later : Cache V} (covered : cache.Covered call fallback waited bound)
    (present : cache.calls[number]? = some call) (run : Run (Staying number) cache later) :
    ∃ call', later.calls[number]? = some call' ∧ call'.deadline = call.deadline ∧
      later.Covered call' fallback waited bound := by
  induction run with
  | nil => exact ⟨call, present, rfl, covered⟩
  | @snoc middle target event run allowed step ih =>
    obtain ⟨call', present', same, covered'⟩ := ih
    by_cases own : event = .call number
    · subst own
      obtain ⟨call'', present'', same', covered''⟩ := covered'.turn present' step
      exact ⟨call'', present'', same'.trans same, covered''⟩
    · exact ⟨call', step_calls step own allowed.2 present', same, covered'.other present' allowed.1 step⟩

end Covered

/-- What a call may count on at a later time that found a stale value to fall back on. -/
structure SafelyServed (later : Cache V) (number : Nat) (deadline : Deadline) (fallback : V)
    (waited : Option Nat) (bound : Nat) : Prop where
  /-- It still waits and the bound is not passed, or it ended by then with a value or cancelled. -/
  covered : ∃ call, later.calls[number]? = some call ∧ call.deadline = deadline ∧
    later.Covered call fallback waited bound
  /-- It ends by its turn, and as cancelled exactly if its own deadline is cancelled at that time. -/
  answers : ∀ next, later.turnCall? number = some next → ∃ call answer, next.calls[number]? = some call ∧
    call.phase = .returned answer later.clock.now ∧
    (answer = .error .cancelled ↔ deadline.isCancelled later.clock = true)
  heeds : later.isWaiting number = true → deadline.isCancelled later.clock = true →
    later.turnCall? number ≠ none
  inTime : later.Settled → bound ≤ later.clock.now → later.isWaiting number = false
  ends : ∃ last, Run (Staying number) later last ∧ last.isWaiting number = false

theorem SafelyServed.of_covered {later : Cache V} {number bound : Nat} {call : Call V} {deadline : Deadline}
    {fallback : V} {waited : Option Nat} (present : later.calls[number]? = some call)
    (own : call.deadline = deadline) (covered : later.Covered call fallback waited bound) :
    later.SafelyServed number deadline fallback waited bound := by
  subst own
  have waits (flight : Nat) (waits : call.flight? = some flight) : ∃ flight soft,
      call.phase = .stale flight soft fallback ∧ Softens soft call.deadline later.clock.now bound := by
    cases covered with
    | waiting phase _ softens _ => exact ⟨_, _, phase, softens⟩
    | stale phase => simp [Call.flight?, phase] at waits
    | refreshed phase => simp [Call.flight?, phase] at waits
    | cancelled phase => simp [Call.flight?, phase] at waits
  constructor
  · exact ⟨call, present, rfl, covered⟩
  · intro next turn
    obtain ⟨found, answer, there, answered, calls⟩ := turnCall?_calls turn
    obtain rfl := Option.some.inj (present.symm.trans there)
    refine ⟨{ call with phase := .returned answer later.clock.now }, answer, ?_, rfl, ?_⟩
    · rw [calls]
      exact getElem?_modify_self _ present
    · cases covered with
      | waiting phase _ softens _ =>
        rcases answer?_stale phase softens answered with ⟨own, rfl⟩ | ⟨own, rfl | ⟨value, _, rfl⟩⟩
        · simp [own]
        · simp [own]
        · simp [own]
      | stale phase => simp [answer?, phase] at answered
      | refreshed phase => simp [answer?, phase] at answered
      | cancelled phase => simp [answer?, phase] at answered
  · intro waiting own
    obtain ⟨found, flight, there, awaits⟩ := isWaiting_iff.mp waiting
    obtain rfl := Option.some.inj (present.symm.trans there)
    obtain ⟨flight, soft, phase, softens⟩ := waits flight awaits
    rw [Ne, turnCall?_eq_none_iff present]
    simp only [answer?, phase, Option.map_eq_none_iff, Deadline.verdict_eq_none_iff, softens.isCancelled own,
      Bool.true_eq_false, false_and, not_false_eq_true]
  · intro settled past
    by_contra waiting
    obtain ⟨found, flight, there, awaits⟩ := isWaiting_iff.mp (by simpa using waiting)
    obtain rfl := Option.some.inj (present.symm.trans there)
    obtain ⟨flight, soft, phase, softens⟩ := waits flight awaits
    have soon := Covered.soft_of_settled settled present phase
    exact absurd (softens.inTime soon) (Nat.not_le.mpr (Nat.lt_of_le_of_lt past soon))
  · exact exists_ended (fun _ _ => ⟨trivial, by simp⟩) (fun _ _ => ⟨trivial, by simp⟩)
      (fun _ _ settled timely => ⟨⟨settled, timely⟩, by simp⟩) later number

/-- A call that finds a stale value is covered from the start. -/
theorem covered_begin {cache : Cache V} {key : String} {policy : Policy} {entry : Entry V}
    (found : cache.entryFor key = some entry) (failSafe : policy.failSafe = true)
    (expired : entry.expiresAt ≤ cache.clock.now) (servable : cache.clock.now < entry.servableUntil)
    (deadline : Deadline) :
    ∃ call, (cache.begin key policy deadline).2.calls[(cache.begin key policy deadline).1]? = some call ∧
      call.deadline = deadline ∧
      (policy.softTimeout = 0 → call.phase = .returned (.ok entry.value) cache.clock.now) ∧
      (cache.begin key policy deadline).2.Covered call entry.value call.flight?
        (cache.clock.now + min policy.softTimeout (deadline.remaining cache.clock)) := by
  have now : (cache.begin key policy deadline).2.clock.now = cache.clock.now :=
    (begin_moves cache key policy deadline).now
  have clock := (touch_frame cache key).1
  have same := begin_expired found expired failSafe servable deadline
  obtain ⟨phase, place, added, way⟩ :=
    beginStale_call (cache.touch key).2 (cache.opening key policy deadline) entry
  rw [← same] at place added
  refine ⟨_, by rw [place, added, Array.getElem?_push_size], rfl, ?_⟩
  rcases way with rfl | ⟨soft, flight, clock', same', rfl, _⟩
  · rw [clock]
    exact ⟨fun _ => rfl, .stale rfl (Nat.le_add_right ..)⟩
  · refine ⟨fun zero => absurd zero soft, .waiting rfl rfl ?_ ?_⟩
    · have softens := Softens.tighten deadline clock' policy.softTimeout
      have remaining : deadline.remaining clock' = deadline.remaining cache.clock := by
        rw [Deadline.remaining, Deadline.remaining, same', clock]
      rw [remaining, same', clock, ← now] at softens
      rw [← now]
      exact softens
    · rw [now]
      exact Nat.le_add_right ..

/-- A call under a policy with fail-safe that finds a stale value is safely served, as long as its caller
stays: along every prompt run, within the soft timeout and the time its own deadline leaves, with the
stale value or that of the flight it waits for. Only its own deadline can cancel it, and that only
while it waits; without a soft timeout it never does. -/
theorem failSafe_of_stale {cache : Cache V} {key : String} {policy : Policy} {entry : Entry V}
    (found : cache.entryFor key = some entry) (failSafe : policy.failSafe = true)
    (expired : entry.expiresAt ≤ cache.clock.now) (servable : cache.clock.now < entry.servableUntil)
    (deadline : Deadline) :
    ∃ call, (cache.begin key policy deadline).2.calls[(cache.begin key policy deadline).1]? = some call ∧
      (policy.softTimeout = 0 → call.phase = .returned (.ok entry.value) cache.clock.now) ∧
      ∀ later, Run (Staying (cache.begin key policy deadline).1) (cache.begin key policy deadline).2 later →
        later.SafelyServed (cache.begin key policy deadline).1 deadline entry.value call.flight?
          (cache.clock.now + min policy.softTimeout (deadline.remaining cache.clock)) := by
  obtain ⟨call, present, own, atOnce, covered⟩ := covered_begin found failSafe expired servable deadline
  refine ⟨call, present, atOnce, fun later run => ?_⟩
  obtain ⟨call', present', same, covered'⟩ := covered.run present run
  exact .of_covered present' (same.trans own) covered'

/-- A value is computed and stored, and then some time passes. -/
def storing : List (Event Nat) :=
  [.scope none, .begin "Oslo" lenient ⟨5000, ⟨[0]⟩⟩, .flight 0 none, .flight 0 (some (.value 7)), .call 0, .pass 10]

theorem failSafe_of_stale_stored :
    ∃ (cache : Cache Nat) (entry : Entry Nat), Reachable Lawful cache ∧ cache.entryFor "Oslo" = some entry ∧
      lenient.failSafe = true ∧ entry.expiresAt ≤ cache.clock.now ∧ cache.clock.now < entry.servableUntil ∧
      ∃ call, (cache.begin "Oslo" lenient ⟨5000, ⟨[0]⟩⟩).2.calls[
          (cache.begin "Oslo" lenient ⟨5000, ⟨[0]⟩⟩).1]? = some call ∧
        ∀ later, Run (Staying (cache.begin "Oslo" lenient ⟨5000, ⟨[0]⟩⟩).1)
            (cache.begin "Oslo" lenient ⟨5000, ⟨[0]⟩⟩).2 later →
          later.SafelyServed (cache.begin "Oslo" lenient ⟨5000, ⟨[0]⟩⟩).1 ⟨5000, ⟨[0]⟩⟩ entry.value call.flight?
            (cache.clock.now + min lenient.softTimeout (Deadline.remaining cache.clock ⟨5000, ⟨[0]⟩⟩)) := by
  obtain ⟨cache, entry, steps, found, expired, servable⟩ : ∃ (cache : Cache Nat) (entry : Entry Nat),
      storing.foldlM step? (empty 1) = some cache ∧ cache.entryFor "Oslo" = some entry ∧
        entry.expiresAt ≤ cache.clock.now ∧ cache.clock.now < entry.servableUntil :=
    ⟨_, _, rfl, rfl, by decide, by decide⟩
  have run : Run Lawful (empty 1) cache := .of_events (by simp [storing, Lawful]) steps
  have failSafe : lenient.failSafe = true := rfl
  obtain ⟨call, present, _, served⟩ := failSafe_of_stale found failSafe expired servable ⟨5000, ⟨[0]⟩⟩
  exact ⟨cache, entry, ⟨1, run⟩, found, failSafe, expired, servable, call, present, served⟩

end HedgedForecast.Cache
