import HedgedForecast.Proofs.Cache.Attendance

/-! # Where values come from

A value that a call returns was computed by a flight of the call's own key. The call found it stored and
still fresh, or stored and stale but within the bounds that both its own policy and that of the flight set,
or it waited for the flight, which landed only after the call had begun. What policies say at other calls,
what fails and which keys are dropped in between makes no difference.
-/

namespace HedgedForecast

variable {V : Type}

/-- What a call asks, and since when. -/
structure Question where
  /-- The number of the call. -/
  number : Nat
  key : String
  policy : Policy
  deadline : Deadline
  begunAt : Nat

def Call.question (call : Call V) (number : Nat) : Question where
  number
  key := call.key
  policy := call.policy
  deadline := call.deadline
  begunAt := call.begunAt

namespace Cache

/-- A call on the key launched the flight. -/
def LaunchedIn (rule : Rule V) (cache : Cache V) (key : String) (policy : Policy) (number : Nat) : Prop :=
  ∃ before deadline, Reachable rule before ∧ before.flights[number]? = none ∧
    (∃ flight, (before.begin key policy deadline).2.flights[number]? = some flight) ∧
    Run rule (before.begin key policy deadline).2 cache

/-- The computation of the flight gave the value at the instant. -/
def ComputedIn (rule : Rule V) (cache : Cache V) (number : Nat) (value : V) (instant : Nat) : Prop :=
  ∃ before after, Reachable rule before ∧ before.clock.now = instant ∧
    before.step? (.flight number (some (.value value))) = some after ∧ Run rule after cache

/-- A flight of the key landed with the value at the instant. -/
structure Origin (rule : Rule V) (cache : Cache V) (key : String) (policy : Policy) (number : Nat) (value : V)
    (instant : Nat) : Prop where
  landed : ∃ flight, cache.flights[number]? = some flight ∧ flight.key = key ∧ flight.policy = policy ∧
    flight.phase = .landed (.ok value) ∧ flight.endedAt = some instant
  launched : LaunchedIn rule cache key policy number
  computed : ComputedIn rule cache number value instant

/-- The call began in that cache. -/
structure BeganIn (rule : Rule V) (cache : Cache V) (asked : Question) (before : Cache V) : Prop where
  reachable : Reachable rule before
  number : before.calls.size = asked.number
  now : before.clock.now = asked.begunAt
  run : Run rule (before.begin asked.key asked.policy asked.deadline).2 cache

/-- The call found the entry, which a flight of the call's key had stored. -/
structure Found (rule : Rule V) (cache : Cache V) (asked : Question) (entry : Entry V) : Prop where
  began : ∃ before, BeganIn rule cache asked before ∧ before.entryFor asked.key = some entry
  origin : Origin rule cache asked.key entry.policy entry.flight entry.value entry.storedAt
  before : entry.storedAt ≤ asked.begunAt

/-- The flight is one of the call's key that had not landed when the call began. -/
structure Awaited (rule : Rule V) (cache : Cache V) (asked : Question) (flight : Nat) : Prop where
  began : ∃ before, BeganIn rule cache asked before ∧
    ∀ found, before.flights[flight]? = some found → found.hasLanded = false
  after : ∃ found, cache.flights[flight]? = some found ∧ found.key = asked.key ∧
    ∀ result, found.phase = .landed result → ∃ ended, found.endedAt = some ended ∧ asked.begunAt ≤ ended

/-- How a call comes by the value that it returns at the instant. -/
inductive Source (rule : Rule V) (cache : Cache V) (asked : Question) (value : V) (instant : Nat) : Prop
  | fresh {entry : Entry V} (found : Found rule cache asked entry) (same : entry.value = value)
      (inTime : asked.begunAt < entry.storedAt + entry.policy.ttl) : Source rule cache asked value instant
  | stale {entry : Entry V} (found : Found rule cache asked entry) (same : entry.value = value)
      (caller : asked.policy.failSafe = true) (own : entry.policy.failSafe = true)
      (inTime : asked.begunAt < entry.storedAt + max entry.policy.maxAge entry.policy.ttl)
      (soon : (∀ cache event, rule cache event → Prompt cache event) →
        instant ≤ asked.begunAt + asked.policy.softTimeout) : Source rule cache asked value instant
  | flight {policy : Policy} {flight ended : Nat} (awaited : Awaited rule cache asked flight)
      (origin : Origin rule cache asked.key policy flight value ended) (notBefore : asked.begunAt ≤ ended)
      (notAfter : ended ≤ instant) : Source rule cache asked value instant

section

variable {rule : Rule V} {cache next : Cache V} {event : Event V} {number flight instant : Nat} {call : Call V}
  {value : V} {asked : Question}

theorem Reachable.launchedIn (reachable : Reachable rule cache) {found : Flight V}
    (present : cache.flights[number]? = some found) : LaunchedIn rule cache found.key found.policy number := by
  obtain ⟨maxEntries, run⟩ := reachable
  induction run generalizing found with
  | nil => simp [empty] at present
  | @snoc middle target event run allowed step ih =>
    cases there : middle.flights[number]? with
    | none =>
      obtain ⟨key, policy, deadline, rfl, launched⟩ := step_launched step there present
      cases step
      rw [launched.key, launched.policy]
      exact ⟨middle, deadline, ⟨maxEntries, run⟩, there, ⟨found, present⟩, .nil⟩
    | some earlier =>
      obtain ⟨later, here, follows⟩ := (Extends.step step).flights number earlier there
      obtain rfl := Option.some.inj (present.symm.trans here)
      obtain ⟨before, deadline, reached, absent, launched, rest⟩ := ih there
      rw [follows.key, follows.policy]
      exact ⟨before, deadline, reached, absent, launched, .snoc rest allowed step⟩

/-- A flight that has landed with a value computed it when it landed. -/
theorem Reachable.computedIn (reachable : Reachable rule cache) {found : Flight V}
    (present : cache.flights[number]? = some found) (landed : found.phase = .landed (.ok value)) :
    ∃ instant, found.endedAt = some instant ∧ instant ≤ cache.clock.now ∧
      ComputedIn rule cache number value instant := by
  obtain ⟨maxEntries, run⟩ := reachable
  induction run generalizing found with
  | nil => simp [empty] at present
  | @snoc middle target event run allowed step ih =>
    have now : middle.clock.now ≤ target.clock.now := (Extends.step step).now
    cases there : middle.flights[number]? with
    | none =>
      obtain ⟨_, _, _, _, launched⟩ := step_launched step there present
      rw [launched.phase] at landed
      contradiction
    | some earlier =>
      obtain ⟨later, here, kept | ⟨work, rfl, turned⟩⟩ := step_flights step there
      · obtain rfl := Option.some.inj (present.symm.trans here)
        rw [kept.same] at landed ⊢
        obtain ⟨instant, ended, past, before, after, reached, time, turn, rest⟩ := ih there landed
        exact ⟨instant, ended, Nat.le_trans past now, before, after, reached, time, turn, .snoc rest allowed step⟩
      · obtain rfl := Option.some.inj (present.symm.trans here)
        cases turned with
        | started => contradiction
        | ended working verdict =>
          obtain rfl := Flight.endPhase_ok landed
          rcases Deadline.verdict_cases verdict with ⟨_, absurd⟩ | ⟨_, _, absurd⟩ | ⟨_, _, result, rfl, same⟩
          · contradiction
          · contradiction
          · cases same
            exact ⟨_, rfl, now, middle, target, ⟨maxEntries, run⟩, rfl, step, .nil⟩

theorem Reachable.origin (reachable : Reachable rule cache) {found : Flight V}
    (present : cache.flights[number]? = some found) (landed : found.phase = .landed (.ok value))
    (ended : found.endedAt = some instant) : Origin rule cache found.key found.policy number value instant := by
  obtain ⟨time, same, _, computed⟩ := reachable.computedIn present landed
  obtain rfl := Option.some.inj (ended.symm.trans same)
  exact ⟨⟨found, present, rfl, rfl, landed, ended⟩, reachable.launchedIn present, computed⟩

/-- What a slot holds was stored by a flight of the slot, when the flight landed. -/
theorem Reachable.storedBy (reachable : Reachable rule cache) {slot : Nat} {entry : Entry V}
    (holds : cache.content slot = some entry) :
    ∃ found, cache.flights[entry.flight]? = some found ∧ found.slot = slot ∧ found.policy = entry.policy ∧
      found.phase = .landed (.ok entry.value) ∧ found.endedAt = some entry.storedAt := by
  obtain ⟨maxEntries, run⟩ := reachable
  induction run generalizing entry with
  | nil => simp [content, entryOf, empty] at holds
  | @snoc middle target event run allowed step ih =>
    rcases step_content step slot with same | ⟨number, found, value, present, own, landed, ended, _, stored⟩
    · rw [same] at holds
      obtain ⟨found, there, own, policy, landed, ended⟩ := ih holds
      obtain ⟨later, here, kept⟩ := step_landed step there landed
      rw [kept.same] at here
      exact ⟨_, here, own, policy, landed, ended⟩
    · rw [stored] at holds
      cases holds
      exact ⟨found, present, own, rfl, landed, ended⟩

/-- What a call finds was stored by a flight of its key before. -/
theorem Reachable.origin_of_entryFor (reachable : Reachable rule cache) {key : String} {entry : Entry V}
    (found : cache.entryFor key = some entry) :
    Origin rule cache key entry.policy entry.flight entry.value entry.storedAt ∧
      entry.storedAt ≤ cache.clock.now := by
  have placed := reachable.placed
  obtain ⟨slot, own, holds, present, named⟩ := placed.content_of_entryFor found
  obtain ⟨flight, there, owner, policy, landed, ended⟩ := reachable.storedBy holds
  obtain ⟨own', present', named'⟩ := placed.slot_of_flight _ flight there
  rw [owner, present] at present'
  obtain rfl := Option.some.inj present'
  have origin := reachable.origin there landed ended
  rw [policy, named'.symm.trans named] at origin
  obtain ⟨instant, same, past, _⟩ := reachable.computedIn there landed
  obtain rfl : entry.core.storedAt = instant := Option.some.inj (ended.symm.trans same)
  exact ⟨origin, past⟩

section

variable (allowed : rule cache event) (step : cache.step? event = some next)

include allowed step

theorem LaunchedIn.snoc {key : String} {policy : Policy} (launched : LaunchedIn rule cache key policy number) :
    LaunchedIn rule next key policy number := by
  obtain ⟨before, deadline, reached, absent, new, run⟩ := launched
  exact ⟨before, deadline, reached, absent, new, .snoc run allowed step⟩

theorem ComputedIn.snoc (computed : ComputedIn rule cache number value instant) :
    ComputedIn rule next number value instant := by
  obtain ⟨before, after, reached, time, turn, run⟩ := computed
  exact ⟨before, after, reached, time, turn, .snoc run allowed step⟩

theorem Origin.snoc {key : String} {policy : Policy} (origin : Origin rule cache key policy number value instant) :
    Origin rule next key policy number value instant := by
  refine ⟨?_, origin.launched.snoc allowed step, origin.computed.snoc allowed step⟩
  obtain ⟨found, present, named, policy, landed, ended⟩ := origin.landed
  obtain ⟨later, there, kept⟩ := step_landed step present landed
  rw [kept.same] at there
  exact ⟨_, there, named, policy, landed, ended⟩

theorem BeganIn.snoc {before : Cache V} (began : BeganIn rule cache asked before) :
    BeganIn rule next asked before :=
  { began with run := .snoc began.run allowed step }

theorem Found.snoc {entry : Entry V} (found : Found rule cache asked entry) :
    Found rule next asked entry := by
  obtain ⟨before, began, there⟩ := found.began
  exact ⟨⟨before, began.snoc allowed step, there⟩, found.origin.snoc allowed step, found.before⟩

/-- Time does not go back, so a flight that lands does so after the call has begun. -/
theorem Awaited.snoc (begun : asked.begunAt ≤ cache.clock.now) (awaited : Awaited rule cache asked flight) :
    Awaited rule next asked flight := by
  obtain ⟨before, began, unlanded⟩ := awaited.began
  obtain ⟨found, present, named, landsAfter⟩ := awaited.after
  refine ⟨⟨before, began.snoc allowed step, unlanded⟩, ?_⟩
  obtain ⟨later, there, kept | ⟨work, _, turned⟩⟩ := step_flights step present
  · rw [kept.same] at there
    exact ⟨_, there, named, landsAfter⟩
  · refine ⟨later, there, ?_⟩
    cases turned with
    | started => exact ⟨named, nofun⟩
    | ended => exact ⟨named, fun _ _ => ⟨_, rfl, begun⟩⟩

theorem Source.snoc (source : Source rule cache asked value instant)
    (begun : asked.begunAt ≤ cache.clock.now) : Source rule next asked value instant := by
  cases source with
  | fresh found same inTime => exact .fresh (found.snoc allowed step) same inTime
  | stale found same caller own inTime soon => exact .stale (found.snoc allowed step) same caller own inTime soon
  | flight awaited origin notBefore notAfter =>
    exact .flight (awaited.snoc allowed step begun) (origin.snoc allowed step) notBefore notAfter

end

/-- What there is to say of a call at any time about the value that it returns or may return. -/
inductive Stands (rule : Rule V) (cache : Cache V) (number : Nat) (call : Call V) : Prop
  | served {value : V} {instant : Nat} (phase : call.phase = .returned (.ok value) instant)
      (source : Source rule cache (call.question number) value instant)
  | failed {failure : Failure} {instant : Nat} (phase : call.phase = .returned (.error failure) instant)
  | dropped (phase : call.phase = .dropped)
  | cold {flight : Nat} (phase : call.phase = .cold flight) (awaited : Awaited rule cache (call.question number) flight)
  /-- The call may return the stale value right now. -/
  | stale {flight : Nat} {soft : Deadline} {fallback : V} (phase : call.phase = .stale flight soft fallback)
      (awaited : Awaited rule cache (call.question number) flight)
      (source : Source rule cache (call.question number) fallback cache.clock.now)

/-- A value that a call may be answered with is that of its flight or the one that it falls back on. -/
theorem answer?_ok (answered : cache.answer? call = some (.ok value)) :
    (∃ flight, call.flight? = some flight ∧ cache.resultOf flight = some (.ok value)) ∨
      ∃ flight soft, call.phase = .stale flight soft value := by
  cases phase : call.phase with
  | cold flight =>
    simp only [answer?, phase] at answered
    obtain ⟨ending, verdict, told⟩ := Option.map_eq_some_iff.mp answered
    rcases Deadline.verdict_cases verdict with ⟨_, rfl⟩ | ⟨_, _, rfl⟩ | ⟨_, _, result, ended, rfl⟩
    · cases told
    · cases told
    · cases result with
      | ok computed =>
        cases told
        exact .inl ⟨flight, by simp [Call.flight?, phase], ended⟩
      | error failure => cases told
  | stale flight soft fallback =>
    simp only [answer?, phase] at answered
    obtain ⟨ending, verdict, told⟩ := Option.map_eq_some_iff.mp answered
    have fellBack {failure : Failure}
        (told : staleAnswer (call.deadline.isCancelled cache.clock) fallback (.error failure) = .ok value) :
        fallback = value := by
      rw [staleAnswer] at told
      split at told
      · cases told
      · exact Except.ok.inj told
    rcases Deadline.verdict_cases verdict with ⟨_, rfl⟩ | ⟨_, _, rfl⟩ | ⟨_, _, result, ended, rfl⟩
    · exact .inr ⟨flight, soft, by rw [fellBack told]⟩
    · exact .inr ⟨flight, soft, by rw [fellBack told]⟩
    · cases result with
      | ok computed =>
        cases told
        exact .inl ⟨flight, by simp [Call.flight?, phase], ended⟩
      | error failure => exact .inr ⟨flight, soft, by rw [fellBack told]⟩
  | returned result instant => simp [answer?, phase] at answered
  | dropped => simp [answer?, phase] at answered

/-- A flight that tells a value has landed with it. -/
theorem landed_of_resultOf {found : Flight V} (present : cache.flights[flight]? = some found)
    (told : cache.resultOf flight = some (.ok value)) : found.phase = .landed (.ok value) := by
  unfold resultOf at told
  cases phase : found.phase with
  | landed result =>
    simp only [present, phase, Option.some.injEq] at told
    rw [told]
  | queued => simp [present, phase] at told
  | working deadline => simp [present, phase] at told
  | lost => simp [present, phase] at told

/-- A flight that tells a call its value has landed with it since the call began. -/
theorem Awaited.origin (reachable : Reachable rule cache) (awaited : Awaited rule cache asked flight)
    (told : cache.resultOf flight = some (.ok value)) :
    ∃ policy ended, Origin rule cache asked.key policy flight value ended ∧ asked.begunAt ≤ ended ∧
      ended ≤ cache.clock.now := by
  obtain ⟨found, present, named, landsAfter⟩ := awaited.after
  have landed := landed_of_resultOf present told
  obtain ⟨ended, closed, notBefore⟩ := landsAfter _ landed
  obtain ⟨instant, closed', notAfter, _⟩ := reachable.computedIn present landed
  obtain rfl := Option.some.inj (closed.symm.trans closed')
  exact ⟨_, ended, named ▸ reachable.origin present landed closed, notBefore, notAfter⟩

/-- A call that is told the value of its flight has it from there. -/
theorem Awaited.source (reachable : Reachable rule cache) (awaited : Awaited rule cache asked flight)
    (told : cache.resultOf flight = some (.ok value)) :
    Source rule cache asked value cache.clock.now := by
  obtain ⟨policy, ended, origin, notBefore, notAfter⟩ := awaited.origin reachable told
  exact .flight awaited origin notBefore notAfter

namespace Stands

/-- As long as time moves promptly, a call that waits with a stale value waits within its soft timeout. -/
theorem later (stands : Stands rule cache number call) (reachable : Reachable rule cache)
    (allowed : rule cache event) (step : cache.step? event = some next) (present : cache.calls[number]? = some call)
    (begun : call.begunAt ≤ cache.clock.now) : Stands rule next number call := by
  cases stands with
  | served phase source => exact .served phase (source.snoc allowed step begun)
  | failed phase => exact .failed phase
  | dropped phase => exact .dropped phase
  | cold phase awaited => exact .cold phase (awaited.snoc allowed step begun)
  | @stale flight soft fallback phase awaited source =>
    refine .stale phase (awaited.snoc allowed step begun) ?_
    cases source with
    | fresh found same inTime => exact .fresh (found.snoc allowed step) same inTime
    | flight awaited origin notBefore notAfter =>
      exact .flight (awaited.snoc allowed step begun) (origin.snoc allowed step) notBefore
        (Nat.le_trans notAfter (Extends.step step).now)
    | stale found same caller own inTime soon =>
      refine .stale (found.snoc allowed step) same caller own inTime fun prompt => ?_
      by_cases passing : ∃ instant, event = .pass instant
      · obtain ⟨instant, rfl⟩ := passing
        cases step
        have member : soft.instant ∈ cache.timers :=
          mem_timers.mpr (.inr ⟨number, call, present, .inr ⟨flight, soft, fallback, phase, rfl⟩⟩)
        have timely := (prompt _ _ allowed).2 _ member
        have bound := (reachable.patient present).instant flight soft fallback phase
        have before : cache.clock.now ≤ call.begunAt + call.policy.softTimeout := soon prompt
        change max cache.clock.now instant ≤ call.begunAt + call.policy.softTimeout
        omega
      · rw [step_now step fun instant same => passing ⟨instant, same⟩]
        exact soon prompt

theorem answered (stands : Stands rule cache number call) (reachable : Reachable rule cache)
    {answer : Except Failure V} (answered : cache.answer? call = some answer) :
    Stands rule cache number { call with phase := .returned answer cache.clock.now } := by
  cases answer with
  | error failure => exact .failed rfl
  | ok value =>
    rcases answer?_ok answered with ⟨flight, waits, told⟩ | ⟨flight, soft, phase⟩
    · have source (other : Nat) (phase : call.flight? = some other)
          (awaited : Awaited rule cache (call.question number) other) :
          Source rule cache (call.question number) value cache.clock.now := by
        obtain rfl := Option.some.inj (waits.symm.trans phase)
        exact awaited.source reachable told
      cases stands with
      | cold phase awaited => exact .served rfl (source _ (by simp [Call.flight?, phase]) awaited)
      | stale phase awaited _ => exact .served rfl (source _ (by simp [Call.flight?, phase]) awaited)
      | served phase => simp [Call.flight?, phase] at waits
      | failed phase => simp [Call.flight?, phase] at waits
      | dropped phase => simp [Call.flight?, phase] at waits
    · cases stands with
      | stale phase' _ source =>
        rw [phase] at phase'
        cases phase'
        exact .served rfl source
      | cold phase' => rw [phase] at phase'; cases phase'
      | served phase' => rw [phase] at phase'; cases phase'
      | failed phase' => rw [phase] at phase'; cases phase'
      | dropped phase' => rw [phase] at phase'; cases phase'

/-- What a call finds when it begins is a source of the value. -/
theorem found (reachable : Reachable rule cache) {key : String} {policy : Policy} (deadline : Deadline)
    (allowed : rule cache (.begin key policy deadline)) {entry : Entry V}
    (there : cache.entryFor key = some entry) :
    Found rule (cache.begin key policy deadline).2 ⟨cache.calls.size, key, policy, deadline, cache.clock.now⟩
      entry := by
  obtain ⟨origin, past⟩ := reachable.origin_of_entryFor there
  exact ⟨⟨cache, ⟨reachable, rfl, rfl, .nil⟩, there⟩, origin.snoc allowed rfl, past⟩

/-- What a call awaits when it begins has not landed. -/
theorem awaited (reachable : Reachable rule cache) {key : String} {policy : Policy} (deadline : Deadline)
    (awaits : Awaits cache (cache.begin key policy deadline).2 key policy flight) :
    Awaited rule (cache.begin key policy deadline).2 ⟨cache.calls.size, key, policy, deadline, cache.clock.now⟩
      flight := by
  have began : BeganIn rule (cache.begin key policy deadline).2
      ⟨cache.calls.size, key, policy, deadline, cache.clock.now⟩ cache := ⟨reachable, rfl, rfl, .nil⟩
  rcases awaits with there | ⟨absent, launched, present, new⟩
  · obtain ⟨own, present, named, aloft, _⟩ := reachable.placed.flightFor there
    obtain ⟨later, here, kept⟩ := (Alters.begin cache key policy deadline).kept flight own present
    rw [kept.same] at here
    refine ⟨⟨cache, began, fun found there => ?_⟩, _, here, named, fun result landed => ?_⟩
    · obtain rfl := Option.some.inj (present.symm.trans there)
      exact aloft
    · have down : own.hasLanded = true := by
        change own.phase = .landed result at landed
        rw [Flight.hasLanded, landed]
      rw [aloft] at down
      contradiction
  · refine ⟨⟨cache, began, fun found there => ?_⟩, launched, present, new.key, fun result landed => ?_⟩
    · rw [absent] at there
      contradiction
    · rw [new.phase] at landed
      contradiction

theorem opened (reachable : Reachable rule cache) {key : String} {policy : Policy} {deadline : Deadline}
    (allowed : rule cache (.begin key policy deadline)) {phase : CallPhase V}
    (opens : Opens cache (cache.begin key policy deadline).2 key policy deadline phase) :
    Stands rule (cache.begin key policy deadline).2 cache.calls.size
      { cache.opening key policy deadline with phase } := by
  have now : (cache.begin key policy deadline).2.clock.now = cache.clock.now :=
    (begin_moves cache key policy deadline).now
  have stale {entry : Entry V} (there : cache.entryFor key = some entry) (failSafe : policy.failSafe = true)
      (expired : entry.expiresAt ≤ cache.clock.now) (servable : cache.clock.now < entry.servableUntil) :
      Source rule (cache.begin key policy deadline).2 ⟨cache.calls.size, key, policy, deadline, cache.clock.now⟩
        entry.value cache.clock.now := by
    unfold Entry.servableUntil at servable
    split at servable
    · next own =>
      exact .stale (found reachable deadline allowed there) rfl failSafe own servable fun _ => Nat.le_add_right ..
    · omega
  cases opens with
  | fresh there inTime => exact .served rfl (.fresh (found reachable deadline allowed there) rfl inTime)
  | stale there failSafe expired servable => exact .served rfl (stale there failSafe expired servable)
  | softly there failSafe expired servable awaits sameTime =>
    refine .stale rfl (awaited reachable deadline awaits) ?_
    rw [now]
    exact stale there failSafe expired servable
  | cold awaits => exact .cold rfl (awaited reachable deadline awaits)

end Stands

theorem Reachable.begunAt_le (reachable : Reachable rule cache) (present : cache.calls[number]? = some call) :
    call.begunAt ≤ cache.clock.now := by
  obtain ⟨maxEntries, run⟩ := reachable
  induction run generalizing call with
  | nil => simp [empty] at present
  | @snoc middle target event run allowed step ih =>
    have now : middle.clock.now ≤ target.clock.now := (Extends.step step).now
    cases step_cameFrom step present with
    | same there => exact Nat.le_trans (ih there) now
    | answered there _ same =>
      have before := ih there
      rw [same]
      exact Nat.le_trans before now
    | dropped there same =>
      have before := ih there
      rw [same]
      exact Nat.le_trans before now
    | begun _ _ same =>
      rw [same]
      exact now

/-- Whatever happens, there is that much to say of every call. -/
theorem Reachable.stands (reachable : Reachable rule cache) (present : cache.calls[number]? = some call) :
    Stands rule cache number call := by
  obtain ⟨maxEntries, run⟩ := reachable
  induction run generalizing call with
  | nil => simp [empty] at present
  | @snoc middle target event run allowed step ih =>
    have reached : Reachable rule middle := ⟨maxEntries, run⟩
    cases step_cameFrom step present with
    | same there => exact (ih there).later reached allowed step there (reached.begunAt_le there)
    | @answered waiting answer there answered same =>
      have told := (ih there).answered reached answered
      cases told with
      | served phase source =>
        rw [same]
        exact .served phase (source.snoc allowed step (reached.begunAt_le there))
      | failed phase =>
        rw [same]
        exact .failed phase
      | dropped phase => cases phase
      | cold phase => cases phase
      | stale phase => cases phase
    | dropped there same =>
      rw [same]
      exact .dropped rfl
    | begun last opens same =>
      cases step
      rw [same, last]
      exact Stands.opened reached allowed opens

/-- What may be relied on when a call returns a value. -/
structure Provenance (rule : Rule V) (cache : Cache V) (number : Nat) (call : Call V) (value : V) (instant : Nat) :
    Prop where
  source : Source rule cache (call.question number) value instant
  /-- If no policy keeps values, the value is that of a flight which had not landed when the call began. -/
  passThrough : (∀ other ∈ cache.calls, other.policy.ttl = 0 ∧ other.policy.failSafe = false) →
    ∃ policy flight ended, Awaited rule cache (call.question number) flight ∧
      Origin rule cache call.key policy flight value ended ∧ call.begunAt ≤ ended ∧ ended ≤ instant

/-- The policy of a flight is that of a call. -/
theorem LaunchedIn.exists_call {key : String} {policy : Policy} (launched : LaunchedIn rule cache key policy flight) :
    ∃ call ∈ cache.calls, call.key = key ∧ call.policy = policy := by
  obtain ⟨before, deadline, _, _, _, run⟩ := launched
  obtain ⟨phase, _, calls, _⟩ := begin_opens before key policy deadline
  have present : (before.begin key policy deadline).2.calls[before.calls.size]? =
      some { before.opening key policy deadline with phase } := by
    rw [calls]
    exact Array.getElem?_push_size
  obtain ⟨later, there, follows⟩ := (Extends.run run).calls _ _ present
  exact ⟨later, Array.mem_of_getElem? there, follows.key, follows.policy⟩

/-- Every value that a call returns was computed for its key, and is fresh, stale within bounds, or new. -/
theorem provenance_of_returned (reachable : Reachable rule cache) (present : cache.calls[number]? = some call)
    (returned : call.phase = .returned (.ok value) instant) : Provenance rule cache number call value instant := by
  have source : Source rule cache (call.question number) value instant := by
    cases reachable.stands present with
    | served phase source =>
      rw [returned] at phase
      cases phase
      exact source
    | failed phase => rw [returned] at phase; cases phase
    | dropped phase => rw [returned] at phase; cases phase
    | cold phase => rw [returned] at phase; cases phase
    | stale phase => rw [returned] at phase; cases phase
  refine ⟨source, fun none => ?_⟩
  cases source with
  | fresh found _ inTime =>
    obtain ⟨other, member, _, same⟩ := found.origin.launched.exists_call
    have ttl := (none other member).1
    have before := found.before
    rw [same] at ttl
    omega
  | stale _ _ caller =>
    have without := (none call (Array.mem_of_getElem? present)).2
    have caller : call.policy.failSafe = true := caller
    rw [without] at caller
    contradiction
  | flight awaited origin notBefore notAfter => exact ⟨_, _, _, awaited, origin, notBefore, notAfter⟩

end

/-- A value is computed and stored. -/
def filling : List (Event Nat) :=
  [.scope none, .begin "Oslo" lenient ⟨5000, ⟨[0]⟩⟩, .flight 0 none, .flight 0 (some (.value 7)), .call 0]

def filled : Cache Nat := (filling.foldlM step? (empty 1)).getD (empty 1)

def outdated : Cache Nat :=
  { filled with clock := filled.clock.moveTo 10 }

/-- The value is stale when it is asked for again, and the caller does not wait. -/
def reused : Cache Nat :=
  (outdated.begin "Oslo" { lenient with softTimeout := 0 } ⟨5000, ⟨[0]⟩⟩).2

theorem reachable_reused : Reachable Prompt reused := by
  have first : Run Prompt (empty 1) filled :=
    .of_events (by simp [filling, Prompt]) (rfl : filling.foldlM step? (empty 1) = some filled)
  have prompt : Prompt filled (.pass 10) := ⟨by decide, by decide⟩
  have second : Run Prompt (empty 1) outdated := .snoc first prompt rfl
  have free : Prompt outdated (.begin "Oslo" { lenient with softTimeout := 0 } ⟨5000, ⟨[0]⟩⟩) := trivial
  exact ⟨1, .snoc second free rfl⟩

theorem provenance_of_returned_reused :
    Reachable Prompt reused ∧ ∃ call, reused.calls[1]? = some call ∧ call.phase = .returned (.ok 7) 10 ∧
      Provenance Prompt reused 1 call 7 10 := by
  obtain ⟨call, present, returned⟩ : ∃ call, reused.calls[1]? = some call ∧ call.phase = .returned (.ok 7) 10 :=
    ⟨_, rfl, rfl⟩
  exact ⟨reachable_reused, call, present, returned, provenance_of_returned reachable_reused present returned⟩

end Cache

end HedgedForecast
