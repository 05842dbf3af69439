import HedgedForecast.Hedge.Fetch

/-! # Stories of fetches

A fetch looks at what has happened, its legs call their providers and end, time passes and scopes are
cancelled. A story is a fetch together with what happened to it so far: which legs it started, which
providers were called, how legs ended, how often its timer fired, and when the caller gave up and the fetch
was decided. Legs end whenever and however they do, so that stories cover all behaviours of providers.
-/

namespace HedgedForecast

/-- The end of a leg. -/
structure LegEnd where
  instant : Nat
  /-- The provider's place in the chain. -/
  index : Nat
  ending : WorkEnd (List ForecastDay)

namespace LegEnd

/-- What the fetch is told. -/
def arrival (leg : LegEnd) : Nat × WorkEnd (List ForecastDay) :=
  (leg.index, leg.ending)

end LegEnd

/-- A fetch, and what happened to it so far. -/
structure Story where
  fetch : Fetch
  clock : Clock
  begunAt : Nat
  /-- The places of the legs that were started, in this order. -/
  started : List Nat
  /-- The places of the providers that were called, in this order. -/
  called : List Nat := []
  /-- How legs ended, in the order in which the fetch is told. -/
  ends : List LegEnd := []
  /-- How often the timer fired. -/
  fired : Nat := 0
  /-- When the caller gave up, if that was before the fetch was decided. -/
  cancelledAt : Option Nat := none
  decidedAt : Option Nat := none

namespace Story

/-- What may happen to a fetch. -/
inductive Event where
  /-- The fetch looks at what has happened. -/
  | turn
  /-- A leg calls its provider. -/
  | legBegins (index call : Nat)
  | legEnds (index : Nat) (ending : WorkEnd (List ForecastDay))
  | pass (instant : Nat)
  | scope (parent : Option Token)
  | cancel (token : Token)

/-- The story after a turn that left the fetch like that. A turn that looks at no leg and decides nothing is
that of the timer. -/
def after (story : Story) (fetch : Fetch) (clock : Clock) : Story :=
  { story with
    fetch, clock
    started := story.started ++ (fetch.legs.drop story.fetch.legs.length).map Leg.index
    fired := if story.fetch.arrivals.isEmpty && fetch.result.isNone then story.fired + 1 else story.fired
    decidedAt := if fetch.result.isSome then some clock.now else none }

/-- The next turn of the fetch. -/
def turn? (story : Story) : Option Story :=
  (story.fetch.turn? story.clock).map fun (fetch, clock) => story.after fetch clock

/-- The story after an event; what cannot happen is no event. -/
def step? (story : Story) : Event → Option Story
  | .turn => story.turn?
  | .legBegins index call =>
    if story.fetch.legs.any fun leg => leg.index == index && leg.call.isNone then
      some { story with fetch := story.fetch.legBegan index call, called := story.called ++ [index] }
    else none
  | .legEnds index ending =>
    if story.fetch.legs.any fun leg => leg.index == index && leg.call.isSome then
      some { story with
        fetch := story.fetch.legEnded index ending
        ends := story.ends ++ [⟨story.clock.now, index, ending⟩] }
    else none
  | .pass instant => some { story with clock := story.clock.moveTo instant }
  | .scope none => some { story with clock := story.clock.freshToken.2 }
  | .scope (some parent) => some { story with clock := (story.clock.childToken parent).2 }
  | .cancel token =>
    let clock := story.clock.cancel token
    let gaveUp := story.cancelledAt.isNone && story.fetch.result.isNone && story.fetch.deadline.isCancelled clock
    some { story with clock, cancelledAt := if gaveUp then some clock.now else story.cancelledAt }

/-- A fetch that has started its first leg. -/
def opening (clock : Clock) (size threshold : Nat) (deadline : Deadline) : Story :=
  let (fetch, later) := Fetch.begin clock size threshold deadline
  { fetch
    clock := later
    begunAt := clock.now
    started := fetch.legs.map Leg.index
    cancelledAt := if deadline.isCancelled clock then some clock.now else none
    decidedAt := if fetch.result.isSome then some clock.now else none }

/-- A fetch that begins. It looks at its scope, its deadline and its timer before any leg does anything. -/
def begin (clock : Clock) (size threshold : Nat) (deadline : Deadline) : Story :=
  (opening clock size threshold deadline).turn?.getD (opening clock size threshold deadline)

/-- Which events may come in which state. -/
abbrev Rule := Story → Event → Prop

/-- A sequence of events that obey a rule leads from one story to another. -/
inductive Run (rule : Rule) (source : Story) : Story → Prop
  | nil : Run rule source source
  | snoc {middle target : Story} {event : Event} (run : Run rule source middle)
      (allowed : rule middle event) (step : middle.step? event = some target) : Run rule source target

namespace Run

variable {rule : Rule} {source middle target : Story}

theorem single {event : Event} (allowed : rule source event) (step : source.step? event = some target) :
    Run rule source target :=
  .snoc .nil allowed step

theorem append (left : Run rule source middle) (right : Run rule middle target) : Run rule source target := by
  induction right with
  | nil => exact left
  | snoc _ allowed step ih => exact .snoc ih allowed step

/-- Events make a run as far as they are allowed and can happen, one after the other. -/
theorem of_events [∀ story event, Decidable (rule story event)] {events : List Event}
    (steps : events.foldlM (fun story event => if rule story event then story.step? event else none) source =
      some target) : Run rule source target := by
  induction events generalizing source with
  | nil => cases steps; exact .nil
  | cons event events ih =>
    obtain ⟨middle, step, rest⟩ := Option.bind_eq_some_iff.mp steps
    obtain ⟨allowed, step⟩ := Option.ite_none_right_eq_some.mp step
    exact (Run.single allowed step).append (ih rest)

/-- What holds at the start and is kept by every allowed event holds after the run. -/
theorem invariant {property : Story → Prop} (run : Run rule source target)
    (kept : ∀ story event next, property story → rule story event → story.step? event = some next → property next)
    (initial : property source) : property target := by
  induction run with
  | nil => exact initial
  | snoc _ allowed step ih => exact kept _ _ _ ih allowed step

end Run

end Story

/-- The result of a fetch that the end of a leg settles. -/
def decision? : WorkEnd (List ForecastDay) → Option (Except Failure (List ForecastDay))
  | .value days => some (.ok days)
  | .failure failure => if failure.isTerminal then some (.error failure) else none
  | .panicked _ => none

/-- The failure, with its rank in a chain of some size, that the end of a leg adds to those of a fetch. -/
def setback? (size index : Nat) : WorkEnd (List ForecastDay) → Option (Nat × Failure)
  | .value _ => none
  | .failure failure => if failure.isTerminal then none else some (index, failure)
  | .panicked panic => some (size, Fetch.panicFailure panic)

theorem setback?_eq_none_of_decision? {size index : Nat} {ending : WorkEnd (List ForecastDay)}
    {result : Except Failure (List ForecastDay)} (decides : decision? ending = some result) :
    setback? size index ending = none := by
  cases ending with
  | value days => rfl
  | panicked => contradiction
  | failure failure =>
    simp only [decision?] at decides
    split at decides
    · next terminal => simp only [setback?, terminal, if_true]
    · contradiction

namespace Fetch

/-- Neither did the caller give up nor is the time over. -/
structure Open (clock : Clock) (fetch : Fetch) : Prop where
  uncancelled : fetch.deadline.isCancelled clock = false
  inTime : clock.now < fetch.deadline.instant

/-- The next leg, which has not called its provider. -/
structure IsNext (fetch : Fetch) (leg : Leg) : Prop where
  index : leg.index = fetch.next
  uncalled : leg.call = none

/-- A clock after scopes were made or cancelled, at the same time. -/
inductive Ticks (clock : Clock) : Clock → Prop
  | same : Ticks clock clock
  | scope (parent : Token) : Ticks clock (clock.childToken parent).2
  | cancel (token : Token) : Ticks clock (clock.cancel token)

theorem Ticks.now {clock clock' : Clock} (ticks : Ticks clock clock') : clock'.now = clock.now := by
  cases ticks with
  | same => rfl
  | scope parent => rfl
  | cancel token => rfl

/-- What a turn makes of a fetch. Whether the timer still counts is left open where legs are looked at, but
it does not count again. -/
inductive Turned (clock : Clock) (fetch : Fetch) : Fetch → Clock → Prop
  | cancelled (own : fetch.deadline.isCancelled clock = true) :
      Turned clock fetch { fetch with legs := [], arrivals := [], result := some (.error .cancelled) }
        (clock.cancel fetch.scope)
  | expired (uncancelled : fetch.deadline.isCancelled clock = false)
      (own : fetch.deadline.instant ≤ clock.now) :
      Turned clock fetch { fetch with legs := [], arrivals := [], result := some (.error (.timeout .request)) }
        (clock.cancel fetch.scope)
  | decided {index : Nat} {ending : WorkEnd (List ForecastDay)} {rest : List (Nat × WorkEnd (List ForecastDay))}
      {result : Except Failure (List ForecastDay)} {primaryRunning : Bool} (undecided : fetch.Open clock)
      (arrived : fetch.arrivals = (index, ending) :: rest) (decides : decision? ending = some result)
      (still : primaryRunning = true → fetch.primaryRunning = true) :
      Turned clock fetch { fetch with primaryRunning, legs := [], arrivals := [], result := some result }
        (clock.cancel fetch.scope)
  /-- The next provider is asked instead. -/
  | replaced {index : Nat} {ending : WorkEnd (List ForecastDay)} {rest : List (Nat × WorkEnd (List ForecastDay))}
      {setback : Nat × Failure} {primaryRunning : Bool} {leg : Leg} (undecided : fetch.Open clock)
      (arrived : fetch.arrivals = (index, ending) :: rest) (failed : setback? fetch.size index ending = some setback)
      (still : primaryRunning = true → fetch.primaryRunning = true) (room : fetch.next < fetch.size)
      (new : fetch.IsNext leg) :
      Turned clock fetch { fetch with
        primaryRunning, arrivals := rest, failures := fetch.failures ++ [setback]
        legs := fetch.legs ++ [leg], next := fetch.next + 1 } (clock.childToken fetch.scope).2
  /-- There is no other provider, but a leg that still runs. -/
  | noted {index : Nat} {ending : WorkEnd (List ForecastDay)} {rest : List (Nat × WorkEnd (List ForecastDay))}
      {setback : Nat × Failure} {primaryRunning : Bool} (undecided : fetch.Open clock)
      (arrived : fetch.arrivals = (index, ending) :: rest) (failed : setback? fetch.size index ending = some setback)
      (still : primaryRunning = true → fetch.primaryRunning = true) (full : fetch.size ≤ fetch.next)
      (left : 0 < fetch.legs.length + rest.length) :
      Turned clock fetch { fetch with primaryRunning, arrivals := rest, failures := fetch.failures ++ [setback] }
        clock
  | exhausted {index : Nat} {ending : WorkEnd (List ForecastDay)} {setback : Nat × Failure} {primaryRunning : Bool}
      (undecided : fetch.Open clock) (arrived : fetch.arrivals = [(index, ending)])
      (failed : setback? fetch.size index ending = some setback)
      (still : primaryRunning = true → fetch.primaryRunning = true) (full : fetch.size ≤ fetch.next)
      (none : fetch.legs = []) :
      Turned clock fetch { fetch with
        primaryRunning, legs := [], arrivals := [], failures := fetch.failures ++ [setback]
        result := some (.error (totalFailure (fetch.failures ++ [setback]))) } (clock.cancel fetch.scope)
  | fired {leg : Leg} (undecided : fetch.Open clock) (idle : fetch.arrivals = [])
      (primary : fetch.primaryRunning = true) (room : fetch.next < fetch.size) (due : fetch.timerAt ≤ clock.now)
      (new : fetch.IsNext leg) :
      Turned clock fetch { fetch with primaryRunning := false, legs := fetch.legs ++ [leg], next := fetch.next + 1 }
        (clock.childToken fetch.scope).2

variable {fetch next : Fetch} {clock clock' : Clock}

theorem startLeg_eq (fetch : Fetch) (clock : Clock) :
    ∃ leg, fetch.IsNext leg ∧ fetch.startLeg clock =
      ({ fetch with legs := fetch.legs ++ [leg], next := fetch.next + 1 }, (clock.childToken fetch.scope).2) :=
  ⟨_, ⟨rfl, rfl⟩, rfl⟩

/-- A leg that ended settles the fetch, or adds a failure. -/
theorem arrive_eq (fetch : Fetch) (clock : Clock) (index : Nat) (ending : WorkEnd (List ForecastDay)) :
    ∃ primaryRunning, (primaryRunning = true → fetch.primaryRunning = true) ∧
      ((∃ result, decision? ending = some result ∧
          fetch.arrive clock index ending = { fetch with primaryRunning }.close clock result) ∨
        ∃ setback, setback? fetch.size index ending = some setback ∧
          fetch.arrive clock index ending = { fetch with primaryRunning }.fail clock setback.1 setback.2) := by
  cases ending with
  | value days => exact ⟨fetch.primaryRunning, id, .inl ⟨_, rfl, rfl⟩⟩
  | panicked => exact ⟨fetch.primaryRunning, id, .inr ⟨_, rfl, rfl⟩⟩
  | failure failure =>
    have counts : (if index == 0 then { fetch with primaryRunning := false } else fetch) =
        { fetch with primaryRunning := fetch.primaryRunning && index != 0 } := by
      cases first : index == 0 with
      | true => simp [bne, first]
      | false => simp [bne, first]
    refine ⟨fetch.primaryRunning && index != 0, fun still => (Bool.and_eq_true_iff.mp still).1, ?_⟩
    simp only [arrive, counts, decision?, setback?]
    cases failure.isTerminal with
    | true => exact .inl ⟨_, rfl, rfl⟩
    | false => exact .inr ⟨_, rfl, rfl⟩

/-- After a failure the next provider is asked, or the other leg goes on, or the fetch has failed. -/
theorem fail_turned {index : Nat} {ending : WorkEnd (List ForecastDay)}
    {rest : List (Nat × WorkEnd (List ForecastDay))} {setback : Nat × Failure} {primaryRunning : Bool}
    (undecided : fetch.Open clock) (arrived : fetch.arrivals = (index, ending) :: rest)
    (failed : setback? fetch.size index ending = some setback)
    (still : primaryRunning = true → fetch.primaryRunning = true)
    (same : { fetch with primaryRunning, arrivals := rest }.fail clock setback.1 setback.2 = (next, clock')) :
    fetch.Turned clock next clock' := by
  unfold fail at same
  simp only at same
  split at same
  · next room =>
    obtain ⟨leg, new, started⟩ := startLeg_eq
      { fetch with primaryRunning, arrivals := rest, failures := fetch.failures ++ [setback] } clock
    rw [started] at same
    cases same
    exact .replaced undecided arrived failed still room ⟨new.index, new.uncalled⟩
  · next full =>
    split at same
    · next none =>
      simp only [Bool.and_eq_true, List.isEmpty_iff] at none
      obtain ⟨legs, rfl⟩ := none
      cases same
      exact .exhausted undecided arrived failed still (Nat.le_of_not_lt full) legs
    · next left =>
      simp only [Bool.and_eq_true, List.isEmpty_iff] at left
      cases same
      refine .noted undecided arrived failed still (Nat.le_of_not_lt full) (Nat.pos_of_ne_zero ?_)
      intro zero
      exact left ⟨List.eq_nil_of_length_eq_zero (by omega), List.eq_nil_of_length_eq_zero (by omega)⟩

/-- A leg that calls its provider keeps its place. -/
theorem legBegan_indices (fetch : Fetch) (index call : Nat) :
    (fetch.legBegan index call).legs.map Leg.index = fetch.legs.map Leg.index := by
  simp only [legBegan, List.map_map]
  refine List.map_congr_left fun other _ => ?_
  simp only [Function.comp_apply]
  split <;> rfl

/-- A turn is one of these. -/
theorem turned_of_turn? (turn : fetch.turn? clock = some (next, clock')) :
    fetch.result = none ∧ fetch.Turned clock next clock' := by
  unfold turn? at turn
  split at turn
  · contradiction
  next undecided =>
  refine ⟨by simpa using undecided, ?_⟩
  split at turn
  · next cancelled =>
    cases turn
    exact .cancelled cancelled
  next uncancelled =>
  have uncancelled : fetch.deadline.isCancelled clock = false := by simpa using uncancelled
  split at turn
  · next expired =>
    cases turn
    exact .expired uncancelled (by simpa [Deadline.isExpired] using expired)
  next inTime =>
  have isOpen : fetch.Open clock := ⟨uncancelled, by simpa [Deadline.isExpired] using inTime⟩
  split at turn
  · next index ending rest arrived =>
    obtain ⟨primaryRunning, still, ⟨result, decides, same⟩ | ⟨setback, failed, same⟩⟩ :=
      arrive_eq { fetch with arrivals := rest } clock index ending
    · rw [same] at turn
      cases turn
      exact .decided isOpen arrived decides still
    · rw [same] at turn
      exact fail_turned isOpen arrived failed still (Option.some.inj turn)
  · next idle =>
    split at turn
    · next due =>
      simp only [timerDue, Bool.and_eq_true, decide_eq_true_eq] at due
      obtain ⟨leg, new, started⟩ := startLeg_eq { fetch with primaryRunning := false } clock
      rw [started] at turn
      cases turn
      exact .fired isOpen idle due.1.1 due.1.2 due.2 ⟨new.index, new.uncalled⟩
    · contradiction

theorem Turned.ticks (turned : fetch.Turned clock next clock') : Ticks clock clock' := by
  cases turned with
  | cancelled => exact .cancel _
  | expired => exact .cancel _
  | decided => exact .cancel _
  | replaced => exact .scope _
  | noted => exact .same
  | exhausted => exact .cancel _
  | fired => exact .scope _

/-- What a fetch is about stays. -/
theorem Turned.frame (turned : fetch.Turned clock next clock') :
    next.size = fetch.size ∧ next.timerAt = fetch.timerAt ∧ next.deadline = fetch.deadline := by
  cases turned <;> exact ⟨rfl, rfl, rfl⟩

theorem Turned.scope (turned : fetch.Turned clock next clock') : next.scope = fetch.scope := by
  cases turned <;> rfl

/-- Legs are only added in new scopes within that of the fetch, and by its instant. -/
def Adds (fetch : Fetch) (clock : Clock) (turned : Fetch × Clock) : Prop :=
  ∀ leg ∈ turned.1.legs, leg ∈ fetch.legs ∨
    leg.deadline = ⟨fetch.deadline.instant, (clock.childToken fetch.scope).1⟩ ∧
      turned.2 = (clock.childToken fetch.scope).2

theorem adds_startLeg (fetch : Fetch) (clock : Clock) : fetch.Adds clock (fetch.startLeg clock) := by
  intro leg member
  rcases List.mem_append.mp member with old | new
  · exact .inl old
  · rw [List.mem_singleton.mp new]
    exact .inr ⟨rfl, rfl⟩

theorem adds_close (fetch other : Fetch) (clock : Clock) (result : Except Failure (List ForecastDay)) :
    fetch.Adds clock (other.close clock result) :=
  fun _ member => absurd member List.not_mem_nil

theorem adds_fail (fetch : Fetch) (clock : Clock) (rank : Nat) (failure : Failure) :
    fetch.Adds clock (fetch.fail clock rank failure) := by
  unfold fail
  simp only
  split
  · exact adds_startLeg { fetch with failures := fetch.failures ++ [(rank, failure)] } clock
  · split
    · exact adds_close _ _ _ _
    · exact fun _ => .inl

theorem adds_arrive (fetch : Fetch) (clock : Clock) (index : Nat) (ending : WorkEnd (List ForecastDay)) :
    fetch.Adds clock (fetch.arrive clock index ending) := by
  obtain ⟨primaryRunning, _, ⟨result, _, same⟩ | ⟨setback, _, same⟩⟩ := arrive_eq fetch clock index ending
  · rw [same]
    exact adds_close _ _ _ _
  · rw [same]
    exact adds_fail { fetch with primaryRunning } clock setback.1 setback.2

theorem adds_turn (turn : fetch.turn? clock = some (next, clock')) : fetch.Adds clock (next, clock') := by
  unfold turn? at turn
  split at turn
  · contradiction
  split at turn
  · cases turn
    exact adds_close _ _ _ _
  split at turn
  · cases turn
    exact adds_close _ _ _ _
  split at turn
  · next index ending rest _ =>
    rw [← Option.some.inj turn]
    exact adds_arrive { fetch with arrivals := rest } clock index ending
  · split at turn
    · rw [← Option.some.inj turn]
      exact adds_startLeg { fetch with primaryRunning := false } clock
    · contradiction

/-- A fetch that cannot take a turn is decided, or nothing has happened that it would have to look at. -/
theorem turn?_eq_none_iff :
    fetch.turn? clock = none ↔ fetch.result.isSome = true ∨
      fetch.Open clock ∧ fetch.arrivals = [] ∧ fetch.timerDue clock.now = false := by
  unfold turn?
  cases fetch.result with
  | some result => simp
  | none =>
    cases cancelled : fetch.deadline.isCancelled clock with
    | true =>
      simp only [Option.isSome_none, Bool.false_eq_true, if_false, if_true, reduceCtorEq, false_or, false_iff]
      rintro ⟨isOpen, _⟩
      rw [isOpen.uncancelled] at cancelled
      contradiction
    | false =>
      by_cases past : fetch.deadline.instant ≤ clock.now
      · simp only [Option.isSome_none, Bool.false_eq_true, if_false, Deadline.isExpired, past, decide_true,
          if_true, reduceCtorEq, false_or, false_iff]
        rintro ⟨isOpen, _⟩
        exact absurd past (Nat.not_le.mpr isOpen.inTime)
      · have isOpen : fetch.Open clock := ⟨cancelled, Nat.lt_of_not_le past⟩
        simp only [Option.isSome_none, Bool.false_eq_true, if_false, Deadline.isExpired, past, decide_false, isOpen,
          true_and, false_or]
        cases fetch.arrivals with
        | nil => simp
        | cons first rest => simp

end Fetch

namespace Story

/-- A turn of the story is a turn of the fetch. -/
theorem turn?_eq_some_iff {story next : Story} :
    story.turn? = some next ↔
      ∃ fetch clock, story.fetch.turn? story.clock = some (fetch, clock) ∧ next = story.after fetch clock := by
  unfold turn?
  constructor
  · intro turn
    obtain ⟨⟨fetch, clock⟩, turned, rfl⟩ := Option.map_eq_some_iff.mp turn
    exact ⟨fetch, clock, turned, rfl⟩
  · rintro ⟨fetch, clock, turned, rfl⟩
    rw [turned]
    rfl

section

variable {story : Story} {fetch : Fetch} {clock : Clock}

@[simp] theorem after_fetch : (story.after fetch clock).fetch = fetch := rfl

@[simp] theorem after_clock : (story.after fetch clock).clock = clock := rfl

/-- A turn that starts no leg leaves those that were started. -/
theorem after_started_of_legs (legs : fetch.legs.length ≤ story.fetch.legs.length) :
    (story.after fetch clock).started = story.started := by
  simp only [after, List.drop_of_length_le legs, List.map_nil, List.append_nil]

theorem after_started_of_new {leg : Leg} (legs : fetch.legs = story.fetch.legs ++ [leg]) :
    (story.after fetch clock).started = story.started ++ [leg.index] := by
  simp [after, legs]

/-- A turn that decides the fetch is none of the timer. -/
theorem after_fired_of_decided (decided : fetch.result ≠ none) : (story.after fetch clock).fired = story.fired := by
  simp [after, decided]

/-- Neither is one that looks at a leg. -/
theorem after_fired_of_arrived {first : Nat × WorkEnd (List ForecastDay)}
    {rest : List (Nat × WorkEnd (List ForecastDay))} (arrived : story.fetch.arrivals = first :: rest) :
    (story.after fetch clock).fired = story.fired := by
  simp [after, arrived]

theorem after_fired_of_idle (idle : story.fetch.arrivals = []) (undecided : fetch.result = none) :
    (story.after fetch clock).fired = story.fired + 1 := by
  simp [after, idle, undecided]

end

/-- An undecided fetch that cannot take a turn has looked at everything. -/
theorem open_of_settled {story : Story} (settled : story.turn? = none) (undecided : story.fetch.result = none) :
    story.fetch.Open story.clock ∧ story.fetch.arrivals = [] := by
  unfold turn? at settled
  rcases Fetch.turn?_eq_none_iff.mp (Option.map_eq_none_iff.mp settled) with decided | ⟨isOpen, idle, _⟩
  · rw [undecided] at decided
    contradiction
  · exact ⟨isOpen, idle⟩

/-- What is true at first and after the first turn, if there is one, is true of a fetch that begins. -/
theorem begin_of_turn {clock : Clock} {size threshold : Nat} {deadline : Deadline} {property : Story → Prop}
    (first : property (opening clock size threshold deadline))
    (turned : ∀ next, (opening clock size threshold deadline).turn? = some next → property next) :
    property (begin clock size threshold deadline) := by
  unfold begin
  cases turn : (opening clock size threshold deadline).turn? with
  | none => exact first
  | some next => exact turned next turn

/-- The leg is one that the event is about. -/
theorem step?_legBegins {story next : Story} {index call : Nat}
    (step : story.step? (.legBegins index call) = some next) :
    ∃ leg ∈ story.fetch.legs, leg.index = index ∧ leg.call = none ∧
      next = { story with fetch := story.fetch.legBegan index call, called := story.called ++ [index] } := by
  simp only [step?] at step
  split at step
  · next found =>
    obtain ⟨leg, member, fits⟩ := List.any_eq_true.mp found
    simp only [Bool.and_eq_true, beq_iff_eq, Option.isNone_iff_eq_none] at fits
    cases step
    exact ⟨leg, member, fits.1, fits.2, rfl⟩
  · contradiction

theorem step?_legEnds {story next : Story} {index : Nat} {ending : WorkEnd (List ForecastDay)}
    (step : story.step? (.legEnds index ending) = some next) :
    ∃ leg ∈ story.fetch.legs, leg.index = index ∧
      next = { story with
        fetch := story.fetch.legEnded index ending
        ends := story.ends ++ [⟨story.clock.now, index, ending⟩] } := by
  simp only [step?] at step
  split at step
  · next found =>
    obtain ⟨leg, member, fits⟩ := List.any_eq_true.mp found
    simp only [Bool.and_eq_true, beq_iff_eq] at fits
    cases step
    exact ⟨leg, member, fits.1, rfl⟩
  · contradiction

/-- The fetch over a chain of that size, with that threshold and deadline, was begun at that instant. -/
structure Asked (story : Story) (instant size threshold : Nat) (deadline : Deadline) : Prop where
  begunAt : story.begunAt = instant
  size : story.fetch.size = size
  timerAt : story.fetch.timerAt = instant + threshold
  deadline : story.fetch.deadline = deadline

namespace Asked

variable {story next : Story} {instant size threshold : Nat} {deadline : Deadline}

theorem turn (asked : story.Asked instant size threshold deadline) (turn : story.turn? = some next) :
    next.Asked instant size threshold deadline := by
  obtain ⟨fetch, clock, turned, rfl⟩ := turn?_eq_some_iff.mp turn
  obtain ⟨_, turned⟩ := Fetch.turned_of_turn? turned
  obtain ⟨size, timerAt, deadline⟩ := turned.frame
  exact ⟨asked.begunAt, size.trans asked.size, timerAt.trans asked.timerAt, deadline.trans asked.deadline⟩

theorem step {event : Event} (asked : story.Asked instant size threshold deadline)
    (step : story.step? event = some next) : next.Asked instant size threshold deadline := by
  cases event with
  | turn => exact asked.turn step
  | legBegins index call =>
    obtain ⟨_, _, _, _, rfl⟩ := step?_legBegins step
    exact ⟨asked.begunAt, asked.size, asked.timerAt, asked.deadline⟩
  | legEnds index ending =>
    obtain ⟨_, _, _, rfl⟩ := step?_legEnds step
    exact ⟨asked.begunAt, asked.size, asked.timerAt, asked.deadline⟩
  | pass instant => cases step; exact ⟨asked.begunAt, asked.size, asked.timerAt, asked.deadline⟩
  | scope parent =>
    cases parent <;> cases step <;> exact ⟨asked.begunAt, asked.size, asked.timerAt, asked.deadline⟩
  | cancel token => cases step; exact ⟨asked.begunAt, asked.size, asked.timerAt, asked.deadline⟩

theorem opening (clock : Clock) (size threshold : Nat) (deadline : Deadline) :
    (Story.opening clock size threshold deadline).Asked clock.now size threshold deadline := by
  unfold Story.opening Fetch.begin
  cases size with
  | zero => exact ⟨rfl, rfl, rfl, rfl⟩
  | succ size => exact ⟨rfl, rfl, rfl, rfl⟩

theorem run {rule : Rule} {clock : Clock} (run : Run rule (begin clock size threshold deadline) story) :
    story.Asked clock.now size threshold deadline := by
  refine run.invariant (fun _ _ _ asked _ => asked.step) (begin_of_turn (opening ..) fun _ => (opening ..).turn)

end Asked

end Story

end HedgedForecast
