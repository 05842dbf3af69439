import HedgedForecast.Proofs.Hedge.Walk

/-! # What the timer covers

The timer starts a provider once, if the first one takes too long. A flag says whether it still counts. The error
of the first provider clears the flag, but its panic does not: a leg that panicked is known by no place in the
chain. So the timer fires while the first leg runs, or after it has panicked, when it only adds a provider to the
one that was already asked instead.
-/

namespace HedgedForecast

namespace Fetch

/-- The end of a leg stops the timer: it is an error of the first provider. -/
def stopsTimer (index : Nat) : WorkEnd (List ForecastDay) → Bool
  | .failure _ => index == 0
  | _ => false

theorem fail_primaryRunning (fetch : Fetch) (clock : Clock) (rank : Nat) (failure : Failure) :
    (fetch.fail clock rank failure).1.primaryRunning = fetch.primaryRunning := by
  unfold fail
  simp only
  split
  · rfl
  · split <;> rfl

theorem arrive_primaryRunning (fetch : Fetch) (clock : Clock) (index : Nat) (ending : WorkEnd (List ForecastDay)) :
    (fetch.arrive clock index ending).1.primaryRunning = (fetch.primaryRunning && !stopsTimer index ending) := by
  cases ending with
  | value days => exact (Bool.and_true _).symm
  | panicked => exact (fail_primaryRunning ..).trans (Bool.and_true _).symm
  | failure failure =>
    have cleared : (if index == 0 then { fetch with primaryRunning := false } else fetch).primaryRunning =
        (fetch.primaryRunning && !index == 0) := by
      cases index == 0 with
      | true => exact (Bool.and_false _).symm
      | false => exact (Bool.and_true _).symm
    unfold arrive
    simp only
    split
    · exact cleared
    · exact (fail_primaryRunning ..).trans cleared

/-- The flag of an undecided fetch after it has looked at a leg. -/
theorem turn?_primaryRunning {fetch next : Fetch} {clock clock' : Clock} {index : Nat}
    {ending : WorkEnd (List ForecastDay)} {rest : List (Nat × WorkEnd (List ForecastDay))}
    (turn : fetch.turn? clock = some (next, clock')) (undecided : fetch.result = none) (isOpen : fetch.Open clock)
    (arrived : fetch.arrivals = (index, ending) :: rest) :
    next.primaryRunning = (fetch.primaryRunning && !stopsTimer index ending) := by
  have inTime : fetch.deadline.isExpired clock = false := by
    simpa [Deadline.isExpired] using isOpen.inTime
  unfold turn? at turn
  simp only [undecided, Option.isSome_none, isOpen.uncancelled, inTime, arrived, Bool.false_eq_true, if_false,
    Option.some.injEq] at turn
  have looked := arrive_primaryRunning { fetch with arrivals := rest, result := none } clock index ending
  rwa [turn] at looked

end Fetch

namespace Story

/-- The leg of the first provider runs. -/
def PrimaryRuns (story : Story) : Prop :=
  0 ∈ story.fetch.legs.map Leg.index

/-- The leg of the first provider has ended like this. -/
def PrimaryEnded (story : Story) (ending : WorkEnd (List ForecastDay)) : Prop :=
  ∃ leg ∈ story.ends, leg.index = 0 ∧ leg.ending = ending

/-- The leg of the first provider panicked. -/
def PrimaryPanicked (story : Story) : Prop :=
  ∃ panic, story.PrimaryEnded (.panicked panic)

/-- The timer starts a provider. -/
def Fires (story next : Story) : Prop :=
  story.turn? = some next ∧ next.fired = story.fired + 1

/-- A provider is started because the fetch has seen a leg fail. -/
def Replaces (story next : Story) : Prop :=
  story.turn? = some next ∧ ∃ leg ∈ story.ends, ∃ setback,
    setback? story.fetch.size leg.index leg.ending = some setback ∧
      next.fetch.failures = story.fetch.failures ++ [setback]

/-- As long as the fetch is undecided the flag says that the timer has neither fired nor been stopped by a leg that
the fetch has looked at. -/
def Flagged (story : Story) : Prop :=
  story.fetch.result = none → (story.fetch.primaryRunning = true ↔
    story.fired = 0 ∧ ∀ leg ∈ story.ends.take story.fetch.failures.length,
      Fetch.stopsTimer leg.index leg.ending = false)

section Flag

variable {story later : Story} {event : Event}

/-- What the fetch looks at next is the first end that it has not looked at. -/
theorem Books.take_looked (books : story.Books) {index : Nat} {ending : WorkEnd (List ForecastDay)}
    {rest : List (Nat × WorkEnd (List ForecastDay))} (arrived : story.fetch.arrivals = (index, ending) :: rest) :
    ∃ leg ∈ story.ends, leg.index = index ∧ leg.ending = ending ∧
      story.ends.take (story.fetch.failures.length + 1) = story.ends.take story.fetch.failures.length ++ [leg] := by
  obtain ⟨looked, leg, waiting, ends, same, same', _, failures⟩ := books.of_arrived arrived
  have length := length_looked failures
  refine ⟨leg, by simp [ends], same, same', ?_⟩
  rw [ends, ← length, List.take_left, ← List.singleton_append, ← List.append_assoc]
  exact List.take_left' (by simp)

/-- When nothing is left to look at, the fetch has looked at all ends. -/
theorem Books.take_all (books : story.Books) (idle : story.fetch.arrivals = []) :
    story.ends.take story.fetch.failures.length = story.ends := by
  have ends := books.length_ends
  rw [idle, List.length_nil, Nat.add_zero] at ends
  rw [← ends, List.take_length]

theorem Flagged.turn (flagged : story.Flagged) (walked : story.Walked) (turn : story.turn? = some later) :
    later.Flagged := by
  obtain ⟨fetch, clock, turned, rfl⟩ := turn?_eq_some_iff.mp turn
  obtain ⟨undecided, how⟩ := Fetch.turned_of_turn? turned
  have books := walked.books undecided
  have before := flagged undecided
  have looked {index : Nat} {ending : WorkEnd (List ForecastDay)} {rest : List (Nat × WorkEnd (List ForecastDay))}
      {primaryRunning : Bool} (arrived : story.fetch.arrivals = (index, ending) :: rest)
      (flag : primaryRunning = (story.fetch.primaryRunning && !Fetch.stopsTimer index ending)) :
      primaryRunning = true ↔ story.fired = 0 ∧ ∀ leg ∈ story.ends.take (story.fetch.failures.length + 1),
        Fetch.stopsTimer leg.index leg.ending = false := by
    obtain ⟨leg, _, rfl, rfl, more⟩ := books.take_looked arrived
    rw [flag, more, Bool.and_eq_true, before, Bool.not_eq_true', List.forall_mem_append, List.forall_mem_singleton,
      and_assoc]
  cases how with
  | cancelled => exact nofun
  | expired => exact nofun
  | decided => exact nofun
  | exhausted => exact nofun
  | replaced isOpen arrived =>
    intro _
    rw [after_fired_of_arrived arrived, after_fetch, List.length_append, List.length_singleton]
    exact looked arrived (Fetch.turn?_primaryRunning turned undecided isOpen arrived)
  | noted isOpen arrived =>
    intro _
    rw [after_fired_of_arrived arrived, after_fetch, List.length_append, List.length_singleton]
    exact looked arrived (Fetch.turn?_primaryRunning turned undecided isOpen arrived)
  | @fired leg _ idle =>
    intro _
    have fires : (story.after { story.fetch with
          primaryRunning := false, legs := story.fetch.legs ++ [leg], next := story.fetch.next + 1 }
        (story.clock.childToken story.fetch.scope).2).fired = story.fired + 1 := after_fired_of_idle idle undecided
    rw [fires]
    simp

theorem Flagged.step (flagged : story.Flagged) (walked : story.Walked) (step : story.step? event = some later) :
    later.Flagged := by
  cases event with
  | turn => exact flagged.turn walked step
  | legBegins index call =>
    obtain ⟨_, _, _, _, rfl⟩ := step?_legBegins step
    exact flagged
  | legEnds index ending =>
    obtain ⟨leg, _, _, rfl⟩ := step?_legEnds step
    intro undecided
    have ends := (walked.books undecided).length_ends
    have looked : (story.ends ++ [LegEnd.mk story.clock.now index ending]).take story.fetch.failures.length =
        story.ends.take story.fetch.failures.length := List.take_append_of_le_length (by omega)
    have before := flagged undecided
    rwa [← looked] at before
  | pass instant => cases step; exact flagged
  | scope parent => cases parent <;> cases step <;> exact flagged
  | cancel token => cases step; exact flagged

theorem Flagged.opening (clock : Clock) (size threshold : Nat) (deadline : Deadline) :
    Flagged (Story.opening clock size threshold deadline) := by
  unfold Story.opening Fetch.begin
  cases size with
  | zero => exact nofun
  | succ size => exact fun _ => ⟨fun _ => ⟨rfl, nofun⟩, fun _ => rfl⟩

end Flag

/-- Why and when a fetch over a chain of that size with that threshold asks more providers than the first. -/
structure Hedging (story : Story) (size threshold : Nat) : Prop where
  /-- A provider is started by the timer or in the place of one that failed. -/
  causes : ∀ next, story.turn? = some next → next.started ≠ story.started → story.Fires next ∨ story.Replaces next
  /-- When the timer starts one, the first provider's leg runs, unless it has panicked. -/
  covered : ∀ next, story.Fires next → (story.PrimaryRuns ↔ ¬ story.PrimaryPanicked)
  /-- After an error of the first provider the timer starts none. -/
  stopped : ∀ failure, story.PrimaryEnded (.failure failure) → ∀ next, ¬ story.Fires next
  /-- A fetch that has looked at all ends lets its timer start a provider exactly under these conditions. -/
  fires_iff : story.fetch.result = none → story.fetch.Open story.clock → story.fetch.arrivals = [] →
    ((∃ next, story.Fires next) ↔ story.fetch.next < size ∧ story.begunAt + threshold ≤ story.clock.now ∧
      story.fired = 0 ∧ (story.PrimaryRuns ∨ story.PrimaryPanicked))

section Law

variable {story next : Story}

/-- The timer fires only when there is nothing to look at. -/
theorem Fires.spec (fires : story.Fires next) : story.fetch.result = none ∧ story.fetch.Open story.clock ∧
    story.fetch.arrivals = [] ∧ story.fetch.primaryRunning = true ∧ story.fetch.next < story.fetch.size ∧
    story.fetch.timerAt ≤ story.clock.now := by
  obtain ⟨turn, more⟩ := fires
  obtain ⟨fetch, clock, turned, rfl⟩ := turn?_eq_some_iff.mp turn
  obtain ⟨undecided, how⟩ := Fetch.turned_of_turn? turned
  have looked {first : Nat × WorkEnd (List ForecastDay)} {rest : List (Nat × WorkEnd (List ForecastDay))}
      (arrived : story.fetch.arrivals = first :: rest) : False := by
    rw [after_fired_of_arrived arrived] at more
    omega
  have decided (spent : fetch.result ≠ none) : False := by
    rw [after_fired_of_decided spent] at more
    omega
  cases how with
  | cancelled => exact (decided (Option.some_ne_none _)).elim
  | expired => exact (decided (Option.some_ne_none _)).elim
  | decided _ arrived => exact (looked arrived).elim
  | exhausted _ arrived => exact (looked arrived).elim
  | replaced _ arrived => exact (looked arrived).elim
  | noted _ arrived => exact (looked arrived).elim
  | fired isOpen idle primary room due => exact ⟨undecided, isOpen, idle, primary, room, due⟩

theorem Walked.causes (walked : story.Walked) (turn : story.turn? = some next)
    (more : next.started ≠ story.started) : story.Fires next ∨ story.Replaces next := by
  obtain ⟨fetch, clock, turned, rfl⟩ := turn?_eq_some_iff.mp turn
  obtain ⟨undecided, how⟩ := Fetch.turned_of_turn? turned
  have books := walked.books undecided
  have closed (legs : fetch.legs = []) : False := more (after_started_of_legs (by simp [legs]))
  cases how with
  | cancelled => exact (closed rfl).elim
  | expired => exact (closed rfl).elim
  | decided => exact (closed rfl).elim
  | exhausted => exact (closed rfl).elim
  | noted => exact (more (after_started_of_legs (Nat.le_refl _))).elim
  | replaced _ arrived failed =>
    obtain ⟨leg, member, rfl, rfl, _⟩ := books.take_looked arrived
    exact .inr ⟨turn, leg, member, _, failed, rfl⟩
  | fired _ idle => exact .inl ⟨turn, after_fired_of_idle idle undecided⟩

/-- An undecided fetch has started its first leg, which runs or has ended, but not both. -/
theorem Books.primary (books : story.Books) :
    (story.PrimaryRuns ∨ ∃ ending, story.PrimaryEnded ending) ∧
      ∀ ending, story.PrimaryRuns → ¬ story.PrimaryEnded ending := by
  have left := books.left
  constructor
  · have first : 0 ∈ story.fetch.legs.map Leg.index ++ story.ends.map LegEnd.index :=
      books.legs.mem_iff.mpr (List.mem_range.mpr (by omega))
    rcases List.mem_append.mp first with runs | ended
    · exact .inl runs
    · obtain ⟨leg, member, own⟩ := List.mem_map.mp ended
      exact .inr ⟨leg.ending, leg, member, own, rfl⟩
  · rintro ending runs ⟨leg, member, own, _⟩
    exact (List.nodup_append.mp books.nodup).2.2 0 runs leg.index (List.mem_map_of_mem member) own.symm

/-- All that an undecided fetch has looked at are failures. -/
theorem Books.no_value (books : story.Books) (idle : story.fetch.arrivals = []) (days : List ForecastDay) :
    ¬ story.PrimaryEnded (.value days) := by
  rintro ⟨leg, member, _, success⟩
  obtain ⟨looked, waiting, ends, arrivals, failures⟩ := books.told
  rw [idle, List.map_eq_nil_iff] at arrivals
  rw [arrivals, List.append_nil] at ends
  have absurd : (none : Option (Nat × Failure)) ∈ story.fetch.failures.map some := by
    rw [← failures, ← ends]
    exact List.mem_map.mpr ⟨leg, member, by rw [success]; rfl⟩
  obtain ⟨_, _, absurd⟩ := List.mem_map.mp absurd
  contradiction

/-- A leg ends once. -/
theorem Books.primary_unique (books : story.Books) {ending other : WorkEnd (List ForecastDay)}
    (ended : story.PrimaryEnded ending) (ended' : story.PrimaryEnded other) : ending = other := by
  obtain ⟨leg, member, own, rfl⟩ := ended
  obtain ⟨leg', member', own', rfl⟩ := ended'
  have once := (List.nodup_append.mp books.nodup).2.1
  rw [List.inj_on_of_nodup_map once member member' (own.trans own'.symm)]

/-- A fetch that has looked at all ends has its flag set while the timer has not fired and the first provider has
not given an error. -/
theorem Flagged.primary_iff (flagged : story.Flagged) (books : story.Books) (undecided : story.fetch.result = none)
    (idle : story.fetch.arrivals = []) : story.fetch.primaryRunning = true ↔
      story.fired = 0 ∧ (story.PrimaryRuns ∨ story.PrimaryPanicked) := by
  rw [flagged undecided, books.take_all idle]
  refine and_congr_right fun _ => ⟨fun unstopped => ?_, fun covered leg member => ?_⟩
  · rcases books.primary.1 with runs | ⟨ending, ended⟩
    · exact .inl runs
    · cases ending with
      | value days => exact absurd ended (books.no_value idle days)
      | panicked panic => exact .inr ⟨panic, ended⟩
      | failure failure =>
        obtain ⟨leg, member, own, same⟩ := ended
        have still := unstopped leg member
        simp [Fetch.stopsTimer, own, same] at still
  · cases same : leg.ending with
    | value days => rfl
    | panicked => rfl
    | failure failure =>
      rw [Fetch.stopsTimer, beq_eq_false_iff_ne]
      intro own
      have ended : story.PrimaryEnded (.failure failure) := ⟨leg, member, own, same⟩
      rcases covered with runs | ⟨_, panicked⟩
      · exact books.primary.2 _ runs ended
      · exact absurd (books.primary_unique ended panicked) nofun

/-- The timer fires if it is due and still counts. -/
theorem exists_fires (undecided : story.fetch.result = none) (isOpen : story.fetch.Open story.clock)
    (idle : story.fetch.arrivals = []) (primary : story.fetch.primaryRunning = true)
    (room : story.fetch.next < story.fetch.size) (due : story.fetch.timerAt ≤ story.clock.now) :
    ∃ next, story.Fires next := by
  have inTime : story.fetch.deadline.isExpired story.clock = false := by
    simpa [Deadline.isExpired] using isOpen.inTime
  have turn : story.fetch.turn? story.clock =
      some ({ story.fetch with primaryRunning := false }.startLeg story.clock) := by
    unfold Fetch.turn?
    simp [undecided, isOpen.uncancelled, inTime, idle, Fetch.timerDue, primary, room, due]
  exact ⟨_, turn?_eq_some_iff.mpr ⟨_, _, turn, rfl⟩, after_fired_of_idle idle undecided⟩

theorem hedging_of_flagged {instant size threshold : Nat} {deadline : Deadline} (walked : story.Walked)
    (flagged : story.Flagged) (asked : story.Asked instant size threshold deadline) : story.Hedging size threshold := by
  have covered {next : Story} (fires : story.Fires next) : story.Books ∧ story.fired = 0 ∧
      (story.PrimaryRuns ∨ story.PrimaryPanicked) := by
    obtain ⟨undecided, _, idle, primary, _⟩ := fires.spec
    have books := walked.books undecided
    exact ⟨books, (flagged.primary_iff books undecided idle).mp primary⟩
  constructor
  · exact fun next turn more => walked.causes turn more
  · intro next fires
    obtain ⟨books, _, either⟩ := covered fires
    exact ⟨fun runs ⟨_, panicked⟩ => books.primary.2 _ runs panicked, either.resolve_right⟩
  · intro failure ended next fires
    obtain ⟨books, _, runs | ⟨_, panicked⟩⟩ := covered fires
    · exact books.primary.2 _ runs ended
    · exact absurd (books.primary_unique ended panicked) nofun
  · intro undecided isOpen idle
    have flag := flagged.primary_iff (walked.books undecided) undecided idle
    rw [← asked.size, asked.begunAt, ← asked.timerAt, ← flag]
    constructor
    · rintro ⟨next, fires⟩
      obtain ⟨_, _, _, primary, room, due⟩ := fires.spec
      exact ⟨room, due, primary⟩
    · rintro ⟨room, due, primary⟩
      exact exists_fires undecided isOpen idle primary room due

/-- Whatever providers do, the timer of a fetch covers the first one, whether it runs or has panicked. -/
theorem hedging_of_reached {rule : Rule} {clock : Clock} {size threshold : Nat} {deadline : Deadline}
    (reached : story = opening clock size threshold deadline ∨ Run rule (begin clock size threshold deadline) story) :
    story.Hedging size threshold := by
  have flagged := Flagged.opening clock size threshold deadline
  rcases reached with rfl | run
  · exact hedging_of_flagged (.opening ..) flagged (.opening ..)
  · have kept : story.Walked ∧ story.Flagged := by
      refine @Run.invariant rule _ _ (fun story => story.Walked ∧ story.Flagged) run
        (fun _ _ _ both _ step => ⟨both.1.step step, both.2.step both.1 step⟩) ?_
      refine @begin_of_turn clock size threshold deadline (fun story => story.Walked ∧ story.Flagged)
        ⟨.opening .., flagged⟩ fun _ turn => ⟨?_, ?_⟩
      · exact (Walked.opening ..).turn turn
      · exact flagged.turn (.opening ..) turn
    exact hedging_of_flagged kept.1 kept.2 (Asked.run run)

end Law

/-- The first provider panics at once, and the second one is asked instead until the timer is due. -/
def startled : List Event :=
  [.legBegins 0 0, .legEnds 0 (.panicked ⟨"2", none⟩), .turn, .legBegins 1 1, .pass 10]

theorem hedging_startled :
    ∃ story, Run (fun _ _ => True) (begin {} 3 10 ⟨100, ⟨[]⟩⟩) story ∧ story.PrimaryPanicked ∧
      story.started = [0, 1] ∧ (∃ next, story.Fires next ∧ next.started = [0, 1, 2]) ∧ story.Hedging 3 10 := by
  obtain ⟨story, steps, panicked, started, fires⟩ : ∃ story,
      startled.foldlM step? (begin {} 3 10 ⟨100, ⟨[]⟩⟩) = some story ∧ story.PrimaryPanicked ∧
        story.started = [0, 1] ∧ ∃ next, story.Fires next ∧ next.started = [0, 1, 2] :=
    ⟨_, rfl, ⟨_, _, List.mem_singleton_self _, rfl, rfl⟩, rfl, _, ⟨rfl, rfl⟩, rfl⟩
  have run : Run (fun _ _ => True) (begin {} 3 10 ⟨100, ⟨[]⟩⟩) story := .of_events steps
  exact ⟨story, run, panicked, started, fires, hedging_of_reached (.inr run)⟩

/-- So the timer does start a provider when the first one runs no more. -/
theorem not_primaryRuns_startled :
    ¬ ∀ (clock : Clock) (size threshold : Nat) (deadline : Deadline) (story next : Story),
      Run (fun _ _ => True) (begin clock size threshold deadline) story → story.Fires next → story.PrimaryRuns := by
  intro covered
  obtain ⟨story, steps, gone, next, fires⟩ : ∃ story,
      startled.foldlM step? (begin {} 3 10 ⟨100, ⟨[]⟩⟩) = some story ∧ story.fetch.legs.map Leg.index = [1] ∧
        ∃ next, story.Fires next :=
    ⟨_, rfl, rfl, _, rfl, rfl⟩
  have runs := covered {} 3 10 ⟨100, ⟨[]⟩⟩ story next (.of_events steps) fires
  rw [PrimaryRuns, gone] at runs
  exact absurd runs (by decide)

end Story

end HedgedForecast
