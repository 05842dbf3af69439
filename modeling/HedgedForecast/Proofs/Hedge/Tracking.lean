import HedgedForecast.Proofs.Arrays
import HedgedForecast.Proofs.Hedge.Decision
import HedgedForecast.Proofs.Simulation
import HedgedForecast.Scenario.Hedging
import Mathlib.Logic.Relation

/-! # The fetches of a hedger

A hedger runs fetches side by side and calls providers for them. To each of its fetches the others are only
scopes that are made and cancelled, and the providers are legs that begin and end. So as long as nobody drops
it, a fetch of a hedger follows a story, and what holds of stories holds of it.
-/

namespace HedgedForecast

/-- What a fetch or one of its legs does in a turn. -/
inductive Fetch.Acts (clock : Clock) (fetch : Fetch) : Fetch → Clock → Prop
  | legBegins {leg : Leg} (call : Nat) (member : leg ∈ fetch.legs) (uncalled : leg.call = none) :
      Acts clock fetch (fetch.legBegan leg.index call) clock
  | legEnds {leg : Leg} (ending : WorkEnd (List ForecastDay)) (member : leg ∈ fetch.legs)
      (called : leg.call.isSome = true) : Acts clock fetch (fetch.legEnded leg.index ending) clock
  | turn {next : Fetch} {clock' : Clock} (turned : fetch.turn? clock = some (next, clock')) :
      Acts clock fetch next clock'

theorem Fetch.Acts.ticks {clock clock' : Clock} {fetch next : Fetch} (acts : Fetch.Acts clock fetch next clock') :
    Fetch.Ticks clock clock' := by
  cases acts with
  | legBegins | legEnds => exact .same
  | turn turned => exact (Fetch.turned_of_turn? turned).2.ticks

/-- The scopes of a new fetch are made, and cancelled if it ends at once. -/
theorem Fetch.begin_ticks (clock : Clock) (size threshold : Nat) (deadline : Deadline) :
    Relation.ReflTransGen Fetch.Ticks clock
      (((Fetch.begin clock size threshold deadline).1.turn? (Fetch.begin clock size threshold deadline).2).getD
        (Fetch.begin clock size threshold deadline)).2 := by
  have begun : Relation.ReflTransGen Fetch.Ticks clock (Fetch.begin clock size threshold deadline).2 := by
    cases size with
    | zero => exact .single (.scope deadline.token)
    | succ size =>
      have own : Relation.ReflTransGen Fetch.Ticks clock (clock.childToken deadline.token).2 := .single (.scope _)
      exact own.tail (.scope (clock.childToken deadline.token).1)
  cases turn : (Fetch.begin clock size threshold deadline).1.turn? (Fetch.begin clock size threshold deadline).2 with
  | none => exact begun
  | some turned => exact begun.tail (Fetch.turned_of_turn? turn).2.ticks

namespace Story

variable {story : Story} {clock : Clock}

/-- A story goes on with what its fetch does. -/
theorem follow_acts {next : Fetch} (acts : Fetch.Acts story.clock story.fetch next clock) :
    ∃ later, Run Prompt story later ∧ later.fetch = next ∧ later.clock = clock := by
  have follow {event : Event} {later : Story} (allowed : story.Prompt event)
      (step : story.step? event = some later) : Run Prompt story later := .single allowed step
  cases acts with
  | @legBegins leg call member uncalled =>
    have allowed : story.Prompt (.legBegins leg.index call) := trivial
    have found : (story.fetch.legs.any fun other => other.index == leg.index && other.call.isNone) = true :=
      List.any_eq_true.mpr ⟨leg, member, by simp [uncalled]⟩
    exact ⟨_, follow allowed (if_pos found), rfl, rfl⟩
  | @legEnds leg ending member called =>
    have allowed : story.Prompt (.legEnds leg.index ending) := trivial
    have found : (story.fetch.legs.any fun other => other.index == leg.index && other.call.isSome) = true :=
      List.any_eq_true.mpr ⟨leg, member, by simp [called]⟩
    exact ⟨_, follow allowed (if_pos found), rfl, rfl⟩
  | turn turned =>
    have allowed : story.Prompt .turn := trivial
    exact ⟨_, follow allowed (turn?_eq_some_iff.mpr ⟨_, _, turned, rfl⟩), rfl, rfl⟩

/-- The scopes of others are nothing to a fetch. -/
theorem follow_ticks (ticks : Relation.ReflTransGen Fetch.Ticks story.clock clock) :
    ∃ later, Run Prompt story later ∧ later.fetch = story.fetch ∧ later.clock = clock := by
  induction ticks with
  | refl => exact ⟨story, .nil, rfl, rfl⟩
  | tail _ tick ih =>
    obtain ⟨middle, run, same, rfl⟩ := ih
    cases tick with
    | same => exact ⟨middle, run, same, rfl⟩
    | scope parent =>
      have allowed : middle.Prompt (.scope (some parent)) := trivial
      exact ⟨_, run.snoc allowed rfl, same, rfl⟩
    | cancel token =>
      have allowed : middle.Prompt (.cancel token) := trivial
      exact ⟨_, run.snoc allowed rfl, same, rfl⟩

end Story

namespace Hedger

/-- What may happen to a hedger and to the scopes around it. -/
inductive Event where
  | begin (request : Request) (deadline : Deadline)
  | turn
  | drop (number : Nat)
  | pass (instant : Nat)
  | scope (parent : Option Token)
  | cancel (token : Token)

/-- The hedger and the clock after an event; what cannot happen is no event. -/
def step? (hedger : Hedger) (clock : Clock) : Event → Option (Hedger × Clock)
  | .begin request deadline => some (hedger.begin clock request deadline).2
  | .turn => hedger.turn? clock
  | .drop number => some (hedger.drop clock number)
  | .pass instant => some (hedger, clock.moveTo instant)
  | .scope none => some (hedger, clock.freshToken.2)
  | .scope (some parent) => some (hedger, (clock.childToken parent).2)
  | .cancel token => some (hedger, clock.cancel token)

/-- Time passes when there is no turn left, and the deadlines of undecided fetches are looked at in time. -/
def Allows (hedger : Hedger) (clock : Clock) : Event → Prop
  | .pass instant => hedger.turn? clock = none ∧
    ∀ run ∈ hedger.fetches, run.fetch.result = none → instant ≤ run.fetch.deadline.instant
  | _ => True

/-- A hedger goes on without dropping the fetch of that number. -/
inductive Run (number : Nat) (source : Hedger × Clock) : Hedger × Clock → Prop
  | nil : Run number source source
  | snoc {middle target : Hedger × Clock} {event : Event} (run : Run number source middle)
      (kept : event ≠ .drop number) (allowed : middle.1.Allows middle.2 event)
      (step : middle.1.step? middle.2 event = some target) : Run number source target

/-- The fetch of that number is that of the story, at the same time. -/
structure Tracks (hedger : Hedger) (clock : Clock) (number : Nat) (story : Story) : Prop where
  fetch : hedger.fetches[number]?.map FetchRun.fetch = some story.fetch
  clock : story.clock = clock

theorem abandon_fetches (hedger : Hedger) (now : Nat) (legs : List Leg) :
    (hedger.abandon now legs).fetches = hedger.fetches := by
  unfold abandon
  induction legs.filterMap Leg.call generalizing hedger with
  | nil => rfl
  | cons call calls ih => exact ih (hedger.endCall now call .abandoned)

/-- To stop the legs of a fetch changes no other fetch. -/
theorem stop_fetches (hedger : Hedger) (now : Nat) (legs : List Leg) (number : Nat) (fetch : Fetch) :
    ((hedger.abandon now legs).setFetch number fetch).fetches =
      hedger.fetches.modify number fun run => { run with fetch } := by
  rw [setFetch, abandon_fetches]

variable {hedger next : Hedger} {clock clock' : Clock} {number : Nat} {run : FetchRun} {leg : Leg}

theorem beginLeg?_eq_some (begun : hedger.beginLeg? clock number run leg = some next) :
    leg.call = none ∧ ∃ provider, hedger.providers[leg.index]? = some provider ∧
      next = setFetch { hedger with
        providers := hedger.providers.set leg.index (provider.call clock run.request leg.deadline).2
        calls := hedger.calls.push (provider.call clock run.request leg.deadline).1 }
          number (run.fetch.legBegan leg.index hedger.calls.size) := by
  unfold beginLeg? at begun
  split at begun
  · contradiction
  next uncalled =>
  split at begun
  · next provider there =>
    refine ⟨by simpa using uncalled, provider, there, ?_⟩
    generalize provider.call clock run.request leg.deadline = called at begun ⊢
    rw [← Option.some.inj begun]
    simp only [Array.size_push, Nat.add_sub_cancel]
  · contradiction

theorem endLeg?_eq_some (ended : hedger.endLeg? clock number run leg = some next) :
    ∃ call found ending outcome, leg.call = some call ∧ hedger.calls[call]? = some found ∧
      found.ending? clock = some (ending, outcome) ∧
      next = (hedger.endCall clock.now call outcome).setFetch number (run.fetch.legEnded leg.index ending) := by
  simp only [endLeg?, Option.bind_eq_bind, Option.bind_eq_some_iff] at ended
  obtain ⟨call, called, found, there, ⟨ending, outcome⟩, ends, same⟩ := ended
  exact ⟨call, found, ending, outcome, called, there, ends, (Option.some.inj same).symm⟩

/-- A fetch whose turn decides it stops its legs. -/
theorem turnFetch?_eq_some (turn : hedger.turnFetch? clock number run = some (next, clock')) :
    ∃ fetch, run.fetch.turn? clock = some (fetch, clock') ∧
      (fetch.result ≠ none ∧ next = (hedger.abandon clock'.now run.fetch.legs).setFetch number fetch ∨
        fetch.result = none ∧ next = hedger.setFetch number fetch) := by
  obtain ⟨⟨fetch, later⟩, turned, same⟩ := Option.map_eq_some_iff.mp turn
  cases same
  refine ⟨fetch, turned, ?_⟩
  split
  · next decided => exact .inl ⟨Option.isSome_iff_ne_none.mp decided, rfl⟩
  · next undecided => exact .inr ⟨by simpa using undecided, rfl⟩

/-- Only a fetch that is undecided is stopped from outside. -/
theorem drop_eq (hedger : Hedger) (clock : Clock) (number : Nat) :
    hedger.drop clock number = (hedger, clock) ∧
        (∀ run, hedger.fetches[number]? = some run → run.fetch.result ≠ none) ∨
      ∃ run, hedger.fetches[number]? = some run ∧ run.fetch.result = none ∧
        hedger.drop clock number =
          ((hedger.abandon clock.now run.fetch.legs).setFetch number (run.fetch.close clock (.error .cancelled)).1,
            (run.fetch.close clock (.error .cancelled)).2) := by
  unfold drop
  cases hedger.fetches[number]? with
  | none => exact .inl ⟨rfl, nofun⟩
  | some run =>
    cases result : run.fetch.result with
    | some decided => exact .inl ⟨by simp [result], by simp [result]⟩
    | none => exact .inr ⟨run, rfl, result, by simp [result]; rfl⟩

/-- One of its fetches or their legs does something. -/
inductive Works (hedger : Hedger) (clock : Clock) : Hedger → Clock → Prop
  | beginLeg {number : Nat} {run : FetchRun} {leg : Leg} {next : Hedger} (present : hedger.fetches[number]? = some run)
      (member : leg ∈ run.fetch.legs) (begun : hedger.beginLeg? clock number run leg = some next) :
      Works hedger clock next clock
  | endLeg {number : Nat} {run : FetchRun} {leg : Leg} {next : Hedger} (present : hedger.fetches[number]? = some run)
      (member : leg ∈ run.fetch.legs) (ended : hedger.endLeg? clock number run leg = some next) :
      Works hedger clock next clock
  | turnFetch {number : Nat} {run : FetchRun} {next : Hedger} {clock' : Clock}
      (present : hedger.fetches[number]? = some run)
      (turn : hedger.turnFetch? clock number run = some (next, clock')) : Works hedger clock next clock'

/-- What a hedger does by itself one of its fetches does. -/
theorem Works.acts (works : hedger.Works clock next clock') :
    ∃ place run fetch, hedger.fetches[place]? = some run ∧ Fetch.Acts clock run.fetch fetch clock' ∧
      next.fetches = hedger.fetches.modify place fun run' => { run' with fetch } := by
  cases works with
  | beginLeg present member begun =>
    obtain ⟨uncalled, _, _, rfl⟩ := beginLeg?_eq_some begun
    exact ⟨_, _, _, present, .legBegins _ member uncalled, rfl⟩
  | endLeg present member ended =>
    obtain ⟨call, _, ending, _, called, _, _, rfl⟩ := endLeg?_eq_some ended
    exact ⟨_, _, _, present, .legEnds ending member (Option.isSome_iff_exists.mpr ⟨call, called⟩), rfl⟩
  | turnFetch present turn =>
    obtain ⟨fetch, turned, ⟨_, rfl⟩ | ⟨_, rfl⟩⟩ := turnFetch?_eq_some turn
    · exact ⟨_, _, fetch, present, .turn turned, stop_fetches ..⟩
    · exact ⟨_, _, fetch, present, .turn turned, rfl⟩

theorem turn?_works (turn : hedger.turn? clock = some (next, clock')) : hedger.Works clock next clock' := by
  obtain ⟨number, _, found⟩ := List.exists_of_findSome?_eq_some turn
  split at found
  · next run present =>
    rw [Option.orElse_eq_or] at found
    rcases Option.or_eq_some_iff.mp found with leg | ⟨_, own⟩
    · obtain ⟨_, legTurn, same⟩ := Option.map_eq_some_iff.mp leg
      cases same
      obtain ⟨leg, member, one⟩ := List.exists_of_findSome?_eq_some legTurn
      rw [Option.orElse_eq_or] at one
      rcases Option.or_eq_some_iff.mp one with begun | ⟨_, ended⟩
      · exact .beginLeg present member begun
      · exact .endLeg present member ended
    · exact .turnFetch present own
  · contradiction

/-- A hedger without turns left has none for any of its fetches. -/
theorem fetch_turn?_eq_none (settled : hedger.turn? clock = none)
    (present : hedger.fetches[number]? = some run) : run.fetch.turn? clock = none := by
  have inside := (Array.getElem?_eq_some_iff.mp present).1
  have none := List.findSome?_eq_none_iff.mp settled number (List.mem_range.mpr inside)
  simp only [present, Option.orElse_eq_or, Option.or_eq_none_iff] at none
  exact Option.map_eq_none_iff.mp none.2

variable {story : Story}

/-- Other fetches only make and cancel scopes. -/
theorem Tracks.others (tracks : hedger.Tracks clock number story)
    (same : next.fetches[number]? = hedger.fetches[number]?) (ticks : Relation.ReflTransGen Fetch.Ticks clock clock') :
    ∃ later, Story.Run Story.Prompt story later ∧ next.Tracks clock' number later := by
  rw [← tracks.clock] at ticks
  obtain ⟨later, run, fetch, now⟩ := Story.follow_ticks ticks
  exact ⟨later, run, by rw [same, fetch, tracks.fetch], now⟩

theorem Tracks.turn (tracks : hedger.Tracks clock number story) (turn : hedger.turn? clock = some (next, clock')) :
    ∃ later, Story.Run Story.Prompt story later ∧ next.Tracks clock' number later := by
  obtain ⟨own, run, fetch, present, acts, fetches⟩ := (turn?_works turn).acts
  by_cases same : own = number
  · subst same
    have mine : run.fetch = story.fetch := by simpa [present] using tracks.fetch
    rw [mine, ← tracks.clock] at acts
    obtain ⟨later, follows, rfl, now⟩ := Story.follow_acts acts
    refine ⟨later, follows, ?_, now⟩
    rw [fetches, getElem?_modify_self _ present]
    rfl
  · exact tracks.others (by rw [fetches, getElem?_modify_of_ne _ _ same]) (.single acts.ticks)

theorem Tracks.step {event : Event} (tracks : hedger.Tracks clock number story) (kept : event ≠ .drop number)
    (allowed : hedger.Allows clock event) (step : hedger.step? clock event = some (next, clock')) :
    ∃ later, Story.Run Story.Prompt story later ∧ next.Tracks clock' number later := by
  obtain ⟨run, present, mine⟩ := Option.map_eq_some_iff.mp tracks.fetch
  cases event with
  | begin request deadline =>
    cases step
    exact tracks.others ((getElem?_push_of_some _ present).trans present.symm) (Fetch.begin_ticks ..)
  | turn => exact tracks.turn step
  | drop other =>
    have distinct : other ≠ number := fun same => kept (congrArg _ same)
    obtain ⟨same, _⟩ | ⟨run, _, _, same⟩ := drop_eq hedger clock other
    · cases same.symm.trans (Option.some.inj step)
      exact tracks.others rfl .refl
    · cases same.symm.trans (Option.some.inj step)
      refine tracks.others ?_ (.single (.cancel _))
      rw [stop_fetches, getElem?_modify_of_ne _ _ distinct]
  | pass instant =>
    cases step
    have settled := fetch_turn?_eq_none allowed.1 present
    rw [mine, ← tracks.clock] at settled
    have prompt : story.Prompt (.pass instant) :=
      ⟨Option.map_eq_none_iff.mpr settled, mine ▸ allowed.2 run (Array.mem_of_getElem? present)⟩
    exact ⟨_, .single prompt rfl, tracks.fetch, congrArg (Clock.moveTo · instant) tracks.clock⟩
  | scope parent =>
    have prompt : story.Prompt (.scope parent) := trivial
    cases parent with
    | none =>
      cases step
      exact ⟨_, .single prompt rfl, tracks.fetch, congrArg (fun clock => clock.freshToken.2) tracks.clock⟩
    | some parent => cases step; exact tracks.others rfl (.single (.scope parent))
  | cancel token => cases step; exact tracks.others rfl (.single (.cancel token))

/-- A new fetch is at the start of its story. -/
theorem begin_tracks (hedger : Hedger) (clock : Clock) (request : Request) (deadline : Deadline) :
    (hedger.begin clock request deadline).2.1.Tracks (hedger.begin clock request deadline).2.2 hedger.fetches.size
      (Story.begin clock hedger.providers.length hedger.threshold deadline) := by
  unfold Hedger.begin Story.begin Story.turn? Story.opening
  simp only
  cases (Fetch.begin clock hedger.providers.length hedger.threshold deadline).1.turn?
      (Fetch.begin clock hedger.providers.length hedger.threshold deadline).2 with
  | none => exact ⟨by simp, rfl⟩
  | some turned => exact ⟨by simp, rfl⟩

/-- What a hedger tells of a fetch is what its story tells. -/
theorem Tracks.resultOf (tracks : hedger.Tracks clock number story) : hedger.resultOf number = story.fetch.result := by
  obtain ⟨run, present, mine⟩ := Option.map_eq_some_iff.mp tracks.fetch
  rw [Hedger.resultOf, present, ← mine]
  rfl

/-- Whatever else a hedger does, a fetch that nobody drops follows a story. -/
theorem tracks_of_run {request : Request} {deadline : Deadline} {target : Hedger × Clock}
    (run : Run hedger.fetches.size (hedger.begin clock request deadline).2 target) :
    ∃ story, Story.Run Story.Prompt (Story.begin clock hedger.providers.length hedger.threshold deadline) story ∧
      target.1.Tracks target.2 hedger.fetches.size story ∧
      target.1.resultOf hedger.fetches.size = story.fetch.result := by
  induction run with
  | nil =>
    have tracks := begin_tracks hedger clock request deadline
    exact ⟨_, .nil, tracks, tracks.resultOf⟩
  | snoc _ kept allowed step ih =>
    obtain ⟨middle, follows, tracks, _⟩ := ih
    obtain ⟨story, rest, tracked⟩ := tracks.step kept allowed step
    exact ⟨story, follows.append rest, tracked, tracked.resultOf⟩

/-- A hedger that passes none of its timers misses no deadline. -/
theorem allows_pass_of_timer {others : List Nat} {instant : Nat} (settled : hedger.turn? clock = none)
    (near : ∀ timer, earliestAfter clock.now (hedger.timers ++ others) = some timer → instant ≤ timer) :
    hedger.Allows clock (.pass instant) := by
  refine ⟨settled, fun run member undecided => ?_⟩
  obtain ⟨number, present⟩ := Array.mem_iff_getElem?.mp member
  have isOpen : clock.now < run.fetch.deadline.instant := by
    rcases Fetch.turn?_eq_none_iff.mp (fetch_turn?_eq_none settled present) with decided | ⟨isOpen, _⟩
    · rw [undecided] at decided
      contradiction
    · exact isOpen.inTime
  have own : run.fetch.deadline.instant ∈ hedger.timers := by
    refine List.mem_flatMap.mpr ⟨run, Array.mem_toList_iff.mpr member, ?_⟩
    rw [undecided]
    exact List.mem_cons_self ..
  obtain ⟨timer, earliest, least⟩ := earliestAfter_of_mem (List.mem_append_left others own) isOpen
  exact Nat.le_trans (near timer earliest) least

/-- One thing that happens to a hedger. -/
theorem Run.single {event : Event} {target : Hedger × Clock} (step : hedger.step? clock event = some target)
    (allowed : hedger.Allows clock event) (kept : event ≠ .drop number) : Run number (hedger, clock) target :=
  .snoc .nil kept allowed step

theorem Run.append {source middle target : Hedger × Clock} (run : Run number source middle)
    (rest : Run number middle target) : Run number source target := by
  induction rest with
  | nil => exact run
  | snoc _ kept allowed step ih => exact .snoc ih kept allowed step

end Hedger

namespace Hedging

variable {state next last : State}

/-- A turn of a scenario is one of its hedger, or cancels a scope. -/
theorem turn_run (number : Nat) (turn : simulation.turn state = some next) :
    Hedger.Run number (state.hedger, state.clock) (next.hedger, next.clock) := by
  have hedgerTurn {target : Hedger × Clock} (turned : state.hedger.turn? state.clock = some target) :
      Hedger.Run number (state.hedger, state.clock) target := by
    have step : state.hedger.step? state.clock .turn = some target := turned
    exact .single step trivial (by simp)
  simp only [simulation, State.turn?] at turn
  split at turn
  · next instant token rest _ =>
    split at turn
    · cases turn
      have step : state.hedger.step? state.clock (.cancel token) = some _ := rfl
      exact .single step trivial (by simp)
    · obtain ⟨target, turned, rfl⟩ := Option.map_eq_some_iff.mp turn
      exact hedgerTurn turned
  · obtain ⟨target, turned, rfl⟩ := Option.map_eq_some_iff.mp turn
    exact hedgerTurn turned

/-- A scenario lets time pass when its hedger is settled, and not beyond the next timer. -/
theorem moveTo_run (number : Nat) {instant : Nat} (settled : simulation.turn state = none)
    (near : ∀ timer, simulation.nextTimer state = some timer → instant ≤ timer) :
    Hedger.Run number (state.hedger, state.clock) (state.hedger, (simulation.moveTo instant state).clock) := by
  have idle : state.hedger.turn? state.clock = none := by
    simp only [simulation, State.turn?] at settled
    split at settled
    · split at settled
      · contradiction
      · exact Option.map_eq_none_iff.mp settled
    · exact Option.map_eq_none_iff.mp settled
  have step : state.hedger.step? state.clock (.pass instant) = some _ := rfl
  exact .single step (Hedger.allows_pass_of_timer idle near) (by simp)

theorem reaches_run (number : Nat) {instant : Nat} (reaches : simulation.Reaches instant state last) :
    Hedger.Run number (state.hedger, state.clock) (last.hedger, last.clock) := by
  let reached (middle : State) : Prop := Hedger.Run number (state.hedger, state.clock) (middle.hedger, middle.clock)
  have initial : reached state := .nil
  have turned (middle next : State) (run : reached middle) (turn : simulation.turn middle = some next) :
      reached next :=
    run.append (turn_run number turn)
  have moved (middle : State) (instant : Nat) (run : reached middle) (settled : simulation.turn middle = none)
      (near : ∀ timer, simulation.nextTimer middle = some timer → instant ≤ timer) :
      reached (simulation.moveTo instant middle) :=
    run.append (moveTo_run number settled near)
  exact reaches.invariant turned moved initial

/-- The fetches of a scenario are decided by what comes first, and what the hedger tells of them is what the law says. -/
theorem decision_of_reaches {request : Request} {deadline : Deadline} {instant : Nat}
    (providers : state.hedger.providers ≠ [])
    (reaches : simulation.Reaches instant { state with
      hedger := (state.hedger.begin state.clock request deadline).2.1
      clock := (state.hedger.begin state.clock request deadline).2.2 } last) :
    ∃ story : Story, story.Decision state.clock state.hedger.providers.length deadline ∧
      story.clock = last.clock ∧ last.hedger.resultOf state.hedger.fetches.size = story.fetch.result := by
  obtain ⟨story, run, tracks, told⟩ := Hedger.tracks_of_run (reaches_run _ reaches)
  have some : state.hedger.providers.length ≠ 0 := fun none => providers (List.eq_nil_of_length_eq_zero none)
  refine ⟨story, ?_, tracks.clock, told⟩
  exact Story.decision_of_timely (Story.Timely.run some run) (Story.Walked.run run) (Story.Asked.run run)
    fun late => Story.closed_of_late some late run

end Hedging

end HedgedForecast
