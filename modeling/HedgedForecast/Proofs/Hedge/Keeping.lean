import HedgedForecast.Proofs.Hedge.Ledger

/-! # Keeping the ledger

The ledger of a hedger is kept by whatever its fetches and legs do, and by those who begin and drop fetches.
Fetches go on in the scopes in which they were begun, and providers keep their names.
-/

namespace HedgedForecast

/-- The fetch has gone on from the other one. -/
structure FetchRun.Later (later run : FetchRun) : Prop where
  request : later.request = run.request
  deadline : later.fetch.deadline = run.fetch.deadline
  timerAt : later.fetch.timerAt = run.fetch.timerAt
  decided : run.fetch.result ≠ none → later.fetch.result ≠ none

theorem FetchRun.Later.refl (run : FetchRun) : run.Later run :=
  ⟨rfl, rfl, rfl, id⟩

/-- A fetch that begins has called nobody, not even after its first turn. -/
theorem Story.begin_uncalled (clock : Clock) (size threshold : Nat) (deadline : Deadline) :
    (Story.begin clock size threshold deadline).fetch.Within ∧
      (∀ leg ∈ (Story.begin clock size threshold deadline).fetch.legs, leg.call = none) ∧
      (Story.begin clock size threshold deadline).called = [] := by
  have uncalled : ∀ leg ∈ (Story.opening clock size threshold deadline).fetch.legs, leg.call = none := by
    intro leg member
    cases size with
    | zero => exact absurd member List.not_mem_nil
    | succ size => rw [List.mem_singleton.mp member]
  refine @Story.begin_of_turn clock size threshold deadline
    (fun story => story.fetch.Within ∧ (∀ leg ∈ story.fetch.legs, leg.call = none) ∧ story.called = [])
    ⟨.begin .., uncalled, rfl⟩ fun next turn => ?_
  obtain ⟨fetch, later, turned, rfl⟩ := Story.turn?_eq_some_iff.mp turn
  have within : (Story.opening clock size threshold deadline).fetch.Within := .begin ..
  refine ⟨within.turn turned, fun leg member => ?_, rfl⟩
  exact ((Fetch.turned_of_turn? turned).2.legs member).elim (uncalled leg) id

namespace Hedger

variable {hedger next : Hedger} {clock clock' : Clock} {number : Nat} {run : FetchRun} {leg : Leg}

/-- A leg of a fetch has called its provider. -/
structure Calls (hedger next : Hedger) (number : Nat) (run : FetchRun) (leg : Leg) (call : ProviderCall) : Prop where
  uncalled : leg.call = none
  provider : hedger.providers[leg.index]?.map Provider.name = some call.provider
  asking : call.asking = ⟨call.provider, run.request, leg.deadline⟩
  runs : call.endedAt = none
  threshold : next.threshold = hedger.threshold
  names : next.providers.map Provider.name = hedger.providers.map Provider.name
  calls : next.calls = hedger.calls.push call
  fetches : next.fetches = hedger.fetches.modify number fun run' =>
    { run' with fetch := run.fetch.legBegan leg.index hedger.calls.size }

theorem beginLeg?_calls (begun : hedger.beginLeg? clock number run leg = some next) :
    ∃ call, hedger.Calls next number run leg call := by
  obtain ⟨uncalled, provider, there, rfl⟩ := beginLeg?_eq_some begun
  obtain ⟨asking, runs, name⟩ := provider.call_asking clock run.request leg.deadline
  generalize provider.call clock run.request leg.deadline = called at asking runs name ⊢
  obtain ⟨call, provider'⟩ := called
  have own : call.provider = provider.name := congrArg Asking.provider asking
  refine ⟨call, uncalled, ?_, ?_, runs, rfl, ?_, rfl, rfl⟩
  · rw [there, own]
    rfl
  · rw [own]
    exact asking
  · apply List.ext_getElem?
    intro place
    simp only [setFetch, List.getElem?_map, List.getElem?_set]
    split
    · next same =>
      obtain ⟨inside, _⟩ := List.getElem?_eq_some_iff.mp there
      rw [← same, there, if_pos inside]
      exact congrArg some name
    · rfl

/-- The hedger has gone on from the other one without new fetches. -/
structure Continues (hedger next : Hedger) : Prop where
  threshold : next.threshold = hedger.threshold
  names : next.providers.map Provider.name = hedger.providers.map Provider.name
  size : next.fetches.size = hedger.fetches.size
  fetches : ∀ (number : Nat) (run : FetchRun), hedger.fetches[number]? = some run →
    ∃ later, next.fetches[number]? = some later ∧ later.Later run

namespace Continues

theorem refl (hedger : Hedger) : hedger.Continues hedger :=
  ⟨rfl, rfl, rfl, fun _ run present => ⟨run, present, .refl run⟩⟩

theorem earlier (continues : hedger.Continues next) {later : FetchRun} (present : next.fetches[number]? = some later) :
    ∃ run, hedger.fetches[number]? = some run ∧ later.Later run := by
  obtain ⟨inside, _⟩ := Array.getElem?_eq_some_iff.mp present
  have before : hedger.fetches[number]? = some _ := Array.getElem?_eq_getElem (continues.size ▸ inside)
  obtain ⟨later', there, goes⟩ := continues.fetches number _ before
  obtain rfl := Option.some.inj (present.symm.trans there)
  exact ⟨_, before, goes⟩

/-- One fetch goes on. -/
theorem update (present : hedger.fetches[number]? = some run) {fetch : Fetch}
    (later : FetchRun.Later { run with fetch } run) (threshold : next.threshold = hedger.threshold)
    (names : next.providers.map Provider.name = hedger.providers.map Provider.name)
    (fetches : next.fetches = hedger.fetches.modify number fun run' => { run' with fetch }) :
    hedger.Continues next := by
  constructor
  · exact threshold
  · exact names
  · rw [fetches, Array.size_modify]
  · intro n before there
    rw [fetches]
    by_cases same : number = n
    · subst same
      obtain rfl := Option.some.inj (present.symm.trans there)
      exact ⟨_, getElem?_modify_self _ present, later⟩
    · exact ⟨before, (getElem?_modify_of_ne _ _ same).trans there, .refl before⟩

theorem beginLeg (present : hedger.fetches[number]? = some run)
    (begun : hedger.beginLeg? clock number run leg = some next) : hedger.Continues next := by
  obtain ⟨_, calls⟩ := beginLeg?_calls begun
  have goesOn : FetchRun.Later { run with fetch := run.fetch.legBegan leg.index hedger.calls.size } run :=
    ⟨rfl, rfl, rfl, id⟩
  exact update present goesOn calls.threshold calls.names calls.fetches

theorem endLeg (present : hedger.fetches[number]? = some run)
    (ended : hedger.endLeg? clock number run leg = some next) : hedger.Continues next := by
  obtain ⟨_, _, _, _, _, _, _, rfl⟩ := endLeg?_eq_some ended
  have goesOn (ending : WorkEnd (List ForecastDay)) :
      FetchRun.Later { run with fetch := run.fetch.legEnded leg.index ending } run := ⟨rfl, rfl, rfl, id⟩
  exact update present (goesOn _) rfl rfl rfl

theorem abandon (present : hedger.fetches[number]? = some run) (instant : Nat) (legs : List Leg) {fetch : Fetch}
    (later : FetchRun.Later { run with fetch } run) :
    hedger.Continues ((hedger.abandon instant legs).setFetch number fetch) := by
  obtain ⟨calls, same, _⟩ := Ended.abandon hedger instant legs
  rw [same]
  exact update present later rfl rfl rfl

theorem turnFetch (present : hedger.fetches[number]? = some run)
    (turn : hedger.turnFetch? clock number run = some (next, clock')) : hedger.Continues next := by
  obtain ⟨fetch, turned, same⟩ := turnFetch?_eq_some turn
  obtain ⟨undecided, turned⟩ := Fetch.turned_of_turn? turned
  have goesOn : FetchRun.Later { run with fetch } run :=
    ⟨rfl, turned.frame.2.2, turned.frame.2.1, fun decided => absurd undecided decided⟩
  obtain ⟨_, rfl⟩ | ⟨_, rfl⟩ := same
  · exact abandon present _ _ goesOn
  · exact update present goesOn rfl rfl rfl

theorem drop (hedger : Hedger) (clock : Clock) (number : Nat) : hedger.Continues (hedger.drop clock number).1 := by
  obtain ⟨same, _⟩ | ⟨run, present, _, same⟩ := drop_eq hedger clock number
  · rw [same]
    exact refl hedger
  · rw [same]
    exact abandon present _ _ ⟨rfl, rfl, rfl, fun _ => Option.some_ne_none _⟩

end Continues

namespace Calls

variable {call : ProviderCall}

theorem here (calls : hedger.Calls next number run leg call) (present : hedger.fetches[number]? = some run) :
    next.fetches[number]? = some { run with fetch := run.fetch.legBegan leg.index hedger.calls.size } := by
  rw [calls.fetches]
  exact getElem?_modify_self _ present

/-- A fetch is the one whose leg calls, or another one, as it was. -/
theorem fetch_cases (calls : hedger.Calls next number run leg call) (present : hedger.fetches[number]? = some run)
    {n : Nat} {later : FetchRun} (found : next.fetches[n]? = some later) :
    number ≠ n ∧ hedger.fetches[n]? = some later ∨
      number = n ∧ later = { run with fetch := run.fetch.legBegan leg.index hedger.calls.size } := by
  rw [calls.fetches] at found
  obtain ⟨before, old, ⟨distinct, rfl⟩ | ⟨rfl, rfl⟩⟩ := getElem?_modify_cases found
  · exact .inl ⟨distinct, old⟩
  · obtain rfl := Option.some.inj (present.symm.trans old)
    exact .inr ⟨rfl, rfl⟩

theorem askings (calls : hedger.Calls next number run leg call) :
    next.askings = hedger.askings ++ [⟨call.provider, run.request, leg.deadline⟩] := by
  rw [Hedger.askings, calls.calls, Array.toList_push, List.map_append, ← calls.asking]
  rfl

/-- The scopes in which the leg works have one provider more that was called. -/
theorem askedIn (calls : hedger.Calls next number run leg call) (token : Token) :
    next.askedIn token =
      hedger.askedIn token ++ if leg.deadline.token.isWithin token = true then [call.provider] else [] := by
  simp only [Hedger.askedIn, calls.askings, List.filter_append, List.map_append, List.filter_singleton]
  cases leg.deadline.token.isWithin token <;> rfl

theorem name (calls : hedger.Calls next number run leg call) (index : Nat) :
    next.providers[index]?.map Provider.name = hedger.providers[index]?.map Provider.name := by
  rw [← List.getElem?_map, ← List.getElem?_map, calls.names]

/-- The leg has made the call, and all other legs have made the calls that they had made before. -/
theorem makes_iff (calls : hedger.Calls next number run leg call) (ledger : hedger.Ledger clock)
    (present : hedger.fetches[number]? = some run) (member : leg ∈ run.fetch.legs) {n made : Nat} {maker : Leg} :
    next.Makes n maker made ↔ hedger.Makes n maker made ∨
      n = number ∧ maker = { leg with call := some hedger.calls.size } ∧ made = hedger.calls.size := by
  constructor
  · rintro ⟨later, found, own, of⟩
    rcases calls.fetch_cases present found with ⟨_, old⟩ | ⟨rfl, rfl⟩
    · exact .inl ⟨later, old, own, of⟩
    · obtain ⟨earlier, old, rfl⟩ := List.mem_map.mp own
      split at of
      · next same =>
        obtain rfl := ledger.leg_unique present old member (beq_iff_eq.mp same)
        rw [if_pos same]
        exact .inr ⟨rfl, rfl, (Option.some.inj of).symm⟩
      · next other =>
        rw [if_neg other]
        exact .inl ⟨run, present, old, of⟩
  · rintro (⟨earlier, old, own, of⟩ | ⟨rfl, rfl, rfl⟩)
    · by_cases same : number = n
      · subst same
        obtain rfl := Option.some.inj (present.symm.trans old)
        refine ⟨_, calls.here present, List.mem_map.mpr ⟨maker, own, if_neg fun same => ?_⟩, of⟩
        rw [ledger.leg_unique present own member (beq_iff_eq.mp same), calls.uncalled] at of
        contradiction
      · rw [← getElem?_modify_of_ne hedger.fetches _ same, ← calls.fetches] at old
        exact ⟨earlier, old, own, of⟩
    · exact ⟨_, calls.here present, List.mem_map.mpr ⟨leg, member, if_pos (beq_self_eq_true _)⟩, rfl⟩

/-- The story of the fetch goes on with the call, and those of others are the same. -/
theorem stories (calls : hedger.Calls next number run leg call) (ledger : hedger.Ledger clock)
    (present : hedger.fetches[number]? = some run) (member : leg ∈ run.fetch.legs) {n : Nat} {later : FetchRun}
    (found : next.fetches[n]? = some later) : ∃ story, next.Recounts clock later.fetch story := by
  have inside := ((ledger.within number run present).legs leg member).1
  rcases calls.fetch_cases present found with ⟨distinct, old⟩ | ⟨rfl, rfl⟩
  · have outside : ¬ leg.deadline.token.isWithin later.fetch.deadline.token = true := fun within =>
      distinct (ledger.apart number n run later _ present old inside within)
    obtain ⟨story, recounts⟩ := ledger.stories n later old
    refine ⟨story, recounts.same, recounts.clock, recounts.walked, ?_⟩
    rw [calls.askedIn, if_neg outside, List.append_nil, recounts.called]
    exact List.map_congr_left fun index _ => (calls.name index).symm
  · obtain ⟨story, recounts⟩ := ledger.stories number run present
    have walked := recounts.walked.legBegins (recounts.same ▸ member) calls.uncalled hedger.calls.size
    refine ⟨{ story with
      fetch := story.fetch.legBegan leg.index hedger.calls.size, called := story.called ++ [leg.index] }, ?_,
      recounts.clock, walked, ?_⟩
    · rw [recounts.same]
    · have asked : next.askedIn (run.fetch.legBegan leg.index hedger.calls.size).deadline.token =
          hedger.askedIn run.fetch.deadline.token ++ [call.provider] := by
        rw [calls.askedIn]
        exact congrArg _ (if_pos inside)
      rw [asked, List.map_append, List.map_append, recounts.called, List.map_singleton, List.map_singleton,
        calls.name, calls.provider]
      exact congrArg (· ++ _) (List.map_congr_left fun index _ => (calls.name index).symm)

end Calls

/-- A fetch that has just begun. -/
structure Opened (clock : Clock) (deadline : Deadline) (fetch : Fetch) (clock' : Clock) : Prop where
  deadline : fetch.deadline = deadline
  within : fetch.Within
  uncalled : ∀ leg ∈ fetch.legs, leg.call = none
  ticks : Relation.ReflTransGen Fetch.Ticks clock clock'
  story : ∃ story : Story, story.fetch = fetch ∧ story.clock = clock' ∧ story.Walked ∧ story.called = []

theorem Opened.now {deadline : Deadline} {fetch : Fetch} (opened : Opened clock deadline fetch clock') :
    clock.now ≤ clock'.now := by
  have ticks := opened.ticks
  clear opened
  induction ticks with
  | refl => exact Nat.le_refl _
  | tail _ tick ih => exact tick.now ▸ ih

theorem begin_eq (hedger : Hedger) (clock : Clock) (request : Request) (deadline : Deadline) :
    ∃ fetch clock', hedger.begin clock request deadline =
      (hedger.fetches.size, { hedger with fetches := hedger.fetches.push ⟨request, fetch⟩ }, clock') ∧
      Opened clock deadline fetch clock' := by
  let story := Story.begin clock hedger.providers.length hedger.threshold deadline
  obtain ⟨within, uncalled, called⟩ := Story.begin_uncalled clock hedger.providers.length hedger.threshold deadline
  have tracks := begin_tracks hedger clock request deadline
  have asked : story.Asked clock.now hedger.providers.length hedger.threshold deadline :=
    .run (.nil : Story.Run Story.Prompt _ _)
  have ticks := Fetch.begin_ticks clock hedger.providers.length hedger.threshold deadline
  have walked : story.Walked := .run (.nil : Story.Run Story.Prompt _ _)
  have fetch : (hedger.begin clock request deadline).2.1 =
      { hedger with fetches := hedger.fetches.push ⟨request, story.fetch⟩ } := by
    have same := tracks.fetch
    simp only [Hedger.begin, Array.getElem?_push_size, Option.map_some, Option.some.injEq] at same
    simp only [Hedger.begin, same]
    rfl
  refine ⟨story.fetch, (hedger.begin clock request deadline).2.2, ?_, asked.deadline, within, uncalled, ticks,
    story, rfl, tracks.clock, walked, called⟩
  rw [← fetch]
  rfl

namespace Ledger

/-- A leg calls its provider. -/
theorem beginLeg (ledger : hedger.Ledger clock) (present : hedger.fetches[number]? = some run)
    (member : leg ∈ run.fetch.legs) (begun : hedger.beginLeg? clock number run leg = some next) :
    next.Ledger clock := by
  obtain ⟨call, calls⟩ := beginLeg?_calls begun
  have goesOn := Continues.beginLeg present begun
  have known {n made : Nat} {maker : Leg} (makes : hedger.Makes n maker made) : made < hedger.calls.size := by
    obtain ⟨found, there, _⟩ := ledger.running n maker made makes
    exact (Array.getElem?_eq_some_iff.mp there).1
  have deadline {n : Nat} {later : FetchRun} (found : next.fetches[n]? = some later) :
      ∃ earlier, hedger.fetches[n]? = some earlier ∧ later.fetch.deadline = earlier.fetch.deadline := by
    rcases calls.fetch_cases present found with ⟨_, old⟩ | ⟨rfl, rfl⟩
    · exact ⟨later, old, rfl⟩
    · exact ⟨run, present, rfl⟩
  constructor
  · exact fun n later found => calls.stories ledger present member found
  · intro n later found
    rcases calls.fetch_cases present found with ⟨_, old⟩ | ⟨rfl, rfl⟩
    · exact ledger.within n later old
    · exact (ledger.within number run present).legBegan leg.index hedger.calls.size
  · intro m n later other token found found' within within'
    obtain ⟨earlier, old, same⟩ := deadline found
    obtain ⟨earlier', old', same'⟩ := deadline found'
    rw [same] at within
    rw [same'] at within'
    exact ledger.apart m n earlier earlier' token old old' within within'
  · rw [calls.askings]
    intro asking there
    rcases List.mem_append.mp there with old | new
    · obtain ⟨n, earlier, found, within, request⟩ := ledger.made asking old
      obtain ⟨later, found', goes⟩ := goesOn.fetches n earlier found
      exact ⟨n, later, found', goes.deadline ▸ within, request.trans goes.request.symm⟩
    · obtain rfl := List.mem_singleton.mp new
      exact ⟨number, _, calls.here present, ((ledger.within number run present).legs leg member).1, rfl⟩
  · intro n maker made makes
    rw [calls.calls]
    rcases (calls.makes_iff ledger present member).mp makes with old | ⟨rfl, rfl, rfl⟩
    · obtain ⟨found, there, still, deadline⟩ := ledger.running n maker made old
      exact ⟨found, getElem?_push_of_some _ there, still, deadline⟩
    · exact ⟨call, Array.getElem?_push_size, calls.runs, congrArg Asking.deadline calls.asking⟩
  · intro m n maker other made makes makes'
    rcases (calls.makes_iff ledger present member).mp makes with old | ⟨rfl, rfl, rfl⟩
    · rcases (calls.makes_iff ledger present member).mp makes' with old' | ⟨_, _, rfl⟩
      · exact ledger.maker m n maker other made old old'
      · exact absurd (known old) (Nat.lt_irrefl _)
    · rcases (calls.makes_iff ledger present member).mp makes' with old' | ⟨rfl, rfl, _⟩
      · exact absurd (known old') (Nat.lt_irrefl _)
      · exact ⟨rfl, rfl⟩
  · intro made found there still
    rw [calls.calls] at there
    rcases getElem?_push_cases there with ⟨_, old⟩ | ⟨rfl, _⟩
    · obtain ⟨n, maker, makes⟩ := ledger.owned made found old still
      exact ⟨n, maker, (calls.makes_iff ledger present member).mpr (.inl makes)⟩
    · exact ⟨number, _, (calls.makes_iff ledger present member).mpr (.inr ⟨rfl, rfl, rfl⟩)⟩

/-- The call of a leg ends, and so does the leg. -/
theorem endLeg (ledger : hedger.Ledger clock) (present : hedger.fetches[number]? = some run)
    (member : leg ∈ run.fetch.legs) (ended : hedger.endLeg? clock number run leg = some next) :
    next.Ledger clock := by
  obtain ⟨call, _, ending, outcome, called, _, _, rfl⟩ := endLeg?_eq_some ended
  have own : hedger.Makes number leg call := ⟨run, present, member, called⟩
  have stops : hedger.Stops ((hedger.endCall clock.now call outcome).setFetch number
      (run.fetch.legEnded leg.index ending)) number run (run.fetch.legEnded leg.index ending) [call] := by
    refine ⟨rfl, .endCall .., rfl, rfl, ?_, ?_, ?_⟩
    · intro other there call' called'
      obtain ⟨old, distinct⟩ := List.mem_filter.mp there
      refine ⟨old, fun gone => ?_⟩
      obtain rfl := List.mem_singleton.mp gone
      have same := (ledger.maker number number other leg call' ⟨run, present, old, called'⟩ own).2
      simp [same] at distinct
    · intro other there call' called' remains
      refine List.mem_filter.mpr ⟨there, bne_iff_ne.mpr fun same => remains ?_⟩
      rw [ledger.leg_unique present there member same, called] at called'
      rw [Option.some.inj called']
      exact List.mem_singleton_self _
    · intro call' gone
      rw [List.mem_singleton.mp gone]
      exact ⟨leg, member, called⟩
  apply ledger.stop present stops (Nat.le_refl _) ((ledger.within number run present).legEnded leg.index ending)
  intro story same time walked
  refine ⟨{ story with
    fetch := story.fetch.legEnded leg.index ending
    ends := story.ends ++ [⟨story.clock.now, leg.index, ending⟩] }, ?_, time,
    walked.legEnds (same ▸ member) ending, rfl⟩
  rw [same]

/-- A fetch is decided, and all of its legs are stopped. -/
theorem decide (ledger : hedger.Ledger clock) (present : hedger.fetches[number]? = some run) (instant : Nat)
    {fetch : Fetch} (now : clock.now ≤ clock'.now) (within : fetch.Within)
    (deadline : fetch.deadline = run.fetch.deadline) (legs : fetch.legs = [])
    (goesOn : ∀ story : Story, story.fetch = run.fetch → story.clock = clock → story.Walked →
      ∃ later : Story, later.fetch = fetch ∧ later.clock = clock' ∧ later.Walked ∧ later.called = story.called) :
    Ledger ((hedger.abandon instant run.fetch.legs).setFetch number fetch) clock' := by
  obtain ⟨calls, same, ended⟩ := Ended.abandon hedger instant run.fetch.legs
  rw [same]
  have stops : hedger.Stops (setFetch { hedger with calls } number fetch) number run fetch
      (run.fetch.legs.filterMap Leg.call) := by
    refine ⟨rfl, ended, rfl, deadline, ?_, ?_, ?_⟩
    · rw [legs]
      exact nofun
    · exact fun leg there call called remains => absurd (List.mem_filterMap.mpr ⟨leg, there, called⟩) remains
    · exact fun call gone => List.mem_filterMap.mp gone
  exact ledger.stop present stops now within goesOn

theorem turnFetch (ledger : hedger.Ledger clock) (present : hedger.fetches[number]? = some run)
    (turn : hedger.turnFetch? clock number run = some (next, clock')) : next.Ledger clock' := by
  obtain ⟨fetch, turn, same⟩ := turnFetch?_eq_some turn
  obtain ⟨_, turned⟩ := Fetch.turned_of_turn? turn
  have within := (ledger.within number run present).turn turn
  have now : clock.now ≤ clock'.now := Nat.le_of_eq turned.ticks.now.symm
  have goesOn (story : Story) (same : story.fetch = run.fetch) (time : story.clock = clock)
      (walked : story.Walked) :
      ∃ next : Story, next.fetch = fetch ∧ next.clock = clock' ∧ next.Walked ∧ next.called = story.called := by
    have step : story.turn? = some (story.after fetch clock') :=
      Story.turn?_eq_some_iff.mpr ⟨fetch, clock', by rw [same, time]; exact turn, rfl⟩
    exact ⟨_, rfl, rfl, walked.turn step, rfl⟩
  obtain ⟨decided, rfl⟩ | ⟨undecided, rfl⟩ := same
  · have legs : fetch.legs = [] := by
      obtain ⟨story, recounts⟩ := ledger.stories number run present
      obtain ⟨next, rfl, _, walked, _⟩ := goesOn story recounts.same recounts.clock recounts.walked
      exact walked.closed decided
    exact ledger.decide present _ now within turned.frame.2.2 legs goesOn
  · have stops : hedger.Stops (hedger.setFetch number fetch) number run fetch [] := by
      refine ⟨rfl, .refl _, rfl, turned.frame.2.2, ?_, ?_, nofun⟩
      · intro leg there call called
        refine ⟨(turned.legs there).resolve_right fun uncalled => ?_, List.not_mem_nil⟩
        rw [uncalled] at called
        contradiction
      · exact fun leg there _ _ _ => turned.legs_of_undecided undecided there
    exact ledger.stop present stops now within goesOn

theorem drop (ledger : hedger.Ledger clock) (number : Nat) :
    (hedger.drop clock number).1.Ledger (hedger.drop clock number).2 := by
  obtain ⟨kept, _⟩ | ⟨run, present, _, stopped⟩ := drop_eq hedger clock number
  · rw [kept]
    exact ledger
  · rw [stopped]
    refine ledger.decide present _ (Nat.le_refl _) ((ledger.within number run present).close clock _) rfl rfl ?_
    rintro story same rfl walked
    have closed : (story.after (story.fetch.close story.clock (.error .cancelled)).1
        (story.clock.cancel run.fetch.scope)).Walked :=
      walked.close rfl rfl walked.next rfl id rfl (Option.some_ne_none _)
    rw [same] at closed
    exact ⟨_, rfl, rfl, closed, rfl⟩

/-- Nobody was asked in a scope that no fetch has to do with. -/
theorem askedIn_eq_nil (ledger : hedger.Ledger clock) {token : Token}
    (apart : ∀ (number : Nat) (run : FetchRun) (inner : Token), hedger.fetches[number]? = some run →
      inner.isWithin run.fetch.deadline.token = true → inner.isWithin token = false) : hedger.askedIn token = [] := by
  rw [askedIn, List.map_eq_nil_iff, List.filter_eq_nil_iff]
  intro asking member
  obtain ⟨n, run, old, inside, _⟩ := ledger.made asking member
  simp [apart n run _ old inside]

/-- A fetch in a scope that no other fetch has to do with begins. -/
theorem begin (ledger : hedger.Ledger clock) (request : Request) (deadline : Deadline)
    (apart : ∀ (number : Nat) (run : FetchRun) (token : Token), hedger.fetches[number]? = some run →
      token.isWithin run.fetch.deadline.token = true → token.isWithin deadline.token = false) :
    (hedger.begin clock request deadline).2.1.Ledger (hedger.begin clock request deadline).2.2 := by
  obtain ⟨fetch, later, same, opened⟩ := begin_eq hedger clock request deadline
  rw [same]
  have fetches {n : Nat} {run : FetchRun} (found : (hedger.fetches.push ⟨request, fetch⟩)[n]? = some run) :
      hedger.fetches[n]? = some run ∨ n = hedger.fetches.size ∧ run = ⟨request, fetch⟩ := by
    rcases getElem?_push_cases found with ⟨_, old⟩ | last
    · exact .inl old
    · exact .inr last
  have makes {n call : Nat} {leg : Leg}
      (makes : Makes { hedger with fetches := hedger.fetches.push ⟨request, fetch⟩ } n leg call) :
      hedger.Makes n leg call := by
    obtain ⟨run, found, member, called⟩ := makes
    rcases fetches found with old | ⟨rfl, rfl⟩
    · exact ⟨run, old, member, called⟩
    · rw [opened.uncalled leg member] at called
      contradiction
  constructor
  · intro n run found
    rcases fetches found with old | ⟨rfl, rfl⟩
    · obtain ⟨story, recounts⟩ := ledger.stories n run old
      have ticked := recounts.tick opened.now
      exact ⟨_, ticked.same, ticked.clock, ticked.walked, ticked.called⟩
    · obtain ⟨story, same, time, walked, called⟩ := opened.story
      refine ⟨story, same, time, walked, ?_⟩
      rw [called, opened.deadline]
      exact congrArg (List.map some) (ledger.askedIn_eq_nil apart)
  · intro n run found
    rcases fetches found with old | ⟨rfl, rfl⟩
    · exact ledger.within n run old
    · exact opened.within
  · intro m n run other token found found' inside inside'
    rcases fetches found with old | ⟨rfl, rfl⟩
    · rcases fetches found' with old' | ⟨rfl, rfl⟩
      · exact ledger.apart m n run other token old old' inside inside'
      · rw [opened.deadline, apart m run token old inside] at inside'
        contradiction
    · rcases fetches found' with old' | ⟨rfl, rfl⟩
      · rw [opened.deadline, apart n other token old' inside'] at inside
        contradiction
      · rfl
  · intro asking member
    obtain ⟨n, run, old, inside, asked⟩ := ledger.made asking member
    exact ⟨n, run, getElem?_push_of_some _ old, inside, asked⟩
  · exact fun n leg call made => ledger.running n leg call (makes made)
  · exact fun m n leg other call made made' => ledger.maker m n leg other call (makes made) (makes made')
  · intro call found there runs
    obtain ⟨n, leg, run, old, own⟩ := ledger.owned call found there runs
    exact ⟨n, leg, run, getElem?_push_of_some _ old, own⟩

end Ledger

namespace Works

theorem continues (works : hedger.Works clock next clock') : hedger.Continues next := by
  cases works with
  | beginLeg present member begun => exact .beginLeg present begun
  | endLeg present member ended => exact .endLeg present ended
  | turnFetch present turn => exact .turnFetch present turn

theorem ledger (works : hedger.Works clock next clock') (ledger : hedger.Ledger clock) : next.Ledger clock' := by
  cases works with
  | beginLeg present member begun => exact ledger.beginLeg present member begun
  | endLeg present member ended => exact ledger.endLeg present member ended
  | turnFetch present turn => exact ledger.turnFetch present turn

theorem ticks (works : hedger.Works clock next clock') : Fetch.Ticks clock clock' := by
  cases works with
  | beginLeg => exact .same
  | endLeg => exact .same
  | turnFetch present turn =>
    obtain ⟨_, turned, _⟩ := turnFetch?_eq_some turn
    exact (Fetch.turned_of_turn? turned).2.ticks

end Works

/-- To stop a fetch its scope is cancelled. -/
theorem drop_ticks (hedger : Hedger) (clock : Clock) (number : Nat) :
    Fetch.Ticks clock (hedger.drop clock number).2 := by
  obtain ⟨same, _⟩ | ⟨run, _, _, same⟩ := drop_eq hedger clock number
  · rw [same]
    exact .same
  · rw [same]
    exact .cancel run.fetch.scope

/-- A fetch that was stopped is decided. -/
theorem drop_decided {later : FetchRun} (present : (hedger.drop clock number).1.fetches[number]? = some later) :
    later.fetch.result ≠ none := by
  obtain ⟨same, decided⟩ | ⟨run, there, _, same⟩ := drop_eq hedger clock number
  · rw [same] at present
    exact decided later present
  · rw [same, stop_fetches, getElem?_modify_self _ there] at present
    rw [← Option.some.inj present]
    exact Option.some_ne_none _

namespace Ledger

/-- No more than two legs of a fetch run. -/
theorem length_legs (ledger : hedger.Ledger clock) (present : hedger.fetches[number]? = some run) :
    run.fetch.legs.length ≤ 2 := by
  obtain ⟨story, recounts⟩ := ledger.stories number run present
  rw [← recounts.same]
  cases result : story.fetch.result with
  | some decided => simp [recounts.walked.closed (by simp [result])]
  | none =>
    have running := (recounts.walked.books result).running
    have next := recounts.walked.next
    have once := recounts.walked.once
    unfold Story.running at running
    omega

/-- Legs only run while their fetch is undecided. -/
theorem undecided_of_leg (ledger : hedger.Ledger clock) (present : hedger.fetches[number]? = some run)
    (member : leg ∈ run.fetch.legs) : run.fetch.result = none := by
  obtain ⟨story, recounts⟩ := ledger.stories number run present
  rw [← recounts.same] at member ⊢
  exact recounts.walked.undecided_of_leg member

/-- A fetch over providers with different names calls none of them twice. -/
theorem nodup_askedIn (ledger : hedger.Ledger clock) (present : hedger.fetches[number]? = some run)
    (names : (hedger.providers.map Provider.name).Nodup) : (hedger.askedIn run.fetch.deadline.token).Nodup := by
  obtain ⟨story, recounts⟩ := ledger.stories number run present
  apply List.Nodup.of_map some
  rw [recounts.called]
  refine List.Nodup.map_on (fun first member second _ same => ?_) recounts.walked.called
  have known : hedger.providers[first]?.map Provider.name ∈ (hedger.askedIn run.fetch.deadline.token).map some := by
    rw [recounts.called]
    exact List.mem_map_of_mem member
  obtain ⟨name, _, own⟩ := List.mem_map.mp known
  rw [← List.getElem?_map] at own
  rw [← List.getElem?_map, ← List.getElem?_map] at same
  obtain ⟨inside, _⟩ := List.getElem?_eq_some_iff.mp own.symm
  exact (List.getElem?_inj inside names).mp same

end Ledger

end Hedger

end HedgedForecast
