import HedgedForecast.Proofs.Cache.Turns
import HedgedForecast.Proofs.Hedge.Keeping

/-! # What fetches are told

A fetch that gives days was told them by a leg, and the leg by its call: a provider of the chain ended a call for
the request of the fetch with these days. The log keeps the call. No fetch makes up days or takes those of another.
-/

namespace HedgedForecast

/-- A call of the provider for the request may end with these days. -/
def Provider.MayTell (provider : Provider) (request : Request) (days : List ForecastDay) : Prop :=
  ∃ step ∈ provider.steps, step.ending request = some (.value days)

/-- Some steps of the provider are left. -/
structure Provider.LeftOf (later provider : Provider) : Prop where
  name : later.name = provider.name
  steps : later.steps ⊆ provider.steps

namespace Provider.LeftOf

variable {later middle provider : Provider}

theorem trans (second : later.LeftOf middle) (first : middle.LeftOf provider) : later.LeftOf provider :=
  ⟨second.name.trans first.name, List.Subset.trans second.steps first.steps⟩

theorem mayTell (left : later.LeftOf provider) {request : Request} {days : List ForecastDay}
    (tells : later.MayTell request days) : provider.MayTell request days := by
  obtain ⟨step, own, ending⟩ := tells
  exact ⟨step, left.steps own, ending⟩

end Provider.LeftOf

theorem remainingSteps_subset {α : Type} (steps : List α) : remainingSteps steps ⊆ steps := by
  intro step member
  match steps with
  | [] => exact member
  | [last] => exact member
  | first :: second :: rest => exact List.mem_cons_of_mem _ member

namespace ProviderCall

variable {call : ProviderCall} {days : List ForecastDay}

/-- The call was for the request and has ended with these days. -/
structure Answered (call : ProviderCall) (request : Request) (days : List ForecastDay) : Prop where
  request : call.request = request
  ending : call.ending = some (.value days)
  outcome : call.outcome = some .ok
  ended : call.endedAt ≠ none

/-- A call that ends with days does so by itself. -/
theorem ending?_value {clock : Clock} {outcome : WorkOutcome}
    (ended : call.ending? clock = some (.value days, outcome)) :
    call.ending = some (.value days) ∧ outcome = .ok := by
  have own {ending : WorkEnd (List ForecastDay)}
      (due : (if call.dueAt ≤ clock.now then call.ending else none) = some ending) : call.ending = some ending := by
    split at due
    · exact due
    · contradiction
  unfold ending? at ended
  simp only at ended
  split at ended
  · obtain ⟨ending, due, same⟩ := Option.map_eq_some_iff.mp ended
    cases same
    exact ⟨own due, rfl⟩
  · obtain ⟨verdict, reached, same⟩ := Option.map_eq_some_iff.mp ended
    obtain ⟨_, rfl⟩ | ⟨_, _, rfl⟩ | ⟨_, _, ending, due, rfl⟩ := Deadline.verdict_cases reached
    · cases same
    · cases same
    · cases same
      exact ⟨own due, rfl⟩

/-- The provider made the call, and told what it may tell. -/
structure CalledBy (call : ProviderCall) (provider : Provider) : Prop where
  name : call.provider = provider.name
  tells : ∀ days, call.ending = some (.value days) → provider.MayTell call.request days

theorem CalledBy.left {later provider : Provider} (calledBy : call.CalledBy later) (left : later.LeftOf provider) :
    call.CalledBy provider :=
  ⟨calledBy.name.trans left.name, fun days told => left.mayTell (calledBy.tells days told)⟩

theorem CalledBy.congr {other : ProviderCall} {provider : Provider} (calledBy : call.CalledBy provider)
    (name : other.provider = call.provider) (request : other.request = call.request)
    (ending : other.ending = call.ending) : other.CalledBy provider := by
  refine ⟨name.trans calledBy.name, fun days told => ?_⟩
  rw [request]
  exact calledBy.tells days (ending ▸ told)

end ProviderCall

/-- A provider calls as one of its steps says, or fails; it keeps its name and some of its steps. -/
theorem Provider.call_tells (provider : Provider) (clock : Clock) (request : Request) (deadline : Deadline) :
    (provider.call clock request deadline).2.LeftOf provider ∧
      (provider.call clock request deadline).1.CalledBy provider := by
  unfold Provider.call
  cases steps : provider.steps with
  | nil => exact ⟨⟨rfl, List.Subset.refl _⟩, ⟨rfl, nofun⟩⟩
  | cons step rest =>
    refine ⟨⟨rfl, ?_⟩, ⟨rfl, fun days told => ?_⟩⟩
    · rw [steps]
      exact remainingSteps_subset _
    · exact ⟨step, steps ▸ List.mem_cons_self, told⟩

namespace Fetch

variable {fetch next : Fetch} {clock clock' : Clock} {days : List ForecastDay}

/-- The fetch has ended with these days, or a leg has and is not looked at yet. -/
def Told (fetch : Fetch) (days : List ForecastDay) : Prop :=
  fetch.result = some (.ok days) ∨ ∃ index, (index, WorkEnd.value days) ∈ fetch.arrivals

theorem not_told_of_error {failure : Failure} (result : fetch.result = some (.error failure))
    (arrivals : fetch.arrivals = []) : ¬fetch.Told days := by
  rintro (decided | ⟨index, arrived⟩)
  · rw [result] at decided
    cases decided
  · rw [arrivals] at arrived
    contradiction

theorem eq_value_of_decision? {ending : WorkEnd (List ForecastDay)} (decides : decision? ending = some (.ok days)) :
    ending = .value days := by
  cases ending with
  | value own =>
    cases decides
    rfl
  | panicked => contradiction
  | failure failure =>
    simp only [decision?] at decides
    split at decides
    · cases decides
    · contradiction

/-- A turn tells a fetch nothing new. -/
theorem Turned.told (turned : fetch.Turned clock next clock') (told : next.Told days) : fetch.Told days := by
  cases turned with
  | cancelled | expired | exhausted => exact absurd told (not_told_of_error rfl rfl)
  | @decided index ending _ _ _ _ arrived decides =>
    obtain decided | ⟨_, there⟩ := told
    · cases decided
      refine .inr ⟨index, ?_⟩
      rw [arrived, eq_value_of_decision? decides]
      exact List.mem_cons_self
    · contradiction
  | replaced _ arrived | noted _ arrived =>
    obtain decided | ⟨index, there⟩ := told
    · exact .inl decided
    · exact .inr ⟨index, arrived ▸ List.mem_cons_of_mem _ there⟩
  | fired => exact told

theorem told_of_legEnded {index : Nat} {ending : WorkEnd (List ForecastDay)}
    (told : (fetch.legEnded index ending).Told days) : fetch.Told days ∨ ending = .value days := by
  obtain decided | ⟨place, there⟩ := told
  · exact .inl (.inl decided)
  · rcases List.mem_append.mp there with old | new
    · exact .inl (.inr ⟨place, old⟩)
    · cases List.mem_singleton.mp new
      exact .inr rfl

theorem not_told_of_begin (clock : Clock) (size threshold : Nat) (deadline : Deadline) :
    ¬(begin clock size threshold deadline).1.Told days := by
  cases size with
  | zero => exact not_told_of_error rfl rfl
  | succ size =>
    rintro (decided | ⟨index, there⟩)
    · contradiction
    · contradiction

end Fetch

namespace Hedger

variable {hedger middle next : Hedger} {clock clock' : Clock} {number : Nat} {run : FetchRun} {leg : Leg}
  {chain : List Provider}

/-- Providers have gone on. What they were called for before is in the log as it was if it had ended. -/
structure Logs (hedger next : Hedger) : Prop where
  providers : ∀ provider ∈ next.providers, ∃ own ∈ hedger.providers, provider.LeftOf own
  known : ∀ call ∈ next.calls,
    (∃ before ∈ hedger.calls, call.provider = before.provider ∧ call.request = before.request ∧
      call.ending = before.ending) ∨
    ∃ provider ∈ hedger.providers, call.CalledBy provider
  kept : ∀ call ∈ hedger.calls, call.endedAt ≠ none → call ∈ next.calls

namespace Logs

theorem refl (hedger : Hedger) : hedger.Logs hedger where
  providers := fun provider member => ⟨provider, member, rfl, List.Subset.refl _⟩
  known := fun call member => .inl ⟨call, member, rfl, rfl, rfl⟩
  kept := fun _ member _ => member

theorem trans (first : hedger.Logs middle) (second : middle.Logs next) : hedger.Logs next := by
  constructor
  · intro provider member
    obtain ⟨between, there, later⟩ := second.providers provider member
    obtain ⟨own, here, earlier⟩ := first.providers between there
    exact ⟨own, here, later.trans earlier⟩
  · intro call member
    obtain ⟨between, there, name, request, ending⟩ | ⟨between, there, calledBy⟩ := second.known call member
    · obtain ⟨before, here, name', request', ending'⟩ | ⟨provider, here, calledBy⟩ := first.known between there
      · exact .inl ⟨before, here, name.trans name', request.trans request', ending.trans ending'⟩
      · exact .inr ⟨provider, here, calledBy.congr name request ending⟩
    · obtain ⟨own, here, left⟩ := first.providers between there
      exact .inr ⟨own, here, calledBy.left left⟩
  · exact fun call member ended => second.kept call (first.kept call member ended) ended

theorem endCall (hedger : Hedger) (now number : Nat) (outcome : WorkOutcome) :
    hedger.Logs (hedger.endCall now number outcome) := by
  refine { refl hedger with known := fun call member => .inl ?_, kept := fun call member ended => ?_ }
  · simp only [Hedger.endCall] at member
    obtain ⟨before, own, rfl | ⟨_, rfl⟩⟩ := mem_modify member
    · exact ⟨call, own, rfl, rfl, rfl⟩
    · refine ⟨before, own, ?_⟩
      split <;> exact ⟨rfl, rfl, rfl⟩
  · obtain ⟨place, present⟩ := Array.mem_iff_getElem?.mp member
    apply Array.mem_iff_getElem?.mpr
    refine ⟨place, ?_⟩
    by_cases same : number = place
    · subst same
      exact (getElem?_modify_self _ present).trans (by rw [if_neg (by simpa using ended)])
    · exact (getElem?_modify_of_ne _ _ same).trans present

theorem abandon (hedger : Hedger) (now : Nat) (legs : List Leg) : hedger.Logs (hedger.abandon now legs) := by
  unfold Hedger.abandon
  induction legs.filterMap Leg.call generalizing hedger with
  | nil => exact refl _
  | cons number rest ih => exact (endCall hedger now number .abandoned).trans (ih _)

theorem setFetch (logs : hedger.Logs next) (number : Nat) (fetch : Fetch) : hedger.Logs (next.setFetch number fetch) :=
  ⟨logs.providers, logs.known, logs.kept⟩

theorem beginLeg (begun : hedger.beginLeg? clock number run leg = some next) : hedger.Logs next := by
  obtain ⟨_, provider, there, rfl⟩ := beginLeg?_eq_some begun
  have own := List.mem_of_getElem? there
  obtain ⟨left, calledBy⟩ := provider.call_tells clock run.request leg.deadline
  refine ⟨fun other member => ?_, fun call member => ?_, fun call member _ => ?_⟩
  · rcases List.mem_or_eq_of_mem_set member with old | rfl
    · exact (refl hedger).providers other old
    · exact ⟨provider, own, left⟩
  · rcases Array.mem_push.mp member with old | rfl
    · exact (refl hedger).known call old
    · exact .inr ⟨provider, own, calledBy⟩
  · exact Array.mem_push_of_mem _ member

theorem endLeg (ended : hedger.endLeg? clock number run leg = some next) : hedger.Logs next := by
  obtain ⟨place, _, _, outcome, _, _, _, rfl⟩ := endLeg?_eq_some ended
  exact (endCall hedger clock.now place outcome).setFetch ..

theorem turnFetch (turn : hedger.turnFetch? clock number run = some (next, clock')) : hedger.Logs next := by
  obtain ⟨_, _, ⟨_, rfl⟩ | ⟨_, rfl⟩⟩ := turnFetch?_eq_some turn
  · exact (abandon hedger _ _).setFetch ..
  · exact (refl hedger).setFetch ..

theorem works (works : hedger.Works clock next clock') : hedger.Logs next := by
  cases works with
  | beginLeg _ _ begun => exact beginLeg begun
  | endLeg _ _ ended => exact endLeg ended
  | turnFetch _ turn => exact turnFetch turn

theorem drop (hedger : Hedger) (clock : Clock) (number : Nat) : hedger.Logs (hedger.drop clock number).1 := by
  obtain ⟨same, _⟩ | ⟨run, _, _, same⟩ := drop_eq hedger clock number
  · rw [same]
    exact refl hedger
  · rw [same]
    exact (abandon hedger clock.now run.fetch.legs).setFetch ..

/-- The chain and the log are as they were. -/
theorem congr (providers : next.providers = hedger.providers) (calls : next.calls = hedger.calls) :
    hedger.Logs next where
  providers := fun provider member => (refl hedger).providers provider (providers ▸ member)
  known := fun call member => (refl hedger).known call (calls ▸ member)
  kept := fun _ member _ => calls ▸ member

end Logs

/-- All that fetches were told was told by providers of the chain, for the requests of the fetches. -/
structure Faithful (chain : List Provider) (hedger : Hedger) : Prop where
  providers : ∀ provider ∈ hedger.providers, ∃ own ∈ chain, provider.LeftOf own
  calls : ∀ call ∈ hedger.calls, ∃ provider ∈ chain, call.CalledBy provider
  fetches : ∀ run ∈ hedger.fetches, ∀ days, run.fetch.Told days →
    ∃ call ∈ hedger.calls, call.Answered run.request days

/-- A leg has called its provider for the request of its fetch. -/
theorem Ledger.request_of_leg (ledger : hedger.Ledger clock) (present : hedger.fetches[number]? = some run)
    (member : leg ∈ run.fetch.legs) {place : Nat} (called : leg.call = some place) :
    ∃ call, hedger.calls[place]? = some call ∧ call.endedAt = none ∧ call.request = run.request := by
  obtain ⟨call, there, still, deadline⟩ := ledger.running number leg place ⟨run, present, member, called⟩
  have asked : call.asking ∈ hedger.askings :=
    List.mem_map_of_mem (Array.mem_toList_iff.mpr (Array.mem_of_getElem? there))
  obtain ⟨other, run', present', inside, request⟩ := ledger.made call.asking asked
  have within := ((ledger.within number run present).legs leg member).1
  rw [← deadline] at within
  obtain rfl := ledger.apart number other run run' _ present present' within inside
  obtain rfl := Option.some.inj (present.symm.trans present')
  exact ⟨call, there, still, request⟩

namespace Faithful

/-- Fetches are told nothing new, or only what their calls have ended with. -/
theorem goOn (faithful : hedger.Faithful chain) (logs : hedger.Logs next)
    (fetches : ∀ run ∈ next.fetches, ∀ days, run.fetch.Told days →
      (∃ before ∈ hedger.fetches, before.request = run.request ∧ before.fetch.Told days) ∨
        ∃ call ∈ next.calls, call.Answered run.request days) : next.Faithful chain := by
  constructor
  · intro provider member
    obtain ⟨own, here, left⟩ := logs.providers provider member
    obtain ⟨source, inside, left'⟩ := faithful.providers own here
    exact ⟨source, inside, left.trans left'⟩
  · intro call member
    obtain ⟨before, own, name, request, ending⟩ | ⟨provider, own, calledBy⟩ := logs.known call member
    · obtain ⟨source, inside, calledBy⟩ := faithful.calls before own
      exact ⟨source, inside, calledBy.congr name request ending⟩
    · obtain ⟨source, inside, left⟩ := faithful.providers provider own
      exact ⟨source, inside, calledBy.left left⟩
  · intro run member days told
    obtain ⟨before, own, request, told⟩ | answered := fetches run member days told
    · obtain ⟨call, logged, answered⟩ := faithful.fetches before own days told
      rw [request] at answered
      exact ⟨call, logs.kept call logged answered.ended, answered⟩
    · exact answered

/-- One fetch goes on. -/
theorem update (faithful : hedger.Faithful chain) (present : hedger.fetches[number]? = some run)
    (logs : hedger.Logs next) {fetch : Fetch}
    (fetches : next.fetches = hedger.fetches.modify number fun run' => { run' with fetch })
    (told : ∀ days, fetch.Told days → run.fetch.Told days ∨ ∃ call ∈ next.calls, call.Answered run.request days) :
    next.Faithful chain := by
  apply faithful.goOn logs
  rw [fetches]
  intro later member days new
  obtain ⟨before, own, rfl | ⟨here, rfl⟩⟩ := mem_modify member
  · exact .inl ⟨later, own, rfl, new⟩
  · obtain rfl := Option.some.inj (present.symm.trans here)
    rcases told days new with old | answered
    · exact .inl ⟨run, own, rfl, old⟩
    · exact .inr answered

theorem beginLeg (faithful : hedger.Faithful chain) (present : hedger.fetches[number]? = some run)
    (begun : hedger.beginLeg? clock number run leg = some next) : next.Faithful chain := by
  obtain ⟨_, calls⟩ := beginLeg?_calls begun
  exact faithful.update present (.beginLeg begun) calls.fetches fun days told => .inl told

/-- A leg tells its fetch what its call ends with. -/
theorem endLeg (faithful : hedger.Faithful chain) (ledger : hedger.Ledger clock)
    (present : hedger.fetches[number]? = some run) (member : leg ∈ run.fetch.legs)
    (ended : hedger.endLeg? clock number run leg = some next) : next.Faithful chain := by
  have logs : hedger.Logs next := .endLeg ended
  obtain ⟨place, call, ending, outcome, called, there, finished, rfl⟩ := endLeg?_eq_some ended
  obtain ⟨call', there', still, request⟩ := ledger.request_of_leg present member called
  obtain rfl := Option.some.inj (there.symm.trans there')
  refine faithful.update present logs rfl fun days told => ?_
  rcases Fetch.told_of_legEnded told with old | rfl
  · exact .inl old
  · obtain ⟨own, rfl⟩ := ProviderCall.ending?_value finished
    have logged : (hedger.endCall clock.now place .ok).calls[place]? = some _ := getElem?_modify_self _ there
    rw [if_pos (by rw [still]; rfl)] at logged
    exact .inr ⟨_, Array.mem_of_getElem? logged, request, own, rfl, Option.some_ne_none _⟩

/-- The legs of a fetch are stopped, and it is told nothing new. -/
theorem abandon (faithful : hedger.Faithful chain) (present : hedger.fetches[number]? = some run) (instant : Nat)
    (legs : List Leg) {fetch : Fetch} (told : ∀ days, fetch.Told days → run.fetch.Told days) :
    Faithful chain ((hedger.abandon instant legs).setFetch number fetch) := by
  have logs := (Logs.abandon hedger instant legs).setFetch number fetch
  obtain ⟨calls, same, _⟩ := Ended.abandon hedger instant legs
  rw [same] at logs ⊢
  exact faithful.update present logs rfl fun days new => .inl (told days new)

theorem turnFetch (faithful : hedger.Faithful chain) (present : hedger.fetches[number]? = some run)
    (turn : hedger.turnFetch? clock number run = some (next, clock')) : next.Faithful chain := by
  obtain ⟨fetch, turned, same⟩ := turnFetch?_eq_some turn
  obtain ⟨_, turned⟩ := Fetch.turned_of_turn? turned
  obtain ⟨_, rfl⟩ | ⟨_, rfl⟩ := same
  · exact faithful.abandon present _ _ fun days told => turned.told told
  · exact faithful.update present ((Logs.refl hedger).setFetch ..) rfl fun days told => .inl (turned.told told)

theorem works (faithful : hedger.Faithful chain) (ledger : hedger.Ledger clock)
    (works : hedger.Works clock next clock') : next.Faithful chain := by
  cases works with
  | beginLeg present _ begun => exact faithful.beginLeg present begun
  | endLeg present member ended => exact faithful.endLeg ledger present member ended
  | turnFetch present turn => exact faithful.turnFetch present turn

theorem drop (faithful : hedger.Faithful chain) (clock : Clock) (number : Nat) :
    (hedger.drop clock number).1.Faithful chain := by
  obtain ⟨same, _⟩ | ⟨run, present, _, same⟩ := drop_eq hedger clock number
  · rw [same]
    exact faithful
  · rw [same]
    exact faithful.abandon present _ _ fun days told => absurd told (Fetch.not_told_of_error rfl rfl)

/-- A fetch that begins has been told nothing. -/
theorem begin (faithful : hedger.Faithful chain) (clock : Clock) (request : Request) (deadline : Deadline) :
    (hedger.begin clock request deadline).2.1.Faithful chain := by
  refine faithful.goOn (.congr rfl rfl) fun run member days told => .inl ?_
  rcases Array.mem_push.mp member with old | rfl
  · exact ⟨run, old, rfl, told⟩
  · refine absurd told ?_
    have silent : ¬(Fetch.begin clock hedger.providers.length hedger.threshold deadline).1.Told days :=
      Fetch.not_told_of_begin clock hedger.providers.length hedger.threshold deadline
    generalize Fetch.begin clock hedger.providers.length hedger.threshold deadline = begun at silent
    cases turn : begun.1.turn? begun.2 with
    | none => exact silent
    | some next => exact fun told => silent ((Fetch.turned_of_turn? turn).2.told told)

theorem empty (calls : hedger.calls = #[]) (fetches : hedger.fetches = #[]) :
    hedger.Faithful hedger.providers where
  providers := (Logs.refl hedger).providers
  calls := by simp [calls]
  fetches := by simp [fetches]

end Faithful

end Hedger

end HedgedForecast
