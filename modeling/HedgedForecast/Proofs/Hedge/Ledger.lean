import HedgedForecast.Proofs.Hedge.Tracking
import HedgedForecast.Proofs.Hedge.Walk

/-! # Which leg made which call

A hedger logs the calls of its providers and never forgets one. A call that runs belongs to one leg of one
fetch, and a leg that is stopped has its call ended. Legs work in scopes within that of their fetch, so that a
call tells by its scope for which fetch it was made; and since a fetch walks along the chain, it calls each
provider once at most and has two calls running at most.
-/

namespace HedgedForecast

/-- The scope is the other one or lies within it. -/
def Token.isWithin (token outer : Token) : Bool :=
  outer.lineage.isSuffixOf token.lineage

theorem Token.isWithin_iff {token outer : Token} : token.isWithin outer = true ↔ outer.lineage <:+ token.lineage :=
  List.isSuffixOf_iff_suffix

theorem Token.isWithin_child {clock : Clock} {token outer : Token} (within : token.isWithin outer = true) :
    (clock.childToken token).1.isWithin outer = true :=
  isWithin_iff.mpr ((isWithin_iff.mp within).trans (List.suffix_cons ..))

namespace Fetch

/-- All that is done for a fetch is done within the scope that it was begun in and by the same instant. -/
structure Within (fetch : Fetch) : Prop where
  scope : fetch.scope.isWithin fetch.deadline.token = true
  legs : ∀ leg ∈ fetch.legs, leg.deadline.token.isWithin fetch.deadline.token = true ∧
    leg.deadline.instant = fetch.deadline.instant

namespace Within

variable {fetch : Fetch}

theorem turn {clock clock' : Clock} {next : Fetch} (within : fetch.Within)
    (turn : fetch.turn? clock = some (next, clock')) : next.Within := by
  obtain ⟨_, turned⟩ := turned_of_turn? turn
  obtain ⟨_, _, deadline⟩ := turned.frame
  constructor
  · rw [turned.scope, deadline]
    exact within.scope
  · intro leg member
    rw [deadline]
    rcases adds_turn turn leg member with old | ⟨added, _⟩
    · exact within.legs leg old
    · rw [added]
      exact ⟨Token.isWithin_child within.scope, rfl⟩

theorem close (within : fetch.Within) (clock : Clock) (result : Except Failure (List ForecastDay)) :
    (fetch.close clock result).1.Within :=
  ⟨within.scope, nofun⟩

theorem legBegan (within : fetch.Within) (index call : Nat) : (fetch.legBegan index call).Within := by
  refine ⟨within.scope, fun leg member => ?_⟩
  obtain ⟨before, old, rfl⟩ := List.mem_map.mp member
  split
  · exact within.legs before old
  · exact within.legs before old

theorem legEnded (within : fetch.Within) (index : Nat) (ending : WorkEnd (List ForecastDay)) :
    (fetch.legEnded index ending).Within :=
  ⟨within.scope, fun leg member => within.legs leg (List.mem_filter.mp member).1⟩

theorem begin (clock : Clock) (size threshold : Nat) (deadline : Deadline) :
    (Fetch.begin clock size threshold deadline).1.Within := by
  have own : (clock.childToken deadline.token).1.isWithin deadline.token = true :=
    Token.isWithin_child (Token.isWithin_iff.mpr (List.suffix_refl _))
  cases size with
  | zero => exact ⟨own, fun _ member => absurd member List.not_mem_nil⟩
  | succ size =>
    refine ⟨own, fun leg member => ?_⟩
    obtain rfl := List.mem_singleton.mp member
    exact ⟨Token.isWithin_child own, rfl⟩

end Within

variable {fetch next : Fetch} {clock clock' : Clock}

/-- A leg that a turn adds has not called its provider. -/
theorem Turned.legs (turned : fetch.Turned clock next clock') {leg : Leg} (member : leg ∈ next.legs) :
    leg ∈ fetch.legs ∨ leg.call = none := by
  have added {last : Leg} (new : fetch.IsNext last) (there : leg ∈ fetch.legs ++ [last]) :
      leg ∈ fetch.legs ∨ leg.call = none := by
    rcases List.mem_append.mp there with old | own
    · exact .inl old
    · rw [List.mem_singleton.mp own]
      exact .inr new.uncalled
  cases turned with
  | cancelled | expired | decided | exhausted => contradiction
  | replaced _ _ _ _ _ new => exact added new member
  | noted => exact .inl member
  | fired _ _ _ _ _ new => exact added new member

/-- A turn that leaves a fetch undecided stops no leg. -/
theorem Turned.legs_of_undecided (turned : fetch.Turned clock next clock') (undecided : next.result = none) {leg : Leg}
    (member : leg ∈ fetch.legs) : leg ∈ next.legs := by
  cases turned with
  | cancelled | expired | decided | exhausted => contradiction
  | replaced => exact List.mem_append_left _ member
  | noted => exact member
  | fired => exact List.mem_append_left _ member

end Fetch

/-- Which provider is asked what, and in which scope. -/
structure Asking where
  provider : String
  request : Request
  deadline : Deadline

def ProviderCall.asking (call : ProviderCall) : Asking where
  provider := call.provider
  request := call.request
  deadline := call.deadline

theorem Provider.call_asking (provider : Provider) (clock : Clock) (request : Request) (deadline : Deadline) :
    (provider.call clock request deadline).1.asking = ⟨provider.name, request, deadline⟩ ∧
      (provider.call clock request deadline).1.endedAt = none ∧
      (provider.call clock request deadline).2.name = provider.name := by
  unfold Provider.call
  cases provider.steps with
  | nil => exact ⟨rfl, rfl, rfl⟩
  | cons step rest => exact ⟨rfl, rfl, rfl⟩

/-- Some calls have ended, and all else about calls is the same. -/
structure Ended (calls later : Array ProviderCall) (ended : List Nat) : Prop where
  askings : later.toList.map ProviderCall.asking = calls.toList.map ProviderCall.asking
  others : ∀ number, number ∉ ended → later[number]? = calls[number]?
  past : ∀ number ∈ ended, ∀ call, later[number]? = some call → call.endedAt ≠ none

namespace Ended

variable {calls middle later : Array ProviderCall} {first second : List Nat}

theorem refl (calls : Array ProviderCall) : Ended calls calls [] :=
  ⟨rfl, fun _ _ => rfl, nofun⟩

theorem trans (before : Ended calls middle first) (after : Ended middle later second) :
    Ended calls later (first ++ second) := by
  constructor
  · exact after.askings.trans before.askings
  · intro number neither
    rw [List.mem_append, not_or] at neither
    exact (after.others number neither.2).trans (before.others number neither.1)
  · intro number either call present
    by_cases last : number ∈ second
    · exact after.past number last call present
    · rw [after.others number last] at present
      exact before.past number ((List.mem_append.mp either).resolve_right last) call present

theorem endCall (hedger : Hedger) (now call : Nat) (outcome : WorkOutcome) :
    Ended hedger.calls (hedger.endCall now call outcome).calls [call] := by
  constructor
  · apply List.ext_getElem?
    intro number
    simp only [Hedger.endCall, List.getElem?_map, Array.getElem?_toList, Array.getElem?_modify]
    split
    · cases hedger.calls[number]? with
      | none => rfl
      | some found => simp only [Option.map_some]; split <;> rfl
    · rfl
  · intro number other
    exact getElem?_modify_of_ne _ _ fun same => other (same ▸ List.mem_singleton_self _)
  · intro number own found present
    obtain rfl := List.mem_singleton.mp own
    obtain ⟨before, _, ⟨other, _⟩ | ⟨_, rfl⟩⟩ := getElem?_modify_cases present
    · exact absurd rfl other
    · split
      · exact Option.some_ne_none _
      · next past => simpa using past

/-- The calls of the legs, and only they, are ended. -/
theorem abandon (hedger : Hedger) (now : Nat) (legs : List Leg) :
    ∃ later, hedger.abandon now legs = { hedger with calls := later } ∧
      Ended hedger.calls later (legs.filterMap Leg.call) := by
  unfold Hedger.abandon
  induction legs.filterMap Leg.call generalizing hedger with
  | nil => exact ⟨hedger.calls, rfl, .refl _⟩
  | cons call rest ih =>
    obtain ⟨later, same, ended⟩ := ih (hedger.endCall now call .abandoned)
    exact ⟨later, same, (endCall hedger now call .abandoned).trans ended⟩

end Ended

namespace Hedger

/-- The askings that were made so far. -/
def askings (hedger : Hedger) : List Asking :=
  hedger.calls.toList.map ProviderCall.asking

/-- The providers that were called in a scope or within it. -/
def askedIn (hedger : Hedger) (token : Token) : List String :=
  (hedger.askings.filter fun asking => asking.deadline.token.isWithin token).map Asking.provider

/-- The leg of the fetch has made the call and has not been stopped. -/
def Makes (hedger : Hedger) (number : Nat) (leg : Leg) (call : Nat) : Prop :=
  ∃ run, hedger.fetches[number]? = some run ∧ leg ∈ run.fetch.legs ∧ leg.call = some call

/-- The fetch has come this far along the chain, calling these providers on the way. -/
structure Recounts (hedger : Hedger) (clock : Clock) (fetch : Fetch) (story : Story) : Prop where
  same : story.fetch = fetch
  clock : story.clock = clock
  walked : story.Walked
  called : (hedger.askedIn fetch.deadline.token).map some =
    story.called.map fun index => hedger.providers[index]?.map Provider.name

theorem Recounts.tick {hedger : Hedger} {clock clock' : Clock} {fetch : Fetch} {story : Story}
    (recounts : hedger.Recounts clock fetch story) (now : clock.now ≤ clock'.now) :
    hedger.Recounts clock' fetch { story with clock := clock' } where
  same := recounts.same
  clock := rfl
  walked := recounts.walked.tick clock' story.cancelledAt (recounts.clock ▸ now)
  called := recounts.called

/-- Calls, legs and fetches fit together. -/
structure Ledger (hedger : Hedger) (clock : Clock) : Prop where
  stories : ∀ (number : Nat) (run : FetchRun), hedger.fetches[number]? = some run →
    ∃ story, hedger.Recounts clock run.fetch story
  within : ∀ (number : Nat) (run : FetchRun), hedger.fetches[number]? = some run → run.fetch.Within
  /-- No scope lies within those of two fetches. -/
  apart : ∀ (m n : Nat) (run other : FetchRun) (token : Token), hedger.fetches[m]? = some run →
    hedger.fetches[n]? = some other → token.isWithin run.fetch.deadline.token = true →
    token.isWithin other.fetch.deadline.token = true → m = n
  /-- Every call was made for a fetch. -/
  made : ∀ asking ∈ hedger.askings, ∃ (number : Nat) (run : FetchRun), hedger.fetches[number]? = some run ∧
    asking.deadline.token.isWithin run.fetch.deadline.token = true ∧ asking.request = run.request
  /-- What a leg has called runs. -/
  running : ∀ (number : Nat) (leg : Leg) (call : Nat), hedger.Makes number leg call →
    ∃ found, hedger.calls[call]? = some found ∧ found.endedAt = none ∧ found.deadline = leg.deadline
  /-- Two legs do not make one call. -/
  maker : ∀ (m n : Nat) (leg other : Leg) (call : Nat), hedger.Makes m leg call → hedger.Makes n other call →
    m = n ∧ leg.index = other.index
  /-- Every call that runs belongs to a leg. -/
  owned : ∀ (call : Nat) (found : ProviderCall), hedger.calls[call]? = some found → found.endedAt = none →
    ∃ number leg, hedger.Makes number leg call

variable {hedger next : Hedger} {clock clock' : Clock} {number : Nat} {run : FetchRun}

namespace Ledger

theorem empty (calls : hedger.calls = #[]) (fetches : hedger.fetches = #[]) (clock : Clock) : hedger.Ledger clock := by
  constructor
  · simp [fetches]
  · simp [fetches]
  · simp [fetches]
  · simp [askings, calls]
  · rintro number leg call ⟨run, present, _⟩
    simp [fetches] at present
  · rintro m n leg other call ⟨run, present, _⟩
    simp [fetches] at present
  · simp [calls]

/-- Time and scopes are nothing to the ledger. -/
theorem tick (ledger : hedger.Ledger clock) (now : clock.now ≤ clock'.now) : hedger.Ledger clock' := by
  refine { ledger with stories := fun number run present => ?_ }
  obtain ⟨story, recounts⟩ := ledger.stories number run present
  exact ⟨_, recounts.tick now⟩

/-- Legs that run have different places. -/
theorem leg_unique (ledger : hedger.Ledger clock) (present : hedger.fetches[number]? = some run) {leg other : Leg}
    (member : leg ∈ run.fetch.legs) (member' : other ∈ run.fetch.legs) (same : leg.index = other.index) :
    leg = other := by
  obtain ⟨story, recounts⟩ := ledger.stories number run present
  rw [← recounts.same] at member member'
  have books := recounts.walked.books (recounts.walked.undecided_of_leg member)
  exact List.inj_on_of_nodup_map (List.nodup_append.mp books.nodup).1 member member' same

end Ledger

/-- A fetch has gone on, and the calls of the legs that it stopped have ended. -/
structure Stops (hedger next : Hedger) (number : Nat) (run : FetchRun) (fetch : Fetch) (ended : List Nat) : Prop where
  providers : next.providers = hedger.providers
  calls : Ended hedger.calls next.calls ended
  fetches : next.fetches = hedger.fetches.modify number fun run' => { run' with fetch }
  deadline : fetch.deadline = run.fetch.deadline
  kept : ∀ leg ∈ fetch.legs, ∀ call, leg.call = some call → leg ∈ run.fetch.legs ∧ call ∉ ended
  left : ∀ leg ∈ run.fetch.legs, ∀ call, leg.call = some call → call ∉ ended → leg ∈ fetch.legs
  own : ∀ call ∈ ended, ∃ leg ∈ run.fetch.legs, leg.call = some call

namespace Stops

variable {fetch : Fetch} {ended : List Nat}

theorem here (stops : hedger.Stops next number run fetch ended) (present : hedger.fetches[number]? = some run) :
    next.fetches[number]? = some { run with fetch } := by
  rw [stops.fetches]
  exact getElem?_modify_self _ present

theorem there (stops : hedger.Stops next number run fetch ended) {n : Nat} (other : number ≠ n) :
    next.fetches[n]? = hedger.fetches[n]? := by
  rw [stops.fetches]
  exact getElem?_modify_of_ne _ _ other

/-- A fetch is the one that has gone on, or another one, as it was. -/
theorem fetch_cases (stops : hedger.Stops next number run fetch ended) (present : hedger.fetches[number]? = some run)
    {n : Nat} {later : FetchRun} (found : next.fetches[n]? = some later) :
    number ≠ n ∧ hedger.fetches[n]? = some later ∨ number = n ∧ later = { run with fetch } := by
  by_cases same : number = n
  · subst same
    exact .inr ⟨rfl, Option.some.inj (found.symm.trans (stops.here present))⟩
  · rw [stops.there same] at found
    exact .inl ⟨same, found⟩

theorem earlier (stops : hedger.Stops next number run fetch ended) (present : hedger.fetches[number]? = some run)
    {n : Nat} {later : FetchRun} (found : next.fetches[n]? = some later) :
    ∃ before, hedger.fetches[n]? = some before ∧ later.fetch.deadline = before.fetch.deadline := by
  rcases stops.fetch_cases present found with ⟨_, old⟩ | ⟨rfl, rfl⟩
  · exact ⟨later, old, rfl⟩
  · exact ⟨run, present, stops.deadline⟩

theorem askings (stops : hedger.Stops next number run fetch ended) : next.askings = hedger.askings :=
  stops.calls.askings

/-- The legs that are left have made the calls that are left. -/
theorem makes_iff (stops : hedger.Stops next number run fetch ended) (ledger : hedger.Ledger clock)
    (present : hedger.fetches[number]? = some run) {n call : Nat} {leg : Leg} :
    next.Makes n leg call ↔ hedger.Makes n leg call ∧ call ∉ ended := by
  constructor
  · rintro ⟨later, found, member, called⟩
    rcases stops.fetch_cases present found with ⟨distinct, old⟩ | ⟨rfl, rfl⟩
    · refine ⟨⟨later, old, member, called⟩, fun gone => ?_⟩
      obtain ⟨leg', member', called'⟩ := stops.own call gone
      have twice := ledger.maker number n leg' leg call ⟨run, present, member', called'⟩ ⟨later, old, member, called⟩
      exact distinct twice.1
    · obtain ⟨member', remains⟩ := stops.kept leg member call called
      exact ⟨⟨run, present, member', called⟩, remains⟩
  · rintro ⟨⟨before, old, member, called⟩, remains⟩
    by_cases same : number = n
    · subst same
      obtain rfl := Option.some.inj (present.symm.trans old)
      exact ⟨_, stops.here present, stops.left leg member call called remains, called⟩
    · exact ⟨before, (stops.there same).trans old, member, called⟩

/-- The story of the fetch goes on, and those of others are the same. -/
theorem stories (stops : hedger.Stops next number run fetch ended) (ledger : hedger.Ledger clock)
    (present : hedger.fetches[number]? = some run) (now : clock.now ≤ clock'.now)
    (goesOn : ∀ story : Story, story.fetch = run.fetch → story.clock = clock → story.Walked →
      ∃ later : Story, later.fetch = fetch ∧ later.clock = clock' ∧ later.Walked ∧ later.called = story.called)
    {n : Nat} {later : FetchRun} (found : next.fetches[n]? = some later) :
    ∃ story, next.Recounts clock' later.fetch story := by
  have asked (token : Token) : next.askedIn token = hedger.askedIn token := by
    rw [askedIn, askedIn, stops.askings]
  rcases stops.fetch_cases present found with ⟨_, old⟩ | ⟨rfl, rfl⟩
  · obtain ⟨story, recounts⟩ := ledger.stories n later old
    have ticked := recounts.tick now
    refine ⟨_, ticked.same, ticked.clock, ticked.walked, ?_⟩
    rw [asked, stops.providers]
    exact ticked.called
  · obtain ⟨story, recounts⟩ := ledger.stories number run present
    obtain ⟨later, same, time, walked, called⟩ := goesOn story recounts.same recounts.clock recounts.walked
    refine ⟨later, same, time, walked, ?_⟩
    rw [asked, stops.deadline, stops.providers, called]
    exact recounts.called

end Stops

/-- The ledger is kept when legs stop, if the fetch comes that far along the chain. -/
theorem Ledger.stop (ledger : hedger.Ledger clock) (present : hedger.fetches[number]? = some run) {fetch : Fetch}
    {ended : List Nat} (stops : hedger.Stops next number run fetch ended) (now : clock.now ≤ clock'.now)
    (within : fetch.Within)
    (goesOn : ∀ story : Story, story.fetch = run.fetch → story.clock = clock → story.Walked →
      ∃ later : Story, later.fetch = fetch ∧ later.clock = clock' ∧ later.Walked ∧ later.called = story.called) :
    next.Ledger clock' := by
  constructor
  · exact fun n later found => stops.stories ledger present now goesOn found
  · intro n later there
    rcases stops.fetch_cases present there with ⟨_, old⟩ | ⟨rfl, rfl⟩
    · exact ledger.within n later old
    · exact within
  · intro m n later other token there there' inside inside'
    obtain ⟨before, old, same⟩ := stops.earlier present there
    obtain ⟨before', old', same'⟩ := stops.earlier present there'
    rw [same] at inside
    rw [same'] at inside'
    exact ledger.apart m n before before' token old old' inside inside'
  · rw [stops.askings]
    intro asking member
    obtain ⟨n, before, old, inside, request⟩ := ledger.made asking member
    by_cases same : number = n
    · subst same
      obtain rfl := Option.some.inj (present.symm.trans old)
      exact ⟨number, _, stops.here present, by rw [stops.deadline]; exact inside, request⟩
    · exact ⟨n, before, (stops.there same).trans old, inside, request⟩
  · intro n leg call makes
    obtain ⟨made, remains⟩ := (stops.makes_iff ledger present).mp makes
    obtain ⟨found, old, runs, same⟩ := ledger.running n leg call made
    exact ⟨found, (stops.calls.others call remains).trans old, runs, same⟩
  · intro m n leg other call makes makes'
    have made := (stops.makes_iff ledger present).mp makes
    have made' := (stops.makes_iff ledger present).mp makes'
    exact ledger.maker m n leg other call made.1 made'.1
  · intro call found there runs
    have remains : call ∉ ended := fun gone => stops.calls.past call gone found there runs
    obtain ⟨n, leg, made⟩ := ledger.owned call found ((stops.calls.others call remains).symm.trans there) runs
    exact ⟨n, leg, (stops.makes_iff ledger present).mpr ⟨made, remains⟩⟩

end Hedger

end HedgedForecast
