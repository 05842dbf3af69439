import HedgedForecast.Proofs.Cache.Turns
import HedgedForecast.Proofs.Hedge.Keeping
import HedgedForecast.Proofs.Simulation

/-! # What a fetch leaves behind

A fetch that has given its result, or was dropped before, leaves nothing behind: none of its legs is left, each
call that it began has ended or was stopped, and nothing that is done later changes it or one of these calls.
This holds however fetches that share providers and scopes interleave, and whatever calls do about their
deadlines. All that a fetch cancels is its own scope, which lies within the deadline of its caller.
-/

namespace HedgedForecast

/-- The call has ended by itself, or it was stopped. -/
inductive ProviderCall.Over (call : ProviderCall) : Prop
  | finished {instant : Nat} {ending : WorkEnd (List ForecastDay)} (ended : call.endedAt = some instant)
      (due : call.dueAt ≤ instant) (own : call.ending = some ending) (outcome : call.outcome = some ending.outcome)
  | abandoned {instant : Nat} (ended : call.endedAt = some instant) (outcome : call.outcome = some .abandoned)

theorem ProviderCall.Over.ended {call : ProviderCall} (spent : call.Over) : call.endedAt ≠ none := by
  cases spent with
  | finished ended => simp [ended]
  | abandoned ended => simp [ended]

/-- A call that ends now is over. -/
theorem ProviderCall.over_of_ending? {call : ProviderCall} {clock : Clock} {ending : WorkEnd (List ForecastDay)}
    {outcome : WorkOutcome} (ends : call.ending? clock = some (ending, outcome)) :
    ProviderCall.Over { call with endedAt := some clock.now, outcome := some outcome } := by
  have own {ending : WorkEnd (List ForecastDay)}
      (due : (if call.dueAt ≤ clock.now then call.ending else none) = some ending) :
      ProviderCall.Over { call with endedAt := some clock.now, outcome := some ending.outcome } := by
    split at due
    · next reached => exact .finished rfl reached due rfl
    · contradiction
  unfold ending? at ends
  simp only at ends
  split at ends
  · obtain ⟨ending, due, same⟩ := Option.map_eq_some_iff.mp ends
    cases same
    exact own due
  · obtain ⟨verdict, reached, same⟩ := Option.map_eq_some_iff.mp ends
    obtain ⟨_, rfl⟩ | ⟨_, _, rfl⟩ | ⟨_, _, ending, due, rfl⟩ := Deadline.verdict_cases reached
    · cases same
      exact .abandoned rfl rfl
    · cases same
      exact .abandoned rfl rfl
    · cases same
      exact own due

/-- The log has gone on: a call that had ended is as it was, and one that has ended since is over. -/
structure GoesOn (calls later : Array ProviderCall) : Prop where
  kept : ∀ (number : Nat) (call : ProviderCall), calls[number]? = some call →
    later[number]? = some call ∨ call.endedAt = none ∧ ∃ spent, later[number]? = some spent ∧ spent.Over
  new : ∀ (number : Nat) (call : ProviderCall), later[number]? = some call → calls[number]? = none →
    call.endedAt ≠ none → call.Over

namespace GoesOn

variable {calls middle later : Array ProviderCall}

theorem refl (calls : Array ProviderCall) : GoesOn calls calls where
  kept := fun _ _ there => .inl there
  new := fun _ _ there absent => by rw [absent] at there; contradiction

theorem trans (first : GoesOn calls middle) (second : GoesOn middle later) : GoesOn calls later := by
  constructor
  · intro number call there
    rcases first.kept number call there with same | ⟨runs, spent, here, done⟩
    · exact second.kept number call same
    · rcases second.kept number spent here with same | ⟨still, _⟩
      · exact .inr ⟨runs, spent, same, done⟩
      · exact absurd still done.ended
  · intro number call there absent ended
    cases between : middle[number]? with
    | none => exact second.new number call there between ended
    | some before =>
      rcases second.kept number before between with same | ⟨_, spent, here, done⟩
      · obtain rfl := Option.some.inj (there.symm.trans same)
        exact first.new number call between absent ended
      · obtain rfl := Option.some.inj (there.symm.trans here)
        exact done

theorem size_le (goesOn : GoesOn calls later) : calls.size ≤ later.size := by
  refine size_le_of_present fun number call there => ?_
  rcases goesOn.kept number call there with same | ⟨_, spent, here, _⟩
  · exact ⟨call, same⟩
  · exact ⟨spent, here⟩

/-- A call that had ended is as it was. -/
theorem past (goesOn : GoesOn calls later) {number : Nat} {call : ProviderCall} (there : calls[number]? = some call)
    (ended : call.endedAt ≠ none) : later[number]? = some call :=
  (goesOn.kept number call there).resolve_right fun changed => ended changed.1

theorem push (calls : Array ProviderCall) {call : ProviderCall} (runs : call.endedAt = none) :
    GoesOn calls (calls.push call) := by
  constructor
  · exact fun _ _ there => .inl (getElem?_push_of_some _ there)
  · intro number call' there absent ended
    rcases getElem?_push_cases there with ⟨_, old⟩ | ⟨_, rfl⟩
    · rw [absent] at old
      contradiction
    · exact absurd runs ended

theorem endCall (hedger : Hedger) {now number : Nat} {outcome : WorkOutcome}
    (spent : ∀ call, hedger.calls[number]? = some call →
      ProviderCall.Over { call with endedAt := some now, outcome := some outcome }) :
    GoesOn hedger.calls (hedger.endCall now number outcome).calls := by
  constructor
  · intro place call there
    by_cases same : number = place
    · subst same
      have here := getElem?_modify_self (fun call : ProviderCall =>
        if call.endedAt.isNone then { call with endedAt := some now, outcome := some outcome } else call) there
      split at here
      · next runs => exact .inr ⟨Option.isNone_iff_eq_none.mp runs, _, here, spent call there⟩
      · exact .inl here
    · exact .inl ((getElem?_modify_of_ne _ _ same).trans there)
  · intro place call there absent
    obtain ⟨before, old, _⟩ := getElem?_modify_cases there
    rw [absent] at old
    contradiction

theorem abandon (hedger : Hedger) (now : Nat) (legs : List Leg) :
    GoesOn hedger.calls (hedger.abandon now legs).calls := by
  unfold Hedger.abandon
  induction legs.filterMap Leg.call generalizing hedger with
  | nil => exact refl _
  | cons number rest ih => exact (endCall hedger fun _ _ => .abandoned rfl rfl).trans (ih _)

end GoesOn

/-- The scope has a number that is neither that of the other one nor that of a scope around it. -/
def Token.IsApart (scope token : Token) : Prop :=
  ∃ number outer, scope = ⟨number :: outer⟩ ∧ number ∉ token.lineage

namespace Fetch

variable {fetch next : Fetch} {clock clock' : Clock} {size : Nat}

/-- Legs are left only while the fetch is undecided, each in its own place and with a call of the log, if any. -/
structure Tidy (fetch : Fetch) (size : Nat) : Prop where
  closed : fetch.result ≠ none → fetch.legs = []
  places : (fetch.legs.map Leg.index).Nodup
  asked : ∀ leg ∈ fetch.legs, leg.index < fetch.next
  logged : ∀ leg ∈ fetch.legs, ∀ call, leg.call = some call → call < size

namespace Tidy

theorem of_legs_eq_nil (legs : fetch.legs = []) : fetch.Tidy size where
  closed := fun _ => legs
  places := by simp [legs]
  asked := by simp [legs]
  logged := by simp [legs]

theorem mono (tidy : fetch.Tidy size) {size' : Nat} (le : size ≤ size') : fetch.Tidy size' :=
  { tidy with logged := fun leg member call called => Nat.lt_of_lt_of_le (tidy.logged leg member call called) le }

theorem undecided (tidy : fetch.Tidy size) {leg : Leg} (member : leg ∈ fetch.legs) : fetch.result = none := by
  by_contra decided
  rw [tidy.closed decided] at member
  contradiction

theorem leg_unique (tidy : fetch.Tidy size) {leg other : Leg} (member : leg ∈ fetch.legs)
    (member' : other ∈ fetch.legs) (same : leg.index = other.index) : leg = other :=
  List.inj_on_of_nodup_map tidy.places member member' same

/-- The next leg has a place of its own. -/
theorem startLeg (tidy : fetch.Tidy size) (undecided : next.result = none) {leg : Leg} (new : fetch.IsNext leg)
    (legs : next.legs = fetch.legs ++ [leg]) (place : next.next = fetch.next + 1) : next.Tidy size := by
  constructor
  · exact fun decided => absurd undecided decided
  · rw [legs, List.map_append, List.nodup_append]
    refine ⟨tidy.places, List.nodup_singleton _, ?_⟩
    intro index old last own
    obtain ⟨other, member, rfl⟩ := List.mem_map.mp old
    rw [List.map_singleton, List.mem_singleton, new.index] at own
    exact Nat.ne_of_lt (own ▸ tidy.asked other member)
  · intro other member
    rw [legs] at member
    rw [place]
    rcases List.mem_append.mp member with old | own
    · exact Nat.lt_succ_of_lt (tidy.asked other old)
    · rw [List.mem_singleton.mp own, new.index]
      exact Nat.lt_succ_self _
  · intro other member call called
    rw [legs] at member
    rcases List.mem_append.mp member with old | own
    · exact tidy.logged other old call called
    · rw [List.mem_singleton.mp own, new.uncalled] at called
      contradiction

theorem turned (tidy : fetch.Tidy size) (undecided : fetch.result = none)
    (turned : fetch.Turned clock next clock') : next.Tidy size := by
  cases turned with
  | cancelled | expired | decided | exhausted => exact of_legs_eq_nil rfl
  | noted => exact ⟨fun decided => absurd undecided decided, tidy.places, tidy.asked, tidy.logged⟩
  | replaced _ _ _ _ _ new => exact tidy.startLeg undecided new rfl rfl
  | fired _ _ _ _ _ new => exact tidy.startLeg undecided new rfl rfl

theorem legBegan (tidy : fetch.Tidy size) (undecided : fetch.result = none) (index : Nat) :
    (fetch.legBegan index size).Tidy (size + 1) := by
  constructor
  · exact fun decided => absurd undecided decided
  · rw [legBegan_indices]
    exact tidy.places
  · intro leg member
    obtain ⟨before, old, rfl⟩ := List.mem_map.mp member
    split
    · exact tidy.asked before old
    · exact tidy.asked before old
  · intro leg member call called
    obtain ⟨before, old, rfl⟩ := List.mem_map.mp member
    split at called
    · obtain rfl := Option.some.inj called
      exact Nat.lt_succ_self _
    · exact Nat.lt_succ_of_lt (tidy.logged before old call called)

theorem legEnded (tidy : fetch.Tidy size) (undecided : fetch.result = none) (index : Nat)
    (ending : WorkEnd (List ForecastDay)) : (fetch.legEnded index ending).Tidy size where
  closed := fun decided => absurd undecided decided
  places := tidy.places.sublist (List.filter_sublist.map _)
  asked := fun leg member => tidy.asked leg (List.mem_filter.mp member).1
  logged := fun leg member => tidy.logged leg (List.mem_filter.mp member).1

theorem begin (clock : Clock) (chain threshold : Nat) (deadline : Deadline) :
    (Fetch.begin clock chain threshold deadline).1.Tidy size := by
  cases chain with
  | zero => exact of_legs_eq_nil rfl
  | succ chain =>
    have none : Tidy { (Fetch.begin clock 0 threshold deadline).1 with result := none } size := of_legs_eq_nil rfl
    exact none.startLeg rfl ⟨rfl, rfl⟩ rfl rfl

end Tidy

/-- Of the scopes that there are only that of the fetch may have been cancelled. -/
inductive Minds (fetch : Fetch) (clock : Clock) : Clock → Prop
  | same : Minds fetch clock clock
  | scope (parent : Token) : Minds fetch clock (clock.childToken parent).2
  | cancel : Minds fetch clock (clock.cancel fetch.scope)

/-- To a scope that does not lie within its own one a fetch does nothing. -/
theorem Minds.isCancelled (minds : fetch.Minds clock clock') {token : Token} (apart : fetch.scope.IsApart token) :
    clock'.isCancelled token = clock.isCancelled token := by
  cases minds with
  | same => rfl
  | scope parent => rfl
  | cancel =>
    obtain ⟨number, outer, scope, apart⟩ := apart
    rw [Bool.eq_iff_iff, scope]
    simp only [Clock.isCancelled, Scopes.isCancelled_iff, Clock.cancel, Scopes.cancel, List.take_succ_cons,
      List.take_zero, List.singleton_append, List.mem_cons]
    constructor
    · rintro ⟨scope, own, rfl | old⟩
      · exact absurd own apart
      · exact ⟨scope, own, old⟩
    · rintro ⟨scope, own, old⟩
      exact ⟨scope, own, .inr old⟩

theorem Turned.minds (turned : fetch.Turned clock next clock') : fetch.Minds clock clock' := by
  cases turned with
  | cancelled | expired | decided | exhausted => exact .cancel
  | replaced | fired => exact .scope _
  | noted => exact .same

end Fetch

namespace Hedger

/-- What may be done: for the fetch of a number, in any order, or by others. -/
inductive Deed where
  | begin (request : Request) (deadline : Deadline)
  | legBegins (number place : Nat)
  | legEnds (number place : Nat)
  | turn (number : Nat)
  | drop (number : Nat)
  | pass (instant : Nat)
  | scope (parent : Option Token)
  | cancel (token : Token)

/-- It is the fetch of that number that does it, or one of its legs. -/
def Deed.IsOf (number : Nat) : Deed → Prop
  | .legBegins own _ | .legEnds own _ | .turn own | .drop own => own = number
  | _ => False

/-- The hedger and the clock after a deed, if that can be done. -/
def after? (state : Hedger × Clock) : Deed → Option (Hedger × Clock)
  | .begin request deadline => some (state.1.begin state.2 request deadline).2
  | .legBegins number place => do
    let run ← state.1.fetches[number]?
    let leg ← run.fetch.legs[place]?
    let hedger ← state.1.beginLeg? state.2 number run leg
    return (hedger, state.2)
  | .legEnds number place => do
    let run ← state.1.fetches[number]?
    let leg ← run.fetch.legs[place]?
    let hedger ← state.1.endLeg? state.2 number run leg
    return (hedger, state.2)
  | .turn number => state.1.fetches[number]?.bind fun run => state.1.turnFetch? state.2 number run
  | .drop number => some (state.1.drop state.2 number)
  | .pass instant => some (state.1, state.2.moveTo instant)
  | .scope none => some (state.1, state.2.freshToken.2)
  | .scope (some parent) => some (state.1, (state.2.childToken parent).2)
  | .cancel token => some (state.1, state.2.cancel token)

/-- What a hedger does by itself is one of its fetches' deeds. -/
theorem exists_deed_of_turn? {hedger next : Hedger} {clock clock' : Clock}
    (turn : hedger.turn? clock = some (next, clock')) :
    ∃ number deed, deed.IsOf number ∧ after? (hedger, clock) deed = some (next, clock') := by
  cases turn?_works turn with
  | @beginLeg number run leg _ present member begun =>
    obtain ⟨place, there⟩ := List.mem_iff_getElem?.mp member
    exact ⟨number, .legBegins number place, rfl, by simp [after?, present, there, begun]⟩
  | @endLeg number run leg _ present member ended =>
    obtain ⟨place, there⟩ := List.mem_iff_getElem?.mp member
    exact ⟨number, .legEnds number place, rfl, by simp [after?, present, there, ended]⟩
  | @turnFetch number run _ _ present turned =>
    exact ⟨number, .turn number, rfl, by simp [after?, present, turned]⟩

/-- All that is known of the fetches of a hedger and of its log. -/
structure Sound (hedger : Hedger) : Prop where
  tidy : ∀ run ∈ hedger.fetches, run.fetch.Tidy hedger.calls.size
  spent : ∀ call ∈ hedger.calls, call.endedAt ≠ none → call.Over

/-- A fetch or one of its legs has done something. -/
structure Advances (hedger next : Hedger) (number : Nat) (run : FetchRun) (fetch : Fetch) : Prop where
  fetches : next.fetches = hedger.fetches.modify number fun run' => { run' with fetch }
  undecided : run.fetch.result = none
  scope : fetch.scope = run.fetch.scope
  tidy : fetch.Tidy next.calls.size
  calls : GoesOn hedger.calls next.calls
  /-- The call of a leg is still that of a leg, or it is over. -/
  legs : ∀ leg ∈ run.fetch.legs, ∀ call, leg.call = some call →
    (∃ leg' ∈ fetch.legs, leg'.call = some call) ∨ ∃ found, next.calls[call]? = some found ∧ found.endedAt ≠ none

variable {hedger next : Hedger} {clock clock' : Clock} {number : Nat} {run : FetchRun} {leg : Leg}

namespace Advances

theorem beginLeg (tidy : run.fetch.Tidy hedger.calls.size) (member : leg ∈ run.fetch.legs)
    (begun : hedger.beginLeg? clock number run leg = some next) :
    hedger.Advances next number run (run.fetch.legBegan leg.index hedger.calls.size) := by
  obtain ⟨call, calls⟩ := beginLeg?_calls begun
  have undecided := tidy.undecided member
  refine ⟨calls.fetches, undecided, rfl, ?_, ?_, ?_⟩
  · rw [calls.calls, Array.size_push]
    exact tidy.legBegan undecided leg.index
  · rw [calls.calls]
    exact .push _ calls.runs
  · intro other there made called
    refine .inl ⟨other, List.mem_map.mpr ⟨other, there, if_neg fun same => ?_⟩, called⟩
    rw [tidy.leg_unique there member (beq_iff_eq.mp same), calls.uncalled] at called
    contradiction

theorem endLeg (tidy : run.fetch.Tidy hedger.calls.size) (member : leg ∈ run.fetch.legs)
    (ended : hedger.endLeg? clock number run leg = some next) :
    ∃ ending, hedger.Advances next number run (run.fetch.legEnded leg.index ending) := by
  obtain ⟨call, found, ending, outcome, called, there, ends, rfl⟩ := endLeg?_eq_some ended
  have undecided := tidy.undecided member
  have goesOn : GoesOn hedger.calls (hedger.endCall clock.now call outcome).calls := by
    refine .endCall hedger fun other here => ?_
    obtain rfl := Option.some.inj (there.symm.trans here)
    exact ProviderCall.over_of_ending? ends
  refine ⟨ending, rfl, undecided, rfl, (tidy.legEnded undecided leg.index ending).mono goesOn.size_le, goesOn, ?_⟩
  intro other there' made called'
  by_cases same : other.index = leg.index
  · obtain rfl := tidy.leg_unique there' member same
    obtain rfl := Option.some.inj (called.symm.trans called')
    have past := (Ended.endCall hedger clock.now call outcome).past call (List.mem_singleton_self _)
    obtain ⟨later, here⟩ : ∃ later, (hedger.endCall clock.now call outcome).calls[call]? = some later :=
      ⟨_, getElem?_modify_self _ there⟩
    exact .inr ⟨later, here, past later here⟩
  · exact .inl ⟨other, List.mem_filter.mpr ⟨there', bne_iff_ne.mpr same⟩, called'⟩

/-- A fetch that stops its legs has their calls stopped. -/
theorem stop (tidy : run.fetch.Tidy hedger.calls.size) (undecided : run.fetch.result = none) (instant : Nat)
    {fetch : Fetch} (scope : fetch.scope = run.fetch.scope) (legs : fetch.legs = []) :
    hedger.Advances ((hedger.abandon instant run.fetch.legs).setFetch number fetch) number run fetch := by
  have goesOn := GoesOn.abandon hedger instant run.fetch.legs
  refine ⟨?_, undecided, scope, .of_legs_eq_nil legs, goesOn, ?_⟩
  · exact stop_fetches ..
  · intro leg member call called
    obtain ⟨later, same, ended⟩ := Ended.abandon hedger instant run.fetch.legs
    have bound := Nat.lt_of_lt_of_le (tidy.logged leg member call called) goesOn.size_le
    refine .inr ⟨_, Array.getElem?_eq_getElem bound, ?_⟩
    refine ended.past call (List.mem_filterMap.mpr ⟨leg, member, called⟩) _ ?_
    rw [← Array.getElem?_eq_getElem bound, same]

theorem turnFetch (tidy : run.fetch.Tidy hedger.calls.size)
    (turn : hedger.turnFetch? clock number run = some (next, clock')) :
    ∃ fetch, hedger.Advances next number run fetch ∧ run.fetch.Minds clock clock' := by
  obtain ⟨fetch, turn, same⟩ := turnFetch?_eq_some turn
  obtain ⟨undecided, turned⟩ := Fetch.turned_of_turn? turn
  have after := tidy.turned undecided turned
  refine ⟨fetch, ?_, turned.minds⟩
  obtain ⟨decided, rfl⟩ | ⟨open', rfl⟩ := same
  · exact stop tidy undecided _ turned.scope (after.closed decided)
  · refine ⟨rfl, undecided, turned.scope, after, .refl _, fun leg member call called => ?_⟩
    exact .inl ⟨leg, turned.legs_of_undecided open' member, called⟩

end Advances

/-- What a deed changes. -/
inductive Effect (state : Hedger × Clock) : Deed → Hedger × Clock → Prop
  | own {deed : Deed} {number : Nat} {run : FetchRun} {fetch : Fetch} {next : Hedger} {clock : Clock}
      (own : deed.IsOf number) (present : state.1.fetches[number]? = some run)
      (advances : state.1.Advances next number run fetch) (minds : run.fetch.Minds state.2 clock) :
      Effect state deed (next, clock)
  | nothing {deed : Deed} : Effect state deed state
  | begin {request : Request} {deadline : Deadline} {fetch : Fetch} (clock : Clock)
      (tidy : fetch.Tidy state.1.calls.size) :
      Effect state (.begin request deadline)
        ({ state.1 with fetches := state.1.fetches.push ⟨request, fetch⟩ }, clock)
  | others {deed : Deed} (clock : Clock) (others : ∀ number, ¬ deed.IsOf number) : Effect state deed (state.1, clock)

/-- A fetch begins with its first leg at most, in a new scope within the deadline. -/
theorem begin_opens (hedger : Hedger) (clock : Clock) (request : Request) (deadline : Deadline) :
    ∃ fetch clock', (hedger.begin clock request deadline).2 =
        ({ hedger with fetches := hedger.fetches.push ⟨request, fetch⟩ }, clock') ∧
      fetch.Tidy hedger.calls.size ∧ fetch.scope = (clock.childToken deadline.token).1 ∧
      ∀ token, fetch.scope.IsApart token → clock'.isCancelled token = clock.isCancelled token := by
  have scope : (Fetch.begin clock hedger.providers.length hedger.threshold deadline).1.scope =
      (clock.childToken deadline.token).1 := by
    cases hedger.providers.length <;> rfl
  have scopes (token : Token) :
      (Fetch.begin clock hedger.providers.length hedger.threshold deadline).2.isCancelled token =
        clock.isCancelled token := by
    cases hedger.providers.length <;> rfl
  have tidy : (Fetch.begin clock hedger.providers.length hedger.threshold deadline).1.Tidy hedger.calls.size :=
    .begin ..
  unfold Hedger.begin
  generalize Fetch.begin clock hedger.providers.length hedger.threshold deadline = begun at scope scopes tidy
  cases turn : begun.1.turn? begun.2 with
  | none => exact ⟨begun.1, begun.2, by simp [turn], tidy, scope, fun token _ => scopes token⟩
  | some turned =>
    obtain ⟨undecided, how⟩ := Fetch.turned_of_turn? turn
    refine ⟨turned.1, turned.2, by simp [turn], tidy.turned undecided how, how.scope.trans scope, ?_⟩
    intro token apart
    rw [how.scope] at apart
    exact (how.minds.isCancelled apart).trans (scopes token)

variable {state after : Hedger × Clock} {deed : Deed}

theorem Deed.IsOf.unique {m n : Nat} (own : deed.IsOf m) (own' : deed.IsOf n) : m = n := by
  cases deed with
  | legBegins | legEnds | turn | drop => exact own.symm.trans own'
  | _ => exact own.elim

/-- Whatever is done changes one fetch and its calls at most. -/
theorem effect_of_after? (sound : state.1.Sound) (step : after? state deed = some after) :
    Effect state deed after := by
  have tidy {number : Nat} {run : FetchRun} (present : state.1.fetches[number]? = some run) :
      run.fetch.Tidy state.1.calls.size := sound.tidy run (Array.mem_of_getElem? present)
  cases deed with
  | begin request deadline =>
    obtain ⟨fetch, clock, same, tidy, _⟩ := begin_opens state.1 state.2 request deadline
    cases step
    rw [same]
    exact .begin _ tidy
  | legBegins number place =>
    simp only [after?, Option.bind_eq_bind, Option.bind_eq_some_iff] at step
    obtain ⟨run, present, leg, there, hedger, begun, same⟩ := step
    cases same
    exact .own rfl present (.beginLeg (tidy present) (List.mem_of_getElem? there) begun) .same
  | legEnds number place =>
    simp only [after?, Option.bind_eq_bind, Option.bind_eq_some_iff] at step
    obtain ⟨run, present, leg, there, hedger, ended, same⟩ := step
    cases same
    obtain ⟨_, advances⟩ := Advances.endLeg (tidy present) (List.mem_of_getElem? there) ended
    exact .own rfl present advances .same
  | turn number =>
    obtain ⟨run, present, turn⟩ := Option.bind_eq_some_iff.mp step
    obtain ⟨_, advances, minds⟩ := Advances.turnFetch (tidy present) turn
    exact .own rfl present advances minds
  | drop number =>
    cases step
    obtain ⟨same, _⟩ | ⟨run, present, undecided, same⟩ := drop_eq state.1 state.2 number
    · rw [same]
      exact .nothing
    · rw [same]
      exact .own rfl present (.stop (tidy present) undecided _ rfl rfl) .cancel
  | pass instant => cases step; exact .others _ fun _ => id
  | scope parent => cases parent <;> cases step <;> exact .others _ fun _ => id
  | cancel token => cases step; exact .others _ fun _ => id

namespace Effect

variable {number : Nat} {run : FetchRun}

theorem sound (effect : Effect state deed after) (sound : state.1.Sound) : after.1.Sound := by
  cases effect with
  | own _ present advances =>
    constructor
    · intro later member
      rw [advances.fetches] at member
      obtain ⟨before, old, rfl | ⟨_, rfl⟩⟩ := mem_modify member
      · exact (sound.tidy later old).mono advances.calls.size_le
      · exact advances.tidy
    · intro call member ended
      obtain ⟨place, there⟩ := Array.mem_iff_getElem?.mp member
      cases before : state.1.calls[place]? with
      | none => exact advances.calls.new place call there before ended
      | some call' =>
        rcases advances.calls.kept place call' before with same | ⟨_, spent, here, done⟩
        · obtain rfl := Option.some.inj (there.symm.trans same)
          exact sound.spent call (Array.mem_of_getElem? before) ended
        · obtain rfl := Option.some.inj (there.symm.trans here)
          exact done
  | nothing => exact sound
  | begin _ tidy =>
    refine ⟨fun later member => ?_, sound.spent⟩
    rcases Array.mem_push.mp member with old | rfl
    · exact sound.tidy later old
    · exact tidy
  | others => exact sound

theorem calls (effect : Effect state deed after) : GoesOn state.1.calls after.1.calls := by
  cases effect with
  | own _ _ advances => exact advances.calls
  | nothing | begin | others => exact .refl _

/-- Fetches go on in their scopes, and those that are decided do not go on. -/
theorem fetch (effect : Effect state deed after) (present : state.1.fetches[number]? = some run) :
    ∃ later, after.1.fetches[number]? = some later ∧ later.fetch.scope = run.fetch.scope ∧
      (run.fetch.result ≠ none → later = run) := by
  cases effect with
  | @own _ own other fetch _ _ _ there advances =>
    rw [advances.fetches]
    by_cases same : own = number
    · subst same
      obtain rfl := Option.some.inj (present.symm.trans there)
      exact ⟨_, getElem?_modify_self _ present, advances.scope, fun decided => absurd advances.undecided decided⟩
    · exact ⟨run, (getElem?_modify_of_ne _ _ same).trans present, rfl, fun _ => rfl⟩
  | nothing => exact ⟨run, present, rfl, fun _ => rfl⟩
  | begin => exact ⟨run, getElem?_push_of_some _ present, rfl, fun _ => rfl⟩
  | others => exact ⟨run, present, rfl, fun _ => rfl⟩

/-- The call of a leg is still that of a leg, or it is over. -/
theorem makes (effect : Effect state deed after) {leg : Leg} {call : Nat} (makes : state.1.Makes number leg call) :
    (∃ leg', after.1.Makes number leg' call) ∨
      ∃ found, after.1.calls[call]? = some found ∧ found.endedAt ≠ none := by
  obtain ⟨run, present, member, called⟩ := makes
  cases effect with
  | @own _ own other fetch _ _ _ there advances =>
    by_cases same : own = number
    · subst same
      obtain rfl := Option.some.inj (present.symm.trans there)
      rcases advances.legs leg member call called with ⟨leg', member', called'⟩ | spent
      · refine .inl ⟨leg', { run with fetch }, ?_, member', called'⟩
        rw [advances.fetches]
        exact getElem?_modify_self _ present
      · exact .inr spent
    · refine .inl ⟨leg, run, ?_, member, called⟩
      rw [advances.fetches]
      exact (getElem?_modify_of_ne _ _ same).trans present
  | nothing => exact .inl ⟨leg, run, present, member, called⟩
  | begin => exact .inl ⟨leg, run, getElem?_push_of_some _ present, member, called⟩
  | others => exact .inl ⟨leg, run, present, member, called⟩

/-- A fetch does nothing to scopes that do not lie within its own one. -/
theorem isCancelled (effect : Effect state deed after) (own : deed.IsOf number)
    (present : state.1.fetches[number]? = some run) {token : Token} (apart : run.fetch.scope.IsApart token) :
    after.2.isCancelled token = state.2.isCancelled token := by
  cases effect with
  | own own' present' _ minds =>
    obtain rfl := own.unique own'
    obtain rfl := Option.some.inj (present.symm.trans present')
    exact minds.isCancelled apart
  | nothing => rfl
  | begin => exact own.elim
  | others _ others => exact absurd own (others number)

end Effect

section Course

variable {source state next : Hedger × Clock} {number call place : Nat} {deeds later : List Deed} {deed : Deed}
  {token : Token}

/-- A leg of the fetch has begun the call. -/
def Begins (source : Hedger × Clock) (number : Nat) (deeds : List Deed) (call : Nat) : Prop :=
  ∃ before place after middle, deeds = before ++ .legBegins number place :: after ∧
    before.foldlM after? source = some middle ∧ middle.1.calls.size = call

/-- The scope was cancelled by somebody else than the fetch of that number. -/
def CancelledByOthers (source : Hedger × Clock) (number : Nat) (deeds : List Deed) (token : Token) : Prop :=
  ∃ before deed after middle next, deeds = before ++ deed :: after ∧ before.foldlM after? source = some middle ∧
    after? middle deed = some next ∧ ¬ deed.IsOf number ∧ middle.2.isCancelled token = false ∧
    next.2.isCancelled token = true

theorem Begins.of_snoc (begins : Begins source number (deeds ++ [deed]) call)
    (steps : deeds.foldlM after? source = some state) :
    Begins source number deeds call ∨ ∃ place, deed = .legBegins number place ∧ state.1.calls.size = call := by
  obtain ⟨before, place, rest, middle, same, reached, size⟩ := begins
  rcases List.eq_nil_or_concat rest with rfl | ⟨rest, last, rfl⟩
  · obtain ⟨rfl, last⟩ := List.append_inj' same rfl
    obtain rfl := Option.some.inj (steps.symm.trans reached)
    exact .inr ⟨place, List.head_eq_of_cons_eq last, size⟩
  · rw [List.concat_eq_append, ← List.cons_append, ← List.append_assoc] at same
    obtain ⟨rfl, _⟩ := List.append_inj' same rfl
    exact .inl ⟨before, place, rest, middle, rfl, reached, size⟩

theorem CancelledByOthers.snoc (others : CancelledByOthers source number deeds token) (deed : Deed) :
    CancelledByOthers source number (deeds ++ [deed]) token := by
  obtain ⟨before, other, rest, middle, next, rfl, how⟩ := others
  exact ⟨before, other, rest ++ [deed], middle, next, by simp, how⟩

theorem makes_of_legBegins (step : after? state (.legBegins number place) = some next) :
    ∃ leg, next.1.Makes number leg state.1.calls.size := by
  simp only [after?, Option.bind_eq_bind, Option.bind_eq_some_iff] at step
  obtain ⟨run, present, leg, there, hedger, begun, same⟩ := step
  cases same
  obtain ⟨call, calls⟩ := beginLeg?_calls begun
  refine ⟨{ leg with call := some state.1.calls.size }, _, calls.here present, ?_, rfl⟩
  exact List.mem_map.mpr ⟨leg, List.mem_of_getElem? there, if_pos (beq_self_eq_true _)⟩

/-- The fetch has gone on: each call that it began is that of a leg or over, and a scope that is not within its
own one was cancelled by others, if at all. -/
structure Course (source : Hedger × Clock) (number : Nat) (scope : Token) (deeds : List Deed)
    (state : Hedger × Clock) : Prop where
  sound : state.1.Sound
  fetch : ∃ run, state.1.fetches[number]? = some run ∧ run.fetch.scope = scope ∧
    (.drop number ∈ deeds → run.fetch.result ≠ none)
  calls : ∀ call, Begins source number deeds call → (∃ leg, state.1.Makes number leg call) ∨
    ∃ found, state.1.calls[call]? = some found ∧ found.endedAt ≠ none
  others : ∀ token, scope.IsApart token → state.2.isCancelled token = true →
    source.2.isCancelled token = true ∨ CancelledByOthers source number deeds token

namespace Course

variable {scope : Token}

theorem nil (sound : source.1.Sound) {run : FetchRun} (present : source.1.fetches[number]? = some run) :
    Course source number run.fetch.scope [] source where
  sound := sound
  fetch := ⟨run, present, rfl, nofun⟩
  calls := by
    rintro call ⟨before, place, rest, middle, same, _⟩
    simp at same
  others := fun _ _ => .inl

theorem snoc (course : Course source number scope deeds state) (steps : deeds.foldlM after? source = some state)
    (step : after? state deed = some next) : Course source number scope (deeds ++ [deed]) next := by
  have effect := effect_of_after? course.sound step
  obtain ⟨run, present, same, dropped⟩ := course.fetch
  refine ⟨effect.sound course.sound, ?_, fun call begins => ?_, fun token apart cancelled => ?_⟩
  · obtain ⟨later, there, scope, decided⟩ := effect.fetch present
    refine ⟨later, there, scope.trans same, fun member => ?_⟩
    rcases List.mem_append.mp member with old | last
    · rw [decided (dropped old)]
      exact dropped old
    · obtain rfl := List.mem_singleton.mp last
      cases step
      exact drop_decided there
  · rcases begins.of_snoc steps with old | ⟨place, rfl, rfl⟩
    · rcases course.calls call old with ⟨leg, makes⟩ | ⟨found, there, ended⟩
      · exact effect.makes makes
      · exact .inr ⟨found, effect.calls.past there ended, ended⟩
    · exact .inl (makes_of_legBegins step)
  · cases before : state.2.isCancelled token with
    | true => exact (course.others token apart before).imp_right (.snoc · deed)
    | false =>
      by_cases own : deed.IsOf number
      · rw [effect.isCancelled own present (same ▸ apart), before] at cancelled
        contradiction
      · exact .inr ⟨deeds, deed, [], state, next, rfl, steps, step, own, before, cancelled⟩

end Course

/-- The fetch stays as it is, and so do the calls that it began; it begins no others. -/
structure Rests (source : Hedger × Clock) (number : Nat) (deeds : List Deed) (now : Hedger × Clock)
    (later : List Deed) (last : Hedger × Clock) : Prop where
  fetch : last.1.fetches[number]? = now.1.fetches[number]?
  calls : ∀ call, Begins source number (deeds ++ later) call →
    Begins source number deeds call ∧ last.1.calls[call]? = now.1.calls[call]?

/-- Nothing of the fetch is left, whatever will be done. -/
structure Reaped (source : Hedger × Clock) (number : Nat) (deeds : List Deed) (now : Hedger × Clock) : Prop where
  legs : ∃ run, now.1.fetches[number]? = some run ∧ run.fetch.legs = []
  calls : ∀ call, Begins source number deeds call → ∃ found, now.1.calls[call]? = some found ∧ found.Over
  still : ∀ later last, later.foldlM after? now = some last → Rests source number deeds now later last

theorem Rests.snoc {run : FetchRun} {now last : Hedger × Clock} (rests : Rests source number deeds now later last)
    (steps : deeds.foldlM after? source = some now) (present : now.1.fetches[number]? = some run)
    (decided : run.fetch.result ≠ none) (legs : run.fetch.legs = [])
    (spent : ∀ call, Begins source number deeds call → ∃ found, now.1.calls[call]? = some found ∧ found.Over)
    (before : later.foldlM after? now = some last) (effect : Effect last deed next)
    (step : after? last deed = some next) : Rests source number deeds now (later ++ [deed]) next := by
  have here := rests.fetch.trans present
  constructor
  · obtain ⟨run', there, _, same⟩ := effect.fetch here
    rw [there, same decided, present]
  · intro call begins
    have reached : (deeds ++ later).foldlM after? source = some last := by
      rw [List.foldlM_append, steps]
      exact before
    rw [← List.append_assoc] at begins
    rcases begins.of_snoc reached with old | ⟨place, rfl, rfl⟩
    · obtain ⟨begun, same⟩ := rests.calls call old
      obtain ⟨found, there, spent⟩ := spent call begun
      exact ⟨begun, (effect.calls.past (same.trans there) spent.ended).trans there.symm⟩
    · simp [after?, here, legs] at step

theorem Course.reaped {scope : Token} (course : Course source number scope deeds state)
    (steps : deeds.foldlM after? source = some state) {run : FetchRun} (present : state.1.fetches[number]? = some run)
    (decided : run.fetch.result ≠ none) : Reaped source number deeds state := by
  have legs := (course.sound.tidy run (Array.mem_of_getElem? present)).closed decided
  have calls (call : Nat) (begins : Begins source number deeds call) :
      ∃ found, state.1.calls[call]? = some found ∧ found.Over := by
    rcases course.calls call begins with ⟨leg, run', present', member, _⟩ | ⟨found, there, ended⟩
    · obtain rfl := Option.some.inj (present.symm.trans present')
      rw [legs] at member
      contradiction
    · exact ⟨found, there, course.sound.spent found (Array.mem_of_getElem? there) ended⟩
  refine ⟨⟨run, present, legs⟩, calls, fun later last done => ?_⟩
  have kept : last.1.Sound ∧ Rests source number deeds state later last := by
    refine foldlM_induction ?_ (fun later middle deed next before ih step => ?_) done
    · exact ⟨course.sound, rfl, fun call begins => ⟨by simpa using begins, rfl⟩⟩
    · have effect := effect_of_after? ih.1 step
      exact ⟨effect.sound ih.1, ih.2.snoc steps present decided legs calls before effect step⟩
  exact kept.2

theorem Sound.step (sound : state.1.Sound) (step : after? state deed = some next) : next.1.Sound :=
  (effect_of_after? sound step).sound sound

/-- What is known of a hedger is known after all that is done. -/
theorem Sound.follow (sound : source.1.Sound) (steps : deeds.foldlM after? source = some state) : state.1.Sound :=
  foldlM_induction sound (fun _ _ _ _ _ sound step => sound.step step) steps

/-- However it ends, a fetch leaves nothing behind, and it never cancels its caller. -/
theorem reaped_of_begin {providers : List Provider} {threshold : Nat} {origin : Clock} {earlier : List Deed}
    {hedger : Hedger} {clock : Clock} {request : Request} {deadline : Deadline} {now : Hedger × Clock}
    (reached : earlier.foldlM after? ({ threshold, providers }, origin) = some (hedger, clock))
    (issued : ∀ scope ∈ deadline.token.lineage, scope < clock.scopes.issued)
    (done : deeds.foldlM after? (hedger.begin clock request deadline).2 = some now) :
    (.drop hedger.fetches.size ∈ deeds ∨ now.1.resultOf hedger.fetches.size ≠ none →
        Reaped (hedger.begin clock request deadline).2 hedger.fetches.size deeds now) ∧
      (now.2.isCancelled deadline.token = true → clock.isCancelled deadline.token = true ∨
        CancelledByOthers (hedger.begin clock request deadline).2 hedger.fetches.size deeds deadline.token) := by
  have fresh : Sound { threshold, providers } := ⟨by simp, by simp⟩
  have sound : hedger.Sound := fresh.follow reached
  have step : after? (hedger, clock) (.begin request deadline) = some (hedger.begin clock request deadline).2 := rfl
  have begun : (hedger.begin clock request deadline).2.1.Sound := Sound.step sound step
  obtain ⟨fetch, opened, same, tidy, scope, scopes⟩ := begin_opens hedger clock request deadline
  rw [same] at begun done ⊢
  have apart : fetch.scope.IsApart deadline.token :=
    ⟨_, _, scope, fun own => Nat.lt_irrefl _ (issued _ own)⟩
  have present : (hedger.fetches.push ⟨request, fetch⟩)[hedger.fetches.size]? = some ⟨request, fetch⟩ :=
    Array.getElem?_push_size
  have course : Course _ hedger.fetches.size fetch.scope deeds now :=
    foldlM_induction (.nil begun present) (fun _ _ _ _ steps course step => course.snoc steps step) done
  constructor
  · intro spent
    obtain ⟨run, there, _, dropped⟩ := course.fetch
    refine course.reaped done there ?_
    rcases spent with drop | result
    · exact dropped drop
    · simpa [resultOf, there] using result
  · intro cancelled
    rw [← scopes deadline.token apart]
    exact course.others deadline.token apart cancelled

end Course

/-- Of its providers the first one ignores its deadline, the second one panics, and the third one answers. -/
def stubbornHedger : Hedger where
  threshold := 10
  providers :=
    [{ name := "stubborn", steps := [⟨1000, fun _ => some (.value [])⟩], ignoresDeadline := true },
      { name := "fragile", steps := [⟨5, fun _ => some .panic⟩] },
      { name := "quick", steps := [⟨5, fun _ => some (.value [])⟩] }]

def oneDayInLima : Request where
  city := "Lima"
  country := ⟨'P', 'E', rfl, rfl⟩
  days := 1
  city_ne_empty := by decide
  days_bounds := by decide

/-- The third provider answers while the first one is still busy. Then the caller goes away. -/
def outlasted : List Deed :=
  [.legBegins 0 0, .pass 10, .turn 0, .legBegins 0 1, .pass 15, .legEnds 0 1, .turn 0, .legBegins 0 1, .pass 20,
    .legEnds 0 1, .turn 0, .cancel ⟨[0]⟩]

theorem reaped_outlasted :
    ∃ begun now call, begun = (stubbornHedger.begin ⟨0, ⟨1, []⟩⟩ oneDayInLima ⟨5000, ⟨[0]⟩⟩).2 ∧
      outlasted.foldlM after? begun = some now ∧ now.1.resultOf 0 = some (.ok []) ∧ now.1.calls[0]? = some call ∧
      call.ignoresDeadline = true ∧ call.endedAt = some 20 ∧ call.outcome = some .abandoned ∧
      Begins begun 0 outlasted 0 ∧ Reaped begun 0 outlasted now ∧ CancelledByOthers begun 0 outlasted ⟨[0]⟩ := by
  have reached : [Deed.scope none].foldlM after? (stubbornHedger, {}) = some (stubbornHedger, ⟨0, ⟨1, []⟩⟩) := rfl
  have issued : ∀ scope ∈ (Deadline.mk 5000 ⟨[0]⟩).token.lineage, scope < (Clock.mk 0 ⟨1, []⟩).scopes.issued := by
    decide
  obtain ⟨now, call, done, result, present, ignores, ended, outcome, cancelled⟩ : ∃ now call,
      outlasted.foldlM after? (stubbornHedger.begin ⟨0, ⟨1, []⟩⟩ oneDayInLima ⟨5000, ⟨[0]⟩⟩).2 = some now ∧
        now.1.resultOf 0 = some (.ok []) ∧ now.1.calls[0]? = some call ∧ call.ignoresDeadline = true ∧
        call.endedAt = some 20 ∧ call.outcome = some .abandoned ∧ now.2.isCancelled ⟨[0]⟩ = true :=
    ⟨_, _, rfl, rfl, rfl, rfl, rfl, rfl, rfl⟩
  obtain ⟨reaped, others⟩ := reaped_of_begin reached issued done
  refine ⟨_, now, call, rfl, done, result, present, ignores, ended, outcome, ?_, ?_, ?_⟩
  · exact ⟨[], 0, outlasted.tail, _, rfl, rfl, rfl⟩
  · exact reaped (.inr (result ▸ Option.some_ne_none _))
  · exact (others cancelled).resolve_left (by decide)

end Hedger

end HedgedForecast
