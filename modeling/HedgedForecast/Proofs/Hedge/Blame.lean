import HedgedForecast.Cache.Calls
import HedgedForecast.Proofs.Hedge.Answers
import HedgedForecast.Proofs.Hedge.Reaping

/-! # Whom fetches blame

To be cancelled and to run out of request time are the failures that callers are blamed for. Providers do not
have them by themselves: a leg is cancelled only with its scope, which lies within that of its fetch. So as long
as nobody else cancels the scopes that fetches and their legs have for themselves, no fetch is told or tells such
a failure before its own deadline was cancelled or reached.
-/

namespace HedgedForecast

open Cache (isCallerSide)

/-- Providers may fail in this way by themselves. -/
def Failure.isProviders : Failure → Bool
  | providerFailed _ _ => true
  | cityNotFound _ _ => true
  | invalidRequest _ => true
  | timeout .provider => true
  | timeout .geocoding => true
  | _ => false

theorem Failure.not_isCallerSide {failure : Failure} (own : failure.isProviders = true) :
    isCallerSide failure = false := by
  cases failure with
  | timeout stage => cases stage <;> first | rfl | contradiction
  | unavailable | cancelled => contradiction
  | providerFailed | cityNotFound | invalidRequest => rfl

/-- By itself a call ends with failures of providers only, if with any. -/
def WorkEnd.IsModest (ending : WorkEnd (List ForecastDay)) : Prop :=
  ∀ failure, ending = .failure failure → failure.isProviders = true

/-- Whatever it is asked, the provider has failures of providers only. -/
def Provider.IsModest (provider : Provider) : Prop :=
  ∀ step ∈ provider.steps, ∀ request ending, step.ending request = some ending → ending.IsModest

def ProviderCall.IsModest (call : ProviderCall) : Prop :=
  ∀ ending, call.ending = some ending → ending.IsModest

theorem Provider.call_isModest {provider : Provider} (modest : provider.IsModest) (clock : Clock) (request : Request)
    (deadline : Deadline) : (provider.call clock request deadline).1.IsModest ∧
      (provider.call clock request deadline).2.IsModest := by
  unfold Provider.call
  cases steps : provider.steps with
  | nil =>
    refine ⟨fun ending told failure same => ?_, modest⟩
    cases told
    cases same
    rfl
  | cons step rest =>
    have own : step ∈ provider.steps := steps ▸ List.mem_cons_self
    refine ⟨fun ending told => modest step own request ending told, fun later member => ?_⟩
    have left : later ∈ step :: rest := remainingSteps_subset _ member
    exact modest later (steps ▸ left)

/-- The other clock has come later: time never goes back, and scopes are neither forgotten nor restored. -/
structure Clock.Follows (later clock : Clock) : Prop where
  now : clock.now ≤ later.now
  issued : clock.scopes.issued ≤ later.scopes.issued
  cancelled : ∀ scope ∈ clock.scopes.cancelled, scope ∈ later.scopes.cancelled

theorem Clock.Follows.refl (clock : Clock) : clock.Follows clock :=
  ⟨Nat.le_refl _, Nat.le_refl _, fun _ => id⟩

theorem Clock.Follows.trans {clock middle later : Clock} (second : later.Follows middle)
    (first : middle.Follows clock) : later.Follows clock :=
  ⟨Nat.le_trans first.now second.now, Nat.le_trans first.issued second.issued,
    fun scope gone => second.cancelled scope (first.cancelled scope gone)⟩

theorem Clock.follows_childToken (clock : Clock) (parent : Token) : (clock.childToken parent).2.Follows clock :=
  ⟨Nat.le_refl _, Nat.le_succ _, fun _ => id⟩

theorem Clock.follows_cancel (clock : Clock) (token : Token) : (clock.cancel token).Follows clock :=
  ⟨Nat.le_refl _, Nat.le_refl _, fun _ => List.mem_append_right _⟩

theorem Clock.mem_cancelled_cancel {clock : Clock} {token : Token} {scope : Nat} :
    scope ∈ (clock.cancel token).scopes.cancelled ↔
      token.lineage.head? = some scope ∨ scope ∈ clock.scopes.cancelled := by
  rcases token with ⟨_ | ⟨first, rest⟩⟩
  · simp [cancel, Scopes.cancel]
  · simp [cancel, Scopes.cancel, eq_comm]

theorem Clock.Follows.isCancelled {later clock : Clock} (follows : later.Follows clock) {token : Token}
    (was : clock.isCancelled token = true) : later.isCancelled token = true := by
  obtain ⟨scope, own, cancelled⟩ := (Scopes.isCancelled_iff ..).mp was
  exact (Scopes.isCancelled_iff ..).mpr ⟨scope, own, follows.cancelled scope cancelled⟩

/-- The deadline was cancelled or reached. -/
def Deadline.IsOver (clock : Clock) (deadline : Deadline) : Prop :=
  deadline.isCancelled clock = true ∨ deadline.isExpired clock = true

theorem Deadline.IsOver.follow {deadline : Deadline} {later clock : Clock} (spent : deadline.IsOver clock)
    (follows : later.Follows clock) : deadline.IsOver later := by
  rcases spent with cancelled | expired
  · exact .inl (follows.isCancelled cancelled)
  · exact .inr (decide_eq_true (Nat.le_trans (of_decide_eq_true expired) follows.now))

/-- When a deadline is over, what the work has to say makes no difference. -/
theorem Deadline.IsOver.verdict {α : Type} {deadline : Deadline} {clock : Clock} (spent : deadline.IsOver clock)
    (work other : Option α) : deadline.verdict clock work = deadline.verdict clock other := by
  unfold Deadline.verdict
  rcases spent with cancelled | expired
  · rw [if_pos cancelled, if_pos cancelled]
  · rw [if_pos expired, if_pos expired]

namespace Fetch

variable {fetch next : Fetch} {clock clock' : Clock}

/-- Some scopes are made, and of those that are one's own, within the outer one, one may be cancelled. -/
inductive Tame (own : Nat → Prop) (outer : Token) (clock : Clock) : Clock → Prop
  | same : Tame own outer clock clock
  | scope (parent : Token) : Tame own outer clock (clock.childToken parent).2
  | cancel {number : Nat} (mine : own number) (issued : number < clock.scopes.issued) :
      Tame own outer clock (clock.cancel ⟨number :: outer.lineage⟩)

namespace Tame

variable {own : Nat → Prop} {outer : Token}

theorem mono (tame : Tame own outer clock clock') {other : Nat → Prop} (weaker : ∀ number, own number → other number) :
    Tame other outer clock clock' := by
  cases tame with
  | same => exact .same
  | scope parent => exact .scope parent
  | cancel mine issued => exact .cancel (weaker _ mine) issued

theorem follows (tame : Tame own outer clock clock') : clock'.Follows clock := by
  cases tame with
  | same => exact .refl clock
  | scope parent => exact clock.follows_childToken parent
  | cancel => exact clock.follows_cancel _

theorem cancelled (tame : Tame own outer clock clock') {number : Nat} (gone : number ∈ clock'.scopes.cancelled) :
    number ∈ clock.scopes.cancelled ∨ own number ∧ number < clock.scopes.issued := by
  cases tame with
  | same => exact .inl gone
  | scope parent => exact .inl gone
  | cancel mine issued =>
    rcases Clock.mem_cancelled_cancel.mp gone with head | old
    · cases head
      exact .inr ⟨mine, issued⟩
    · exact .inl old

theorem follows_of_run (tames : Relation.ReflTransGen (Tame own outer) clock clock') : clock'.Follows clock := by
  induction tames with
  | refl => exact .refl clock
  | tail _ tame ih => exact tame.follows.trans ih

theorem cancelled_of_run (tames : Relation.ReflTransGen (Tame own outer) clock clock') {number : Nat}
    (gone : number ∈ clock'.scopes.cancelled) :
    number ∈ clock.scopes.cancelled ∨ own number ∧ number < clock'.scopes.issued := by
  induction tames with
  | refl => exact .inl gone
  | tail _ tame ih =>
    rcases tame.cancelled gone with old | ⟨mine, issued⟩
    · exact (ih old).imp_right (And.imp_right fun issued => Nat.lt_of_lt_of_le issued tame.follows.issued)
    · exact .inr ⟨mine, Nat.lt_of_lt_of_le issued tame.follows.issued⟩

end Tame

/-- The scope of the fetch or of one of its legs has that number. -/
def Uses (fetch : Fetch) (number : Nat) : Prop :=
  fetch.scope.lineage.head? = some number ∨ ∃ leg ∈ fetch.legs, leg.deadline.token.lineage.head? = some number

/-- A turn takes a new scope at most. -/
theorem uses_of_turn (turn : fetch.turn? clock = some (next, clock')) {number : Nat} (uses : next.Uses number) :
    fetch.Uses number ∨ number = clock.scopes.issued ∧ clock' = (clock.childToken fetch.scope).2 := by
  obtain ⟨_, turned⟩ := turned_of_turn? turn
  rcases uses with own | ⟨leg, member, own⟩
  · exact .inl (.inl (turned.scope ▸ own))
  · rcases adds_turn turn leg member with old | ⟨deadline, later⟩
    · exact .inl (.inr ⟨leg, old, own⟩)
    · rw [deadline] at own
      exact .inr ⟨(Option.some.inj own).symm, later⟩

theorem exists_of_legBegan {index call : Nat} {leg : Leg} (member : leg ∈ (fetch.legBegan index call).legs) :
    ∃ old ∈ fetch.legs, leg.deadline = old.deadline := by
  obtain ⟨old, there, rfl⟩ := List.mem_map.mp member
  exact ⟨old, there, by split <;> rfl⟩

theorem uses_of_legBegan {index call number : Nat} (uses : (fetch.legBegan index call).Uses number) :
    fetch.Uses number := by
  rcases uses with own | ⟨leg, member, own⟩
  · exact .inl own
  · obtain ⟨old, there, same⟩ := exists_of_legBegan member
    exact .inr ⟨old, there, same ▸ own⟩

theorem uses_of_legEnded {index number : Nat} {ending : WorkEnd (List ForecastDay)}
    (uses : (fetch.legEnded index ending).Uses number) : fetch.Uses number := by
  rcases uses with own | ⟨leg, member, own⟩
  · exact .inl own
  · exact .inr ⟨leg, (List.mem_filter.mp member).1, own⟩

theorem uses_of_close {result : Except Failure (List ForecastDay)} {number : Nat}
    (uses : (fetch.close clock result).1.Uses number) : fetch.Uses number := by
  rcases uses with own | ⟨leg, member, _⟩
  · exact .inl own
  · exact absurd member List.not_mem_nil

/-- The fetch works in scopes of its own, and as long as it is undecided, nobody has cancelled them and it was
told nothing that a caller is blamed for, unless its deadline is over. -/
structure Candid (clock : Clock) (fetch : Fetch) : Prop where
  scope : ∃ number, fetch.scope = ⟨number :: fetch.deadline.token.lineage⟩
  legs : ∀ leg ∈ fetch.legs, ∃ number, leg.deadline.token = ⟨number :: fetch.scope.lineage⟩
  issued : ∀ number, fetch.Uses number → number < clock.scopes.issued
  intact : fetch.result = none → ∀ number, fetch.Uses number → number ∉ clock.scopes.cancelled
  arrivals : fetch.result = none → ∀ index failure, (index, WorkEnd.failure failure) ∈ fetch.arrivals →
    isCallerSide failure = true → fetch.deadline.IsOver clock
  failures : fetch.result = none → ∀ rank failure, (rank, failure) ∈ fetch.failures →
    isCallerSide failure = true → fetch.deadline.IsOver clock

namespace Candid

/-- A fetch cancels no scopes of others. -/
theorem tame (candid : fetch.Candid clock) (minds : fetch.Minds clock clock') :
    Tame fetch.Uses fetch.deadline.token clock clock' := by
  cases minds with
  | same => exact .same
  | scope parent => exact .scope parent
  | cancel =>
    obtain ⟨number, scope⟩ := candid.scope
    have uses : fetch.Uses number := .inl (by rw [scope]; rfl)
    rw [scope]
    exact .cancel uses (candid.issued number uses)

/-- Others make and cancel their own scopes. -/
theorem follow (candid : fetch.Candid clock) (follows : clock'.Follows clock)
    (spared : fetch.result = none → ∀ number, fetch.Uses number → number ∈ clock'.scopes.cancelled →
      number ∈ clock.scopes.cancelled) : fetch.Candid clock' where
  scope := candid.scope
  legs := candid.legs
  issued := fun number uses => Nat.lt_of_lt_of_le (candid.issued number uses) follows.issued
  intact := fun undecided number uses cancelled =>
    candid.intact undecided number uses (spared undecided number uses cancelled)
  arrivals := fun undecided index failure told blamed =>
    (candid.arrivals undecided index failure told blamed).follow follows
  failures := fun undecided rank failure told blamed =>
    (candid.failures undecided rank failure told blamed).follow follows

/-- A leg of an undecided fetch is cancelled only with the deadline of the fetch. -/
theorem isOver_of_leg (candid : fetch.Candid clock) (undecided : fetch.result = none) {leg : Leg}
    (member : leg ∈ fetch.legs) (cancelled : leg.deadline.isCancelled clock = true) :
    fetch.deadline.IsOver clock := by
  obtain ⟨own, scope⟩ := candid.scope
  obtain ⟨inner, token⟩ := candid.legs leg member
  have intact := candid.intact undecided
  obtain ⟨number, within, gone⟩ := (Scopes.isCancelled_iff ..).mp cancelled
  rw [token, scope] at within
  rcases List.mem_cons.mp within with rfl | within
  · exact absurd gone (intact _ (.inr ⟨leg, member, by rw [token]; rfl⟩))
  · rcases List.mem_cons.mp within with rfl | within
    · exact absurd gone (intact _ (.inl (by rw [scope]; rfl)))
    · exact .inl ((Scopes.isCancelled_iff ..).mpr ⟨number, within, gone⟩)

/-- What a fetch notes was told it by a leg, or nobody is blamed for it. -/
theorem isOver_of_noted (candid : fetch.Candid clock) (undecided : fetch.result = none) {index rank : Nat}
    {ending : WorkEnd (List ForecastDay)} {setback : Nat × Failure} {failure : Failure}
    (arrived : (index, ending) ∈ fetch.arrivals) (failed : setback? fetch.size index ending = some setback)
    (noted : (rank, failure) ∈ fetch.failures ++ [setback]) (blamed : isCallerSide failure = true) :
    fetch.deadline.IsOver clock := by
  rcases List.mem_append.mp noted with old | last
  · exact candid.failures undecided rank failure old blamed
  · obtain rfl := List.mem_singleton.mp last
    cases ending with
    | value days => contradiction
    | panicked =>
      cases failed
      contradiction
    | failure own =>
      simp only [setback?] at failed
      split at failed
      · contradiction
      · cases failed
        exact candid.arrivals undecided index failure arrived blamed

/-- The failure that ends a fetch is not one that a caller is blamed for, unless the deadline is over. -/
theorem isOver_of_turned (candid : fetch.Candid clock) (undecided : fetch.result = none)
    (turned : fetch.Turned clock next clock') {failure : Failure} (failed : next.result = some (.error failure))
    (blamed : isCallerSide failure = true) : fetch.deadline.IsOver clock := by
  cases turned with
  | cancelled own => exact .inl own
  | expired _ own => exact .inr (decide_eq_true own)
  | @decided index ending _ _ _ _ _ decides =>
    obtain rfl := Option.some.inj failed
    cases ending with
    | value days => cases decides
    | panicked => cases decides
    | failure own =>
      simp only [decision?] at decides
      split at decides
      · next terminal =>
        cases decides
        cases failure <;> contradiction
      · contradiction
  | exhausted _ arrived noted =>
    have same : totalFailure _ = failure := Except.error.inj (Option.some.inj failed)
    obtain ⟨rank, last⟩ := isLast_totalFailure
      (List.append_ne_nil_of_right_ne_nil fetch.failures (List.cons_ne_nil _ []))
    exact candid.isOver_of_noted undecided (arrived ▸ List.mem_cons_self) noted (same ▸ last.mem) blamed
  | replaced | noted | fired =>
    have failed : fetch.result = some (.error failure) := failed
    rw [undecided] at failed
    contradiction

/-- A fetch looks at what its legs told it. -/
theorem turn (candid : fetch.Candid clock) (numbered : ∀ scope ∈ clock.scopes.cancelled, scope < clock.scopes.issued)
    (turn : fetch.turn? clock = some (next, clock')) : next.Candid clock' := by
  obtain ⟨undecided, turned⟩ := turned_of_turn? turn
  have adds := adds_turn turn
  have deadline := turned.frame.2.2
  have follows := (candid.tame turned.minds).follows
  have still (open' : next.result = none) : clock'.scopes.cancelled = clock.scopes.cancelled := by
    cases turned with
    | cancelled | expired | decided | exhausted => contradiction
    | replaced | noted | fired => rfl
  constructor
  · rw [turned.scope, deadline]
    exact candid.scope
  · intro leg member
    rw [turned.scope]
    rcases adds leg member with old | ⟨added, _⟩
    · exact candid.legs leg old
    · exact ⟨_, congrArg Deadline.token added⟩
  · intro number own
    rcases uses_of_turn turn own with old | ⟨rfl, rfl⟩
    · exact Nat.lt_of_lt_of_le (candid.issued number old) follows.issued
    · exact Nat.lt_succ_self _
  · intro open' number own cancelled
    rw [still open'] at cancelled
    rcases uses_of_turn turn own with old | ⟨rfl, _⟩
    · exact candid.intact undecided number old cancelled
    · exact Nat.lt_irrefl _ (numbered _ cancelled)
  · intro open' index failure told blamed
    rw [deadline]
    refine (candid.arrivals undecided index failure ?_ blamed).follow follows
    cases turned with
    | cancelled | expired | decided | exhausted => contradiction
    | replaced _ arrived | noted _ arrived => exact arrived ▸ List.mem_cons_of_mem _ told
    | fired => exact told
  · intro open' rank failure noted blamed
    rw [deadline]
    have spent : fetch.deadline.IsOver clock := by
      cases turned with
      | cancelled | expired | decided | exhausted => contradiction
      | replaced _ arrived own | noted _ arrived own =>
        exact candid.isOver_of_noted undecided (arrived ▸ List.mem_cons_self) own noted blamed
      | fired => exact candid.failures undecided rank failure noted blamed
    exact spent.follow follows

theorem legBegan (candid : fetch.Candid clock) (index call : Nat) : (fetch.legBegan index call).Candid clock := by
  refine ⟨candid.scope, fun leg member => ?_, fun number own => candid.issued number (uses_of_legBegan own),
    fun undecided number own => candid.intact undecided number (uses_of_legBegan own), candid.arrivals,
    candid.failures⟩
  obtain ⟨old, there, same⟩ := exists_of_legBegan member
  rw [same]
  exact candid.legs old there

theorem legEnded (candid : fetch.Candid clock) (index : Nat) {ending : WorkEnd (List ForecastDay)}
    (told : fetch.result = none → ∀ failure, ending = .failure failure → isCallerSide failure = true →
      fetch.deadline.IsOver clock) : (fetch.legEnded index ending).Candid clock := by
  refine ⟨candid.scope, fun leg member => candid.legs leg (List.mem_filter.mp member).1,
    fun number own => candid.issued number (uses_of_legEnded own),
    fun undecided number own => candid.intact undecided number (uses_of_legEnded own), ?_, candid.failures⟩
  intro undecided place failure arrived blamed
  rcases List.mem_append.mp arrived with old | new
  · exact candid.arrivals undecided place failure old blamed
  · exact told undecided failure (Prod.mk.inj (List.mem_singleton.mp new)).2.symm blamed

/-- Nothing is asked of a fetch that is decided but that it works in its own scopes. -/
theorem close (candid : fetch.Candid clock) (result : Except Failure (List ForecastDay)) :
    (fetch.close clock result).1.Candid (fetch.close clock result).2 where
  scope := candid.scope
  legs := nofun
  issued := fun number own => candid.issued number (uses_of_close own)
  intact := nofun
  arrivals := nofun
  failures := nofun

/-- A fetch begins in new scopes. -/
theorem begin (size threshold : Nat) (deadline : Deadline)
    (numbered : ∀ scope ∈ clock.scopes.cancelled, scope < clock.scopes.issued) :
    (Fetch.begin clock size threshold deadline).1.Candid (Fetch.begin clock size threshold deadline).2 := by
  cases size with
  | zero =>
    refine ⟨⟨_, rfl⟩, nofun, ?_, nofun, nofun, nofun⟩
    rintro number (own | ⟨_, member, _⟩)
    · rw [← Option.some.inj own]
      exact Nat.lt_succ_self _
    · contradiction
  | succ size =>
    have uses {number : Nat} (uses : (Fetch.begin clock (size + 1) threshold deadline).1.Uses number) :
        number = clock.scopes.issued ∨ number = clock.scopes.issued + 1 := by
      rcases uses with own | ⟨leg, member, own⟩
      · exact .inl (Option.some.inj own).symm
      · obtain rfl := List.mem_singleton.mp member
        exact .inr (Option.some.inj own).symm
    refine ⟨⟨_, rfl⟩, fun leg member => ?_, fun number own => ?_, fun _ number own cancelled => ?_, nofun, nofun⟩
    · obtain rfl := List.mem_singleton.mp member
      exact ⟨_, rfl⟩
    · have issued : (Fetch.begin clock (size + 1) threshold deadline).2.scopes.issued = clock.scopes.issued + 2 := rfl
      rcases uses own with rfl | rfl <;> omega
    · have known := numbered number cancelled
      rcases uses own with rfl | rfl <;> omega

end Candid

/-- A fetch that ended with a failure that a caller is blamed for did so because its deadline was over. -/
def Fair (clock : Clock) (fetch : Fetch) : Prop :=
  ∀ failure, fetch.result = some (.error failure) → isCallerSide failure = true → fetch.deadline.IsOver clock

theorem Fair.follow (fair : fetch.Fair clock) (follows : clock'.Follows clock) : fetch.Fair clock' :=
  fun failure failed blamed => (fair failure failed blamed).follow follows

/-- A fetch that has just begun works in scopes that are new since then. -/
structure Begun (clock : Clock) (deadline : Deadline) (fetch : Fetch) (clock' : Clock) : Prop where
  same : fetch.deadline = deadline
  candid : fetch.Candid clock'
  fair : fetch.Fair clock'
  new : ∀ number, fetch.Uses number → clock.scopes.issued ≤ number
  tame : Relation.ReflTransGen (Tame (clock.scopes.issued ≤ ·) deadline.token) clock clock'

namespace Begun

theorem begin (size threshold : Nat) (deadline : Deadline)
    (numbered : ∀ scope ∈ clock.scopes.cancelled, scope < clock.scopes.issued) :
    Begun clock deadline (Fetch.begin clock size threshold deadline).1
      (Fetch.begin clock size threshold deadline).2 := by
  have candid := Candid.begin size threshold deadline numbered
  have scope : Relation.ReflTransGen (Tame (clock.scopes.issued ≤ ·) deadline.token) clock
      (clock.childToken deadline.token).2 := .single (.scope deadline.token)
  cases size with
  | zero =>
    refine ⟨rfl, candid, fun failure failed blamed => ?_, ?_, scope⟩
    · cases failed
      contradiction
    · rintro number (own | ⟨_, member, _⟩)
      · exact Nat.le_of_eq (Option.some.inj own)
      · contradiction
  | succ size =>
    refine ⟨rfl, candid, nofun, ?_, scope.tail (.scope (clock.childToken deadline.token).1)⟩
    rintro number (own | ⟨leg, member, own⟩)
    · exact Nat.le_of_eq (Option.some.inj own)
    · obtain rfl := List.mem_singleton.mp member
      exact Nat.le_trans (Nat.le_succ _) (Nat.le_of_eq (Option.some.inj own))

theorem turn {middle : Clock} {deadline : Deadline} (begun : Begun clock deadline fetch middle)
    (numbered : ∀ scope ∈ clock.scopes.cancelled, scope < clock.scopes.issued)
    (turn : fetch.turn? middle = some (next, clock')) : Begun clock deadline next clock' := by
  obtain ⟨undecided, turned⟩ := turned_of_turn? turn
  have frame := turned.frame.2.2
  have follows := Tame.follows_of_run begun.tame
  have tame := begun.candid.tame turned.minds
  have numbered' (scope : Nat) (gone : scope ∈ middle.scopes.cancelled) : scope < middle.scopes.issued := by
    rcases Tame.cancelled_of_run begun.tame gone with old | ⟨_, issued⟩
    · exact Nat.lt_of_lt_of_le (numbered scope old) follows.issued
    · exact issued
  constructor
  · exact frame.trans begun.same
  · exact begun.candid.turn numbered' turn
  · intro failure failed blamed
    rw [frame]
    exact (begun.candid.isOver_of_turned undecided turned failed blamed).follow tame.follows
  · intro number uses
    rcases uses_of_turn turn uses with old | ⟨rfl, _⟩
    · exact begun.new number old
    · exact follows.issued
  · rw [begun.same] at tame
    exact begun.tame.tail (tame.mono begun.new)

end Begun

end Fetch

/-- A failure that a caller is blamed for comes from the deadline of the call alone. -/
theorem ProviderCall.IsModest.isCancelled {call : ProviderCall} {clock : Clock} {failure : Failure}
    {outcome : WorkOutcome} (modest : call.IsModest) (ends : call.ending? clock = some (.failure failure, outcome))
    (blamed : isCallerSide failure = true) : call.deadline.isCancelled clock = true := by
  have own {ending : WorkEnd (List ForecastDay)}
      (due : (if call.dueAt ≤ clock.now then call.ending else none) = some ending) : ending ≠ .failure failure := by
    split at due
    · rintro rfl
      rw [Failure.not_isCallerSide (modest _ due failure rfl)] at blamed
      contradiction
    · contradiction
  unfold ending? at ends
  simp only at ends
  split at ends
  · obtain ⟨ending, due, same⟩ := Option.map_eq_some_iff.mp ends
    cases same
    exact absurd rfl (own due)
  · obtain ⟨verdict, reached, same⟩ := Option.map_eq_some_iff.mp ends
    obtain ⟨cancelled, rfl⟩ | ⟨_, _, rfl⟩ | ⟨_, _, ending, due, rfl⟩ := Deadline.verdict_cases reached
    · exact cancelled
    · cases same
      contradiction
    · cases same
      exact absurd rfl (own due)

namespace Hedger

variable {hedger next : Hedger} {clock clock' : Clock} {number : Nat} {run : FetchRun} {leg : Leg}

/-- Providers have failures of providers only, in what they do next and in the calls that were made. -/
structure Modest (hedger : Hedger) : Prop where
  providers : ∀ provider ∈ hedger.providers, provider.IsModest
  calls : ∀ call ∈ hedger.calls, call.IsModest

namespace Modest

theorem setFetch (modest : hedger.Modest) (number : Nat) (fetch : Fetch) : (hedger.setFetch number fetch).Modest :=
  ⟨modest.providers, modest.calls⟩

theorem endCall (modest : hedger.Modest) (now number : Nat) (outcome : WorkOutcome) :
    (hedger.endCall now number outcome).Modest := by
  refine ⟨modest.providers, fun call member => ?_⟩
  simp only [Hedger.endCall] at member
  obtain ⟨before, own, rfl | ⟨_, rfl⟩⟩ := mem_modify member
  · exact modest.calls call own
  · have same := modest.calls before own
    split
    · exact same
    · exact same

theorem abandon (modest : hedger.Modest) (now : Nat) (legs : List Leg) : (hedger.abandon now legs).Modest := by
  unfold Hedger.abandon
  induction legs.filterMap Leg.call generalizing hedger with
  | nil => exact modest
  | cons number rest ih => exact ih (modest.endCall now number .abandoned)

theorem beginLeg (modest : hedger.Modest) (begun : hedger.beginLeg? clock number run leg = some next) :
    next.Modest := by
  obtain ⟨_, provider, there, rfl⟩ := beginLeg?_eq_some begun
  obtain ⟨called, left⟩ := Provider.call_isModest (modest.providers provider (List.mem_of_getElem? there)) clock
    run.request leg.deadline
  refine ⟨fun other member => ?_, fun call member => ?_⟩
  · rcases List.mem_or_eq_of_mem_set member with old | rfl
    · exact modest.providers other old
    · exact left
  · rcases Array.mem_push.mp member with old | rfl
    · exact modest.calls call old
    · exact called

theorem works (modest : hedger.Modest) (works : hedger.Works clock next clock') : next.Modest := by
  cases works with
  | beginLeg _ _ begun => exact modest.beginLeg begun
  | endLeg _ _ ended =>
    obtain ⟨call, _, _, outcome, _, _, _, rfl⟩ := endLeg?_eq_some ended
    exact (modest.endCall clock.now call outcome).setFetch ..
  | turnFetch _ turn =>
    obtain ⟨_, _, ⟨_, rfl⟩ | ⟨_, rfl⟩⟩ := turnFetch?_eq_some turn
    · exact (modest.abandon _ _).setFetch ..
    · exact modest.setFetch ..

theorem drop (modest : hedger.Modest) (clock : Clock) (number : Nat) : (hedger.drop clock number).1.Modest := by
  obtain ⟨same, _⟩ | ⟨run, _, _, same⟩ := drop_eq hedger clock number
  · rw [same]
    exact modest
  · rw [same]
    exact (modest.abandon _ _).setFetch ..

end Modest

/-- One fetch has gone on, in its own scopes and perhaps new ones. -/
structure Proceeds (hedger : Hedger) (clock : Clock) (number : Nat) (run : FetchRun) (fetch : Fetch) (next : Hedger)
    (clock' : Clock) : Prop where
  present : hedger.fetches[number]? = some run
  fetches : next.fetches = hedger.fetches.modify number fun run' => { run' with fetch }
  deadline : fetch.deadline = run.fetch.deadline
  tame : Fetch.Tame run.fetch.Uses run.fetch.deadline.token clock clock'
  uses : ∀ scope, fetch.Uses scope → run.fetch.Uses scope ∨ clock.scopes.issued ≤ scope
  candid : fetch.Candid clock'

namespace Proceeds

variable {fetch : Fetch} {n : Nat} {other : FetchRun}

theorem here (proceeds : hedger.Proceeds clock number run fetch next clock') :
    next.fetches[number]? = some { run with fetch } := by
  rw [proceeds.fetches]
  exact getElem?_modify_self _ proceeds.present

theorem there (proceeds : hedger.Proceeds clock number run fetch next clock') (distinct : number ≠ n) :
    next.fetches[n]? = hedger.fetches[n]? := by
  rw [proceeds.fetches]
  exact getElem?_modify_of_ne _ _ distinct

/-- A fetch is the one that has gone on, or another one, as it was. -/
theorem cases (proceeds : hedger.Proceeds clock number run fetch next clock') (found : next.fetches[n]? = some other) :
    number ≠ n ∧ hedger.fetches[n]? = some other ∨ number = n ∧ other = { run with fetch } := by
  by_cases same : number = n
  · subst same
    exact .inr ⟨rfl, Option.some.inj (found.symm.trans proceeds.here)⟩
  · exact .inl ⟨same, (proceeds.there same).symm.trans found⟩

end Proceeds

/-- A fetch whose deadline is reached gives up on its caller's account. -/
theorem turnFetch?_of_expired (present : hedger.fetches[number]? = some run) (undecided : run.fetch.result = none)
    (uncancelled : run.fetch.deadline.isCancelled clock = false) (past : run.fetch.deadline.instant ≤ clock.now) :
    ∃ next clock', hedger.turnFetch? clock number run = some (next, clock') ∧
      next.resultOf number = some (.error (.timeout .request)) := by
  have expired : run.fetch.deadline.isExpired clock = true := decide_eq_true past
  have turn : run.fetch.turn? clock = some (run.fetch.close clock (.error (.timeout .request))) := by
    simp [Fetch.turn?, undecided, uncancelled, expired]
  refine ⟨_, _, congrArg (Option.map _) turn, ?_⟩
  have there : (hedger.abandon clock.now run.fetch.legs).fetches[number]? = some run := by
    rw [abandon_fetches]
    exact present
  exact congrArg (·.bind fun run => run.fetch.result) (getElem?_modify_self _ there)

/-- Providers have failures of providers only, fetches are candid, and they share no scopes. -/
structure Candid (hedger : Hedger) (clock : Clock) : Prop where
  modest : hedger.Modest
  fetches : ∀ run ∈ hedger.fetches, run.fetch.Candid clock
  distinct : ∀ (m n : Nat) (run other : FetchRun) (scope : Nat), hedger.fetches[m]? = some run →
    hedger.fetches[n]? = some other → run.fetch.Uses scope → other.fetch.Uses scope → m = n

namespace Candid

variable {fetch : Fetch}

theorem follow (candid : hedger.Candid clock) (follows : clock'.Follows clock)
    (spared : ∀ run ∈ hedger.fetches, ∀ number, run.fetch.Uses number → number ∈ clock'.scopes.cancelled →
      number ∈ clock.scopes.cancelled) : hedger.Candid clock' :=
  { candid with
    fetches := fun run member => (candid.fetches run member).follow follows fun _ => spared run member }

/-- When one fetch goes on, the others are left alone. -/
theorem update (candid : hedger.Candid clock) (proceeds : hedger.Proceeds clock number run fetch next clock')
    (modest : next.Modest) : next.Candid clock' := by
  have apart {n : Nat} {other : FetchRun} {scope : Nat} (there : hedger.fetches[n]? = some other)
      (mine : fetch.Uses scope) (its : other.fetch.Uses scope) : number = n := by
    rcases proceeds.uses scope mine with old | new
    · exact candid.distinct number n run other scope proceeds.present there old its
    · have known := (candid.fetches other (Array.mem_of_getElem? there)).issued scope its
      omega
  refine ⟨modest, fun later member => ?_, fun m n later other scope there there' mine its => ?_⟩
  · obtain ⟨n, there⟩ := Array.mem_iff_getElem?.mp member
    rcases proceeds.cases there with ⟨distinct, old⟩ | ⟨rfl, rfl⟩
    · refine (candid.fetches later (Array.mem_of_getElem? old)).follow proceeds.tame.follows
        fun _ scope its cancelled => ?_
      refine (proceeds.tame.cancelled cancelled).resolve_right fun mine => distinct ?_
      exact candid.distinct number n run later scope proceeds.present old mine.1 its
    · exact proceeds.candid
  · rcases proceeds.cases there with ⟨_, old⟩ | ⟨rfl, rfl⟩
    · rcases proceeds.cases there' with ⟨_, old'⟩ | ⟨rfl, rfl⟩
      · exact candid.distinct m n later other scope old old' mine its
      · exact (apart old its mine).symm
    · rcases proceeds.cases there' with ⟨_, old'⟩ | ⟨rfl, _⟩
      · exact apart old' mine its
      · rfl

/-- A leg is told by its call, whose deadline is its own. -/
theorem endLeg (candid : hedger.Candid clock) (ledger : hedger.Ledger clock)
    (present : hedger.fetches[number]? = some run) (member : leg ∈ run.fetch.legs)
    (ended : hedger.endLeg? clock number run leg = some next) :
    ∃ ending, hedger.Proceeds clock number run (run.fetch.legEnded leg.index ending) next clock := by
  have own := candid.fetches run (Array.mem_of_getElem? present)
  obtain ⟨call, found, ending, outcome, called, there, ends, rfl⟩ := endLeg?_eq_some ended
  obtain ⟨found', there', _, deadline⟩ := ledger.running number leg call ⟨run, present, member, called⟩
  obtain rfl := Option.some.inj (there.symm.trans there')
  refine ⟨ending, present, rfl, rfl, .same, fun _ => .inl ∘ Fetch.uses_of_legEnded, own.legEnded leg.index ?_⟩
  rintro undecided failure rfl blamed
  have cancelled := (candid.modest.calls found (Array.mem_of_getElem? there)).isCancelled ends blamed
  exact own.isOver_of_leg undecided member (deadline ▸ cancelled)

theorem turnFetch (candid : hedger.Candid clock)
    (numbered : ∀ scope ∈ clock.scopes.cancelled, scope < clock.scopes.issued)
    (present : hedger.fetches[number]? = some run)
    (turn : hedger.turnFetch? clock number run = some (next, clock')) :
    ∃ fetch, hedger.Proceeds clock number run fetch next clock' ∧ fetch.Fair clock' := by
  have own := candid.fetches run (Array.mem_of_getElem? present)
  obtain ⟨fetch, turn, same⟩ := turnFetch?_eq_some turn
  obtain ⟨undecided, turned⟩ := Fetch.turned_of_turn? turn
  have tame := own.tame turned.minds
  have proceeds (fetches : next.fetches = hedger.fetches.modify number fun run' => { run' with fetch }) :
      hedger.Proceeds clock number run fetch next clock' := by
    refine ⟨present, fetches, turned.frame.2.2, tame, fun scope uses => ?_, own.turn numbered turn⟩
    exact (Fetch.uses_of_turn turn uses).imp_right fun new => Nat.le_of_eq new.1.symm
  have fair : fetch.Fair clock' := by
    intro failure failed blamed
    rw [turned.frame.2.2]
    exact (own.isOver_of_turned undecided turned failed blamed).follow tame.follows
  refine ⟨fetch, proceeds ?_, fair⟩
  obtain ⟨_, rfl⟩ | ⟨_, rfl⟩ := same
  · exact stop_fetches ..
  · rfl

/-- Whatever fetches and their legs do, a fetch goes on that remains fair. -/
theorem proceeds (candid : hedger.Candid clock) (ledger : hedger.Ledger clock)
    (numbered : ∀ scope ∈ clock.scopes.cancelled, scope < clock.scopes.issued)
    (works : hedger.Works clock next clock') :
    ∃ number run fetch, hedger.Proceeds clock number run fetch next clock' ∧
      (run.fetch.Fair clock → fetch.Fair clock') := by
  cases works with
  | @beginLeg number run leg _ present member begun =>
    obtain ⟨call, calls⟩ := beginLeg?_calls begun
    have own := (candid.fetches run (Array.mem_of_getElem? present)).legBegan leg.index hedger.calls.size
    exact ⟨number, run, _, ⟨present, calls.fetches, rfl, .same, fun _ => .inl ∘ Fetch.uses_of_legBegan, own⟩, id⟩
  | endLeg present member ended =>
    obtain ⟨ending, proceeds⟩ := candid.endLeg ledger present member ended
    exact ⟨_, _, _, proceeds, id⟩
  | turnFetch present turn =>
    obtain ⟨fetch, proceeds, fair⟩ := candid.turnFetch numbered present turn
    exact ⟨_, _, _, proceeds, fun _ => fair⟩

/-- To stop a fetch that is decided does nothing, nor does it to stop one that there is not. -/
theorem drop_cases (candid : hedger.Candid clock) (number : Nat) :
    hedger.drop clock number = (hedger, clock) ∨ ∃ run fetch,
      hedger.Proceeds clock number run fetch (hedger.drop clock number).1 (hedger.drop clock number).2 := by
  obtain ⟨same, _⟩ | ⟨run, present, _, same⟩ := drop_eq hedger clock number
  · exact .inl same
  · have own := candid.fetches run (Array.mem_of_getElem? present)
    rw [same]
    exact .inr ⟨run, _, present, stop_fetches .., rfl, own.tame .cancel, fun _ => .inl ∘ Fetch.uses_of_close,
      own.close (.error .cancelled)⟩

/-- A fetch that begins shares no scope with those that there are. -/
theorem begin (candid : hedger.Candid clock)
    (numbered : ∀ scope ∈ clock.scopes.cancelled, scope < clock.scopes.issued) (request : Request)
    (deadline : Deadline) :
    ∃ fetch, (hedger.begin clock request deadline).2.1.fetches = hedger.fetches.push ⟨request, fetch⟩ ∧
      Fetch.Begun clock deadline fetch (hedger.begin clock request deadline).2.2 ∧
      (hedger.begin clock request deadline).2.1.Candid (hedger.begin clock request deadline).2.2 := by
  have begun : Fetch.Begun clock deadline
      (((Fetch.begin clock hedger.providers.length hedger.threshold deadline).1.turn?
        (Fetch.begin clock hedger.providers.length hedger.threshold deadline).2).getD
        (Fetch.begin clock hedger.providers.length hedger.threshold deadline)).1
      (hedger.begin clock request deadline).2.2 := by
    have begun := Fetch.Begun.begin hedger.providers.length hedger.threshold deadline numbered
    simp only [Hedger.begin]
    cases turn : Fetch.turn? _ _ with
    | none => exact begun
    | some next => exact begun.turn numbered turn
  refine ⟨_, rfl, begun, ⟨candid.modest.providers, candid.modest.calls⟩, fun run member => ?_, ?_⟩
  · rcases Array.mem_push.mp member with old | rfl
    · have own := candid.fetches run old
      refine own.follow (Fetch.Tame.follows_of_run begun.tame) fun _ number its cancelled => ?_
      refine (Fetch.Tame.cancelled_of_run begun.tame cancelled).resolve_right fun new => ?_
      exact Nat.not_lt.mpr new.1 (own.issued number its)
    · exact begun.candid
  · intro m n run other scope there there' mine its
    have known {place : Nat} {old : FetchRun} (there : hedger.fetches[place]? = some old) (its : old.fetch.Uses scope) :
        scope < clock.scopes.issued := (candid.fetches old (Array.mem_of_getElem? there)).issued scope its
    rcases getElem?_push_cases there with ⟨_, old⟩ | ⟨last, rfl⟩
    · rcases getElem?_push_cases there' with ⟨_, old'⟩ | ⟨_, rfl⟩
      · exact candid.distinct m n run other scope old old' mine its
      · exact absurd (known old mine) (Nat.not_lt.mpr (begun.new scope its))
    · rcases getElem?_push_cases there' with ⟨_, old'⟩ | ⟨last', _⟩
      · exact absurd (known old' its) (Nat.not_lt.mpr (begun.new scope mine))
      · exact last.trans last'.symm

end Candid

end Hedger

end HedgedForecast
