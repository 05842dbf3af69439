import HedgedForecast.Proofs.Hedge.Blame

/-! # Fetches whose providers all fail

If every provider of a chain fails, and with nothing that ends the fetch by itself, then all of them are called
and the failure of the last one in the chain is the result. How long they take and when the timer is due settles
in which order they are started and in which order their failures are seen, but that order is nothing to the
result: failures are ranked by the places of their providers.
-/

namespace HedgedForecast

/-- A fetch that is open was so before. -/
theorem Fetch.Open.of_follows {fetch : Fetch} {clock later : Clock} (isOpen : fetch.Open later)
    (follows : later.Follows clock) : fetch.Open clock := by
  refine ⟨Bool.eq_false_iff.mpr fun cancelled => ?_, Nat.lt_of_le_of_lt follows.now isOpen.inTime⟩
  have still : fetch.deadline.isCancelled later = true := follows.isCancelled cancelled
  rw [isOpen.uncancelled] at still
  contradiction

theorem Fetch.Ticks.follows {clock later : Clock} (ticks : Fetch.Ticks clock later) : later.Follows clock := by
  cases ticks with
  | same => exact .refl clock
  | scope parent => exact clock.follows_childToken parent
  | cancel token => exact clock.follows_cancel token

namespace Story

variable {story later : Story} {event : Event} {failure : Nat → Failure}

/-- The other story comes later, by one event. -/
structure LeadsTo (story later : Story) : Prop where
  size : later.fetch.size = story.fetch.size
  deadline : later.fetch.deadline = story.fetch.deadline
  clock : later.clock.Follows story.clock
  cancelledAt : ∀ instant, story.cancelledAt = some instant → later.cancelledAt = some instant
  /-- At most one leg has ended, and then now. -/
  ends : later.ends = story.ends ∨
    ∃ leg, later.ends = story.ends ++ [leg] ∧ leg.instant = story.clock.now ∧ story.fetch.result = none

theorem Walked.leadsTo (walked : story.Walked) (step : story.step? event = some later) : story.LeadsTo later := by
  cases event with
  | turn =>
    obtain ⟨fetch, clock, turned, rfl⟩ := turn?_eq_some_iff.mp step
    obtain ⟨_, turned⟩ := Fetch.turned_of_turn? turned
    obtain ⟨size, _, deadline⟩ := turned.frame
    exact ⟨size, deadline, turned.ticks.follows, fun _ => id, .inl rfl⟩
  | legBegins index call =>
    obtain ⟨_, _, _, _, rfl⟩ := step?_legBegins step
    exact ⟨rfl, rfl, .refl _, fun _ => id, .inl rfl⟩
  | legEnds index ending =>
    obtain ⟨leg, member, _, rfl⟩ := step?_legEnds step
    exact ⟨rfl, rfl, .refl _, fun _ => id, .inr ⟨_, rfl, rfl, walked.undecided_of_leg member⟩⟩
  | pass instant =>
    cases step
    exact ⟨rfl, rfl, ⟨Nat.le_max_left .., Nat.le_refl _, fun _ => id⟩, fun _ => id, .inl rfl⟩
  | scope parent =>
    cases parent with
    | none => cases step; exact ⟨rfl, rfl, ⟨Nat.le_refl _, Nat.le_succ _, fun _ => id⟩, fun _ => id, .inl rfl⟩
    | some parent => cases step; exact ⟨rfl, rfl, Clock.follows_childToken _ parent, fun _ => id, .inl rfl⟩
  | cancel token =>
    cases step
    refine ⟨rfl, rfl, Clock.follows_cancel .., fun instant gaveUp => ?_, .inl rfl⟩
    simp [gaveUp]

/-- The provider of a leg is called before the leg ends. -/
structure CalledFirst (story : Story) : Prop where
  begun : ∀ leg ∈ story.fetch.legs, leg.call.isSome = true → leg.index ∈ story.called
  ended : ∀ leg ∈ story.ends, leg.index ∈ story.called

namespace CalledFirst

/-- The legs that a turn starts have not called their providers. -/
theorem of_turned {fetch next : Fetch} {clock clock' : Clock} (turned : fetch.Turned clock next clock') {leg : Leg}
    (member : leg ∈ next.legs) : leg ∈ fetch.legs ∨ leg.call = none := by
  cases turned with
  | cancelled | expired | decided | exhausted => contradiction
  | noted => exact .inl member
  | replaced _ _ _ _ _ new | fired _ _ _ _ _ new =>
    rcases List.mem_append.mp member with old | last
    · exact .inl old
    · exact .inr (List.mem_singleton.mp last ▸ new.uncalled)

theorem step (first : story.CalledFirst) (step : story.step? event = some later) : later.CalledFirst := by
  cases event with
  | turn =>
    obtain ⟨fetch, clock, turned, rfl⟩ := turn?_eq_some_iff.mp step
    refine ⟨fun leg member called => ?_, first.ended⟩
    rcases of_turned (Fetch.turned_of_turn? turned).2 member with old | uncalled
    · exact first.begun leg old called
    · rw [uncalled] at called
      contradiction
  | legBegins index call =>
    obtain ⟨_, _, _, _, rfl⟩ := step?_legBegins step
    refine ⟨fun leg member called => ?_, fun leg ended => List.mem_append_left _ (first.ended leg ended)⟩
    obtain ⟨before, old, rfl⟩ := List.mem_map.mp member
    by_cases own : (before.index == index) = true
    · rw [if_pos own]
      exact List.mem_append_right _ (List.mem_singleton.mpr (beq_iff_eq.mp own))
    · rw [if_neg own] at called ⊢
      exact List.mem_append_left _ (first.begun before old called)
  | legEnds index ending =>
    simp only [step?, Option.ite_none_right_eq_some, List.any_eq_true, Bool.and_eq_true, beq_iff_eq] at step
    obtain ⟨⟨leg, member, rfl, called⟩, same⟩ := step
    cases same
    refine ⟨fun other left => first.begun other (List.mem_filter.mp left).1, fun other ended => ?_⟩
    rcases List.mem_append.mp ended with before | last
    · exact first.ended other before
    · rw [List.mem_singleton.mp last]
      exact first.begun leg member called
  | pass instant => cases step; exact ⟨first.begun, first.ended⟩
  | scope parent => cases parent <;> cases step <;> exact ⟨first.begun, first.ended⟩
  | cancel token => cases step; exact ⟨first.begun, first.ended⟩

theorem opening (clock : Clock) (size threshold : Nat) (deadline : Deadline) :
    CalledFirst (Story.opening clock size threshold deadline) := by
  unfold Story.opening Fetch.begin
  refine ⟨fun leg member called => ?_, fun _ => nofun⟩
  cases size with
  | zero => contradiction
  | succ size =>
    obtain rfl := List.mem_singleton.mp member
    contradiction

theorem run {rule : Rule} {clock : Clock} {size threshold : Nat} {deadline : Deadline}
    (run : Run rule (begin clock size threshold deadline) story) : story.CalledFirst :=
  run.invariant (fun _ _ _ first _ => first.step) <| begin_of_turn (opening ..) fun next turn =>
    (opening ..).step (show (Story.opening clock size threshold deadline).step? .turn = some next from turn)

end CalledFirst

/-- What holds of a fetch that looks at things in time. -/
structure Lawful (story : Story) : Prop where
  walked : story.Walked
  timely : story.Timely
  first : story.CalledFirst

namespace Lawful

theorem step (lawful : story.Lawful) (allowed : story.Prompt event) (step : story.step? event = some later) :
    later.Lawful :=
  ⟨lawful.walked.step step, lawful.timely.step lawful.walked allowed step, lawful.first.step step⟩

theorem opening (clock : Clock) {size : Nat} (threshold : Nat) (deadline : Deadline) (providers : size ≠ 0) :
    Lawful (Story.opening clock size threshold deadline) :=
  ⟨.opening .., .opening _ _ _ providers, .opening ..⟩

theorem run {clock : Clock} {size threshold : Nat} {deadline : Deadline} (providers : size ≠ 0)
    (run : Run Prompt (begin clock size threshold deadline) story) : story.Lawful :=
  ⟨.run run, .run providers run, .run run⟩

end Lawful

/-- The providers fail, each with its own failure, before the time is over and before the caller gives up. -/
structure Failing (story : Story) (failure : Nat → Failure) : Prop where
  fails : ∀ leg ∈ story.ends, leg.ending = .failure (failure leg.index)
  inTime : ∀ leg ∈ story.ends, leg.instant < story.fetch.deadline.instant
  wanted : ∀ leg ∈ story.ends, ∀ instant, story.cancelledAt = some instant → leg.instant < instant
  /-- Providers that have not failed so far still can. -/
  isOpen : story.ends.length < story.fetch.size → story.fetch.Open story.clock

/-- The fetch goes on by itself, and its providers fail. -/
def Fails (failure : Nat → Failure) : Rule
  | _, .turn | _, .legBegins .. => True
  | _, .legEnds index ending => ending = .failure (failure index)
  | _, _ => False

theorem Fails.prompt (fails : Fails failure story event) : story.Prompt event := by
  cases event with
  | pass => exact fails.elim
  | turn | legBegins | legEnds | scope | cancel => trivial

/-- As long as a fetch is undecided, there is something that it or one of its legs can do. -/
theorem Lawful.goesOn (lawful : story.Lawful) (undecided : story.fetch.result = none) (failure : Nat → Failure) :
    ∃ event later, Fails failure story event ∧ story.step? event = some later := by
  have own : Fails failure story .turn := trivial
  cases turn : story.turn? with
  | some later => exact ⟨.turn, later, own, turn⟩
  | none =>
    obtain ⟨_, idle⟩ := open_of_settled turn undecided
    have books := lawful.walked.books undecided
    have running := books.running
    have left := books.left
    rw [Story.running, idle, List.length_nil] at running
    obtain ⟨leg, member⟩ := List.exists_mem_of_length_pos (show 0 < story.fetch.legs.length by omega)
    cases called : leg.call with
    | none =>
      have begins : Fails failure story (.legBegins leg.index 0) := trivial
      exact ⟨_, _, begins, if_pos (List.any_eq_true.mpr ⟨leg, member, by simp [called]⟩)⟩
    | some call =>
      have ends : Fails failure story (.legEnds leg.index (.failure (failure leg.index))) := rfl
      exact ⟨_, _, ends, if_pos (List.any_eq_true.mpr ⟨leg, member, by simp [called]⟩)⟩

/-- All providers of the chain were called once and have failed, and the failure of the last one is the result. -/
structure AllFailed (story : Story) (size : Nat) (failure : Nat → Failure) : Prop where
  result : story.fetch.result = some (.error (failure (size - 1)))
  called : story.called.Perm (List.range size)
  ended : (story.ends.map LegEnd.index).Perm (List.range size)

/-- A fetch whose providers have failed stays as it is. -/
theorem AllFailed.step {size : Nat} (allFailed : story.AllFailed size failure) (walked : story.Walked)
    (step : story.step? event = some later) : later.AllFailed size failure := by
  have decided : story.fetch.result ≠ none := by
    rw [allFailed.result]
    exact Option.some_ne_none _
  cases event with
  | turn =>
    obtain ⟨_, _, turned, _⟩ := turn?_eq_some_iff.mp step
    exact absurd (Fetch.turned_of_turn? turned).1 decided
  | legBegins index call =>
    obtain ⟨leg, member, _⟩ := step?_legBegins step
    exact absurd (walked.undecided_of_leg member) decided
  | legEnds index ending =>
    obtain ⟨leg, member, _⟩ := step?_legEnds step
    exact absurd (walked.undecided_of_leg member) decided
  | pass instant => cases step; exact ⟨allFailed.result, allFailed.called, allFailed.ended⟩
  | scope parent =>
    cases parent <;> cases step <;> exact ⟨allFailed.result, allFailed.called, allFailed.ended⟩
  | cancel token => cases step; exact ⟨allFailed.result, allFailed.called, allFailed.ended⟩

/-- What is left to do for a fetch: each provider is to be started and called, has to end, and is to be looked at. -/
def work (story : Story) : Nat :=
  (story.fetch.size - story.fetch.next) + (story.fetch.size - story.called.length) +
    (story.fetch.size - story.ends.length) + (story.fetch.size - story.fetch.failures.length)

/-- If a leg ends now, in time and before the caller gives up, the fetch is open. -/
theorem Timely.open_of_end (timely : story.Timely) (undecided : story.fetch.result = none) {leg : LegEnd}
    (now : leg.instant = story.clock.now) (inTime : leg.instant < story.fetch.deadline.instant)
    (wanted : ∀ instant, story.cancelledAt = some instant → leg.instant < instant) :
    story.fetch.Open story.clock := by
  refine ⟨Bool.eq_false_iff.mpr fun cancelled => ?_, now ▸ inTime⟩
  have gaveUp := timely.gaveUp undecided
  rw [if_pos cancelled] at gaveUp
  exact absurd (wanted _ gaveUp) (Nat.not_lt.mpr (Nat.le_of_eq now.symm))

/-- A failure that does not end the fetch by itself is ranked by the place of its provider. -/
theorem setback?_of_minor {size index : Nat} {own : Failure} (minor : own.isTerminal = false) :
    setback? size index (.failure own) = some (index, own) := by
  simp [setback?, minor]

/-- Of failures that are ranked by the places of all providers, the last one is that of the last provider. -/
theorem eq_of_isLast {ends : List LegEnd} {size : Nat}
    (all : (ends.map LegEnd.index).Perm (List.range size)) {last : Nat × Failure}
    (isLast : IsLast (ends.map fun leg => (leg.index, failure leg.index)) last) : last.2 = failure (size - 1) := by
  obtain ⟨leg, ended, rfl⟩ := List.mem_map.mp isLast.mem
  have inside : leg.index < size := List.mem_range.mp (all.mem_iff.mp (List.mem_map_of_mem ended))
  have final : size - 1 ∈ ends.map LegEnd.index := all.mem_iff.mpr (List.mem_range.mpr (by omega))
  obtain ⟨other, ended', place⟩ := List.mem_map.mp final
  have below := isLast.bound (List.mem_map.mpr ⟨other, ended', rfl⟩)
  rw [show leg.index = size - 1 by simp only at below; omega]

namespace Failing

/-- Providers that fail in time have done so from the beginning. -/
theorem back (failing : later.Failing failure) (timely : story.Timely) (leads : story.LeadsTo later) :
    story.Failing failure := by
  have sub : story.ends ⊆ later.ends := by
    rcases leads.ends with same | ⟨leg, more, _⟩
    · exact same ▸ List.Subset.refl _
    · exact more ▸ List.subset_append_left ..
  constructor
  · exact fun leg member => failing.fails leg (sub member)
  · exact fun leg member => leads.deadline ▸ failing.inTime leg (sub member)
  · exact fun leg member instant gaveUp => failing.wanted leg (sub member) instant (leads.cancelledAt instant gaveUp)
  · intro few
    rcases leads.ends with same | ⟨leg, more, now, undecided⟩
    · obtain ⟨uncancelled, inTime⟩ := (failing.isOpen (by rwa [same, leads.size])).of_follows leads.clock
      exact ⟨leads.deadline ▸ uncancelled, leads.deadline ▸ inTime⟩
    · have new : leg ∈ later.ends := more ▸ List.mem_append_right _ (List.mem_singleton_self _)
      exact timely.open_of_end undecided now (leads.deadline ▸ failing.inTime leg new)
        fun instant gaveUp => failing.wanted leg new instant (leads.cancelledAt instant gaveUp)

/-- As long as it is undecided, such a fetch is open. -/
theorem open_of_undecided (failing : story.Failing failure) (lawful : story.Lawful)
    (undecided : story.fetch.result = none) : story.fetch.Open story.clock := by
  by_cases few : story.ends.length < story.fetch.size
  · exact failing.isOpen few
  · have left := (lawful.walked.books undecided).left
    have next := lawful.walked.next
    have fresh : story.fetch.failures.length < story.ends.length := by omega
    have member := List.getElem_mem fresh
    have now := lawful.timely.now_of_fresh undecided (List.getElem?_eq_getElem fresh) (Nat.le_refl _)
    exact lawful.timely.open_of_end undecided now (failing.inTime _ member) (failing.wanted _ member)

section

variable (failing : story.Failing failure) (lawful : story.Lawful)
  (minor : ∀ index < story.fetch.size, (failure index).isTerminal = false)

include failing lawful minor

/-- A leg that ends adds its provider's failure, and does not settle the fetch. -/
theorem setback_of_end {leg : LegEnd} (ended : leg ∈ story.ends) :
    setback? story.fetch.size leg.index leg.ending = some (leg.index, failure leg.index) := by
  have started := lawful.walked.ended_started leg ended
  have next := lawful.walked.next
  rw [failing.fails leg ended]
  exact setback?_of_minor (minor _ (by omega))

theorem setbacks : story.timeline.setbacks story.ends = story.ends.map fun leg => (leg.index, failure leg.index) := by
  rw [Timeline.setbacks, ← List.filterMap_eq_map]
  exact List.filterMap_congr fun leg ended => failing.setback_of_end lawful minor ended

theorem not_decides (undecided : story.fetch.result = none) {index : Nat} {ending : WorkEnd (List ForecastDay)}
    {rest : List (Nat × WorkEnd (List ForecastDay))} (arrived : story.fetch.arrivals = (index, ending) :: rest) :
    decision? ending = none := by
  obtain ⟨leg, ended, rfl, rfl⟩ := (lawful.walked.books undecided).next_end arrived
  have member := List.mem_of_getElem? ended
  by_contra decides
  obtain ⟨result, decides⟩ := Option.ne_none_iff_exists'.mp decides
  have failed := failing.setback_of_end lawful minor member
  rw [setback?_eq_none_of_decision? decides] at failed
  contradiction

/-- When the last leg that is left fails, all providers have failed. -/
theorem exhausted {index : Nat} {ending : WorkEnd (List ForecastDay)} {setback : Nat × Failure}
    (undecided : story.fetch.result = none) (arrived : story.fetch.arrivals = [(index, ending)])
    (failed : setback? story.fetch.size index ending = some setback) (full : story.fetch.size ≤ story.fetch.next)
    (none : story.fetch.legs = []) :
    Fetch.totalFailure (story.fetch.failures ++ [setback]) = failure (story.fetch.size - 1) ∧
      story.called.Perm (List.range story.fetch.size) ∧
      (story.ends.map LegEnd.index).Perm (List.range story.fetch.size) := by
  have books := lawful.walked.books undecided
  have left := books.left
  have next := lawful.walked.next
  have whole : story.fetch.next = story.fetch.size := by omega
  have ended := books.legs
  rw [none, List.map_nil, List.nil_append, whole] at ended
  refine ⟨?_, ?_, ended⟩
  · have noted : story.fetch.failures ++ [setback] ≠ [] := by simp
    obtain ⟨rank, last⟩ := isLast_totalFailure noted
    rw [← books.setbacks_of_arrived arrived failed, failing.setbacks lawful minor] at last ⊢
    exact eq_of_isLast ended last
  · refine (List.perm_ext_iff_of_nodup lawful.walked.called List.nodup_range).mpr fun place => ⟨?_, ?_⟩
    · intro called
      exact List.mem_range.mpr (whole ▸ lawful.walked.called_started place called)
    · intro inside
      obtain ⟨leg, member, rfl⟩ := List.mem_map.mp (ended.mem_iff.mpr inside)
      exact lawful.first.ended leg member

/-- A turn of the fetch starts a provider or looks at a failure, or it is the last one. -/
theorem turn (turn : story.turn? = some later) :
    later.Failing failure ∧ later.work < story.work ∧
      (later.fetch.result ≠ none → later.AllFailed story.fetch.size failure) := by
  obtain ⟨fetch, clock, turned, rfl⟩ := turn?_eq_some_iff.mp turn
  obtain ⟨undecided, turned⟩ := Fetch.turned_of_turn? turned
  have isOpen := failing.open_of_undecided lawful undecided
  have books := lawful.walked.books undecided
  have left := books.left
  have next := lawful.walked.next
  have uncancelled := isOpen.uncancelled
  cases turned with
  | cancelled own =>
    rw [uncancelled] at own
    contradiction
  | expired _ own => exact absurd own (Nat.not_le.mpr isOpen.inTime)
  | decided _ arrived decides =>
    rw [failing.not_decides lawful minor undecided arrived] at decides
    contradiction
  | replaced =>
    refine ⟨⟨failing.fails, failing.inTime, failing.wanted, fun _ => ⟨uncancelled, isOpen.inTime⟩⟩, ?_,
      fun decided => absurd undecided decided⟩
    simp only [work, after, List.length_append, List.length_singleton]
    omega
  | noted =>
    refine ⟨⟨failing.fails, failing.inTime, failing.wanted, fun _ => ⟨uncancelled, isOpen.inTime⟩⟩, ?_,
      fun decided => absurd undecided decided⟩
    simp only [work, after, List.length_append, List.length_singleton]
    omega
  | fired =>
    refine ⟨⟨failing.fails, failing.inTime, failing.wanted, fun _ => ⟨uncancelled, isOpen.inTime⟩⟩, ?_,
      fun decided => absurd undecided decided⟩
    simp only [work, after]
    omega
  | exhausted _ arrived failed _ full none =>
    obtain ⟨last, called, ended⟩ := failing.exhausted lawful minor undecided arrived failed full none
    have all := ended.length_eq
    rw [List.length_map, List.length_range] at all
    refine ⟨⟨failing.fails, failing.inTime, failing.wanted, fun few => absurd all (Nat.ne_of_lt few)⟩, ?_,
      fun _ => ⟨by rw [after_fetch, last], called, ended⟩⟩
    simp only [work, after, List.length_append, List.length_singleton]
    omega

/-- Whatever such a fetch does by itself, its providers go on to fail in time, and less is left to do. -/
theorem step (fails : Fails failure story event) (step : story.step? event = some later) :
    later.Failing failure ∧ later.work < story.work := by
  cases event with
  | turn =>
    obtain ⟨kept, less, _⟩ := failing.turn lawful minor step
    exact ⟨kept, less⟩
  | legBegins index call =>
    have walked := lawful.walked.step step
    obtain ⟨leg, member, rfl, _, rfl⟩ := step?_legBegins step
    refine ⟨⟨failing.fails, failing.inTime, failing.wanted, fun few => ?_⟩, ?_⟩
    · obtain ⟨uncancelled, inTime⟩ := failing.isOpen few
      exact ⟨uncancelled, inTime⟩
    have inside : story.called ++ [leg.index] ⊆ List.range story.fetch.next :=
      fun place called => List.mem_range.mpr (walked.called_started place called)
    have few := (walked.called.subperm inside).length_le
    have next := lawful.walked.next
    simp only [work, Fetch.legBegan, List.length_append, List.length_singleton, List.length_range] at few ⊢
    omega
  | legEnds index ending =>
    obtain ⟨leg, member, rfl, rfl⟩ := step?_legEnds step
    have undecided := lawful.walked.undecided_of_leg member
    have isOpen := failing.open_of_undecided lawful undecided
    have gaveUp := lawful.timely.gaveUp undecided
    rw [isOpen.uncancelled, if_neg Bool.false_ne_true] at gaveUp
    constructor
    · constructor
      · exact List.forall_mem_append.mpr ⟨failing.fails, List.forall_mem_singleton.mpr fails⟩
      · exact List.forall_mem_append.mpr ⟨failing.inTime, List.forall_mem_singleton.mpr isOpen.inTime⟩
      · exact fun _ _ instant gone => by rw [show story.cancelledAt = some instant from gone] at gaveUp; contradiction
      · exact fun _ => ⟨isOpen.uncancelled, isOpen.inTime⟩
    · have runs := List.length_pos_of_mem member
      have legs := (lawful.walked.books undecided).length_legs
      have next := lawful.walked.next
      simp only [work, Fetch.legEnded, List.length_append, List.length_singleton]
      omega
  | pass | scope | cancel => exact fails.elim

end

/-- An event that decides such a fetch is a turn for which all providers have failed. -/
theorem allFailed_of_step (failing : story.Failing failure) (lawful : story.Lawful)
    (minor : ∀ index < story.fetch.size, (failure index).isTerminal = false)
    (undecided : story.fetch.result = none) (step : story.step? event = some later)
    (decided : later.fetch.result ≠ none) : later.AllFailed story.fetch.size failure := by
  cases event with
  | turn => exact (failing.turn lawful minor step).2.2 decided
  | legBegins index call =>
    obtain ⟨_, _, _, _, rfl⟩ := step?_legBegins step
    exact absurd undecided decided
  | legEnds index ending =>
    obtain ⟨_, _, _, rfl⟩ := step?_legEnds step
    exact absurd undecided decided
  | pass instant => cases step; exact absurd undecided decided
  | scope parent => cases parent <;> cases step <;> exact absurd undecided decided
  | cancel token => cases step; exact absurd undecided decided

/-- When the fetch is decided, all its providers have failed. -/
theorem allFailed {clock : Clock} {size threshold : Nat} {deadline : Deadline} (providers : size ≠ 0)
    (minor : ∀ index < size, (failure index).isTerminal = false)
    (run : Run Prompt (begin clock size threshold deadline) story) (failing : story.Failing failure)
    (decided : story.fetch.result ≠ none) : story.AllFailed size failure := by
  induction run with
  | nil =>
    refine @begin_of_turn clock size threshold deadline
      (fun story => story.Failing failure → story.fetch.result ≠ none → story.AllFailed size failure)
      ?_ (fun next turn failing decided => ?_) failing decided
    · obtain ⟨size, rfl⟩ := Nat.exists_eq_succ_of_ne_zero providers
      exact fun _ decided => absurd rfl decided
    · have lawful := Lawful.opening clock threshold deadline providers
      have same := (Asked.opening clock size threshold deadline).size
      have step : (Story.opening clock size threshold deadline).step? .turn = some next := turn
      have before := failing.back lawful.timely (lawful.walked.leadsTo step)
      have ended := (before.turn lawful (by rwa [same]) turn).2.2 decided
      rwa [same] at ended
  | @snoc middle _ _ run allowed step ih =>
    have lawful := Lawful.run providers run
    have same := (Asked.run run).size
    have before := failing.back lawful.timely (lawful.walked.leadsTo step)
    by_cases undecided : middle.fetch.result = none
    · have ended := before.allFailed_of_step lawful (by rwa [same]) undecided step decided
      rwa [same] at ended
    · exact (ih before undecided).step lawful.walked step

/-- A fetch whose providers fail comes to an end, without any time passing if they fail at once. -/
theorem exists_allFailed {clock : Clock} {size threshold : Nat} {deadline : Deadline} (providers : size ≠ 0)
    (minor : ∀ index < size, (failure index).isTerminal = false)
    (run : Run Prompt (begin clock size threshold deadline) story) (failing : story.Failing failure) :
    ∃ later, Run (Fails failure) story later ∧ later.AllFailed size failure := by
  induction left : story.work using Nat.strongRecOn generalizing story with
  | _ left ih =>
    by_cases undecided : story.fetch.result = none
    · have lawful := Lawful.run providers run
      have same := (Asked.run run).size
      obtain ⟨event, next, fails, step⟩ := lawful.goesOn undecided failure
      obtain ⟨still, less⟩ := failing.step lawful (by rwa [same]) fails step
      obtain ⟨later, rest, ended⟩ := ih _ (left ▸ less) (run.snoc fails.prompt step) still rfl
      exact ⟨later, (Run.single fails step).append rest, ended⟩
    · exact ⟨story, .nil, failing.allFailed providers minor run undecided⟩

end Failing

/-- How a fetch over a chain of that size ends whose providers fail like this. -/
structure Exhaustion (story : Story) (size : Nat) (failure : Nat → Failure) : Prop where
  /-- When it is decided, all providers were called once, and the failure of the last one is the result. -/
  decided : story.fetch.result ≠ none → story.AllFailed size failure
  /-- Until then there is something to do, -/
  goesOn : story.fetch.result = none → ∃ event later, Fails failure story event ∧ story.step? event = some later
  /-- but only so much, whatever is done first. -/
  less : ∀ event later, Fails failure story event → story.step? event = some later →
    later.Failing failure ∧ later.work < story.work
  /-- So the fetch comes to this end when its providers have failed. -/
  ends : ∃ later, Run (Fails failure) story later ∧ later.AllFailed size failure
  /-- Other fetches whose providers fail like this have the same result, whatever time they take and whatever the
  threshold is. -/
  same : ∀ (clock : Clock) (threshold : Nat) (deadline : Deadline) (other : Story),
    Run Prompt (begin clock size threshold deadline) other → other.Failing failure →
      story.fetch.result ≠ none → other.fetch.result ≠ none → other.fetch.result = story.fetch.result

/-- Whatever time its providers take and whatever the threshold is, a fetch whose providers all fail in time calls each
of them once and has the failure of the last one as its result. -/
theorem exhaustion_of_run {clock : Clock} {size threshold : Nat} {deadline : Deadline} {story : Story}
    {failure : Nat → Failure} (providers : size ≠ 0) (minor : ∀ index < size, (failure index).isTerminal = false)
    (run : Run Prompt (begin clock size threshold deadline) story) (failing : story.Failing failure) :
    story.Exhaustion size failure := by
  have lawful := Lawful.run providers run
  have same := (Asked.run run).size
  constructor
  · exact failing.allFailed providers minor run
  · exact fun undecided => lawful.goesOn undecided failure
  · exact fun event later fails step => failing.step lawful (by rwa [same]) fails step
  · exact failing.exists_allFailed providers minor run
  · intro clock' threshold' deadline' other run' failing' decided decided'
    have one := failing.allFailed providers minor run decided
    have another := failing'.allFailed providers minor run' decided'
    rw [one.result, another.result]

/-- The failures of a first provider and of others. -/
def outage : Nat → Failure
  | 0 => .timeout .provider
  | index => .providerFailed "backup" s!"attempt {index}"

/-- The second provider is asked because the first one takes too long, but it fails sooner. -/
def overtaken : List Event :=
  [.legBegins 0 0, .pass 10, .turn, .legBegins 1 1, .pass 20, .legEnds 1 (.failure (outage 1)), .turn,
    .pass 30, .legEnds 0 (.failure (outage 0)), .turn]

theorem exhaustion_overtaken :
    ∃ story, Run Prompt (begin {} 2 10 ⟨100, ⟨[]⟩⟩) story ∧ story.Failing outage ∧
      story.fetch.result = some (.error (.providerFailed "backup" "attempt 1")) ∧ story.Exhaustion 2 outage := by
  obtain ⟨story, steps, ends, wanted, inTime, result⟩ : ∃ story,
      overtaken.foldlM (fun story event => if Prompt story event then story.step? event else none)
        (begin {} 2 10 ⟨100, ⟨[]⟩⟩) = some story ∧
      story.ends = [⟨20, 1, .failure (outage 1)⟩, ⟨30, 0, .failure (outage 0)⟩] ∧ story.cancelledAt = none ∧
      story.fetch.deadline.instant = 100 ∧
      story.fetch.result = some (.error (.providerFailed "backup" "attempt 1")) :=
    ⟨_, rfl, rfl, rfl, rfl, rfl⟩
  have run : Run Prompt (begin {} 2 10 ⟨100, ⟨[]⟩⟩) story := .of_events steps
  have failing : story.Failing outage := by
    constructor
    · simp [ends]
    · simp [ends, inTime]
    · simp [wanted]
    · simp [ends, (Asked.run run).size]
  have minor : ∀ index < 2, (outage index).isTerminal = false
    | 0, _ | _ + 1, _ => rfl
  exact ⟨story, run, failing, result, exhaustion_of_run (by decide) minor run failing⟩

end Story

end HedgedForecast
