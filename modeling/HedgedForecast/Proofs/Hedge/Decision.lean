import HedgedForecast.Proofs.Hedge.Walk
import Mathlib.Data.Bool.Basic
import Mathlib.Data.List.Perm.Subperm

/-! # What decides a fetch

The caller gives up, the time is over, a leg ends with a success or with a failure that nobody can help, or
the last leg there is fails: whatever comes first decides a fetch, at once and with its own result. Of things
that are seen together giving up comes before the time, and that before the legs, in the order in which they
ended. What happens is kept in a timeline, which alone says what the result has to be.
-/

namespace HedgedForecast

/-- Of failures with ranks, one that is ranked above all later ones, and not below any earlier one. -/
def IsLast (failures : List (Nat × Failure)) (last : Nat × Failure) : Prop :=
  ∃ before after, failures = before ++ last :: after ∧ (∀ other ∈ before, other.1 ≤ last.1) ∧
    ∀ other ∈ after, other.1 < last.1

namespace IsLast

variable {failures rest : List (Nat × Failure)} {last last' first second : Nat × Failure}

theorem mem (isLast : IsLast failures last) : last ∈ failures := by
  obtain ⟨before, after, rfl, _⟩ := isLast
  simp

/-- None is ranked higher. -/
theorem bound (isLast : IsLast failures last) {other : Nat × Failure} (member : other ∈ failures) :
    other.1 ≤ last.1 := by
  obtain ⟨before, after, rfl, earlier, later⟩ := isLast
  rcases List.mem_append.mp member with there | there
  · exact earlier other there
  · rcases List.mem_cons.mp there with rfl | there
    · exact Nat.le_refl _
    · exact Nat.le_of_lt (later other there)

theorem singleton (last : Nat × Failure) : IsLast [last] last :=
  ⟨[], [], rfl, nofun, nofun⟩

/-- One that is not ranked higher may come before. -/
theorem cons (isLast : IsLast rest last) (below : first.1 ≤ last.1) : IsLast (first :: rest) last := by
  obtain ⟨before, after, rfl, earlier, later⟩ := isLast
  refine ⟨first :: before, after, rfl, fun other member => ?_, later⟩
  rcases List.mem_cons.mp member with rfl | member
  · exact below
  · exact earlier other member

/-- One that is ranked lower than the first may come right after it. -/
theorem insert (isLast : IsLast (first :: rest) last) (below : second.1 < first.1) :
    IsLast (first :: second :: rest) last := by
  obtain ⟨before, after, same, earlier, later⟩ := isLast
  cases before with
  | nil =>
    obtain ⟨rfl, rfl⟩ := List.cons_eq_cons.mp same
    refine ⟨[], second :: rest, rfl, nofun, fun other member => ?_⟩
    rcases List.mem_cons.mp member with rfl | member
    · exact below
    · exact later other member
  | cons head before =>
    obtain ⟨rfl, rfl⟩ := List.cons_eq_cons.mp same
    refine ⟨first :: second :: before, after, rfl, fun other member => ?_, later⟩
    have start := earlier first (List.mem_cons_self ..)
    simp only [List.mem_cons] at member
    rcases member with rfl | rfl | member
    · exact start
    · exact Nat.le_of_lt (Nat.lt_of_lt_of_le below start)
    · exact earlier other (List.mem_cons_of_mem _ member)

/-- What is ranked above all that follows is not followed by anything that is ranked as high. -/
theorem eq_of_append {between after after' : List (Nat × Failure)}
    (same : last :: after = between ++ last' :: after') (later : ∀ other ∈ after, other.1 < last.1)
    (earlier : ∀ other ∈ between, other.1 ≤ last'.1) : last = last' := by
  cases between with
  | nil => exact (List.cons_eq_cons.mp same).1
  | cons head between =>
    obtain ⟨rfl, rfl⟩ := List.cons_eq_cons.mp same
    have low := earlier last (List.mem_cons_self ..)
    have high := later last' (by simp)
    exact absurd low (Nat.not_le.mpr high)

/-- There is only one. -/
theorem unique (isLast : IsLast failures last) (isLast' : IsLast failures last') : last = last' := by
  obtain ⟨before, after, same, earlier, later⟩ := isLast
  obtain ⟨before', after', same', earlier', later'⟩ := isLast'
  rcases List.append_eq_append_iff.mp (same.symm.trans same') with ⟨between, rfl, rest⟩ | ⟨between, rfl, rest⟩
  · exact eq_of_append rest later fun other member => earlier' other (List.mem_append_right _ member)
  · exact (eq_of_append rest later' fun other member => earlier other (List.mem_append_right _ member)).symm

end IsLast

/-- Of several failures the last one is picked. -/
theorem Fetch.lastFailure_cons (first : Nat × Failure) (rest : List (Nat × Failure)) :
    ∃ last, Fetch.lastFailure (first :: rest) = some last ∧ IsLast (first :: rest) last := by
  induction rest generalizing first with
  | nil => exact ⟨first, rfl, .singleton first⟩
  | cons second rest ih =>
    obtain ⟨last, picked, isLast⟩ := ih (if first.1 ≤ second.1 then second else first)
    refine ⟨last, picked, ?_⟩
    split at isLast
    · next behind => exact isLast.cons (Nat.le_trans behind (isLast.bound (List.mem_cons_self ..)))
    · next ahead => exact isLast.insert (Nat.not_le.mp ahead)

/-- The failure of a fetch is the last of those that it noted. -/
theorem isLast_totalFailure {failures : List (Nat × Failure)} (noted : failures ≠ []) :
    ∃ rank, IsLast failures (rank, Fetch.totalFailure failures) := by
  obtain ⟨first, rest, rfl⟩ := List.exists_cons_of_ne_nil noted
  obtain ⟨last, picked, isLast⟩ := Fetch.lastFailure_cons first rest
  refine ⟨last.1, ?_⟩
  unfold Fetch.totalFailure
  rw [picked]
  exact isLast

/-- What happened to a fetch, as far as it may decide it. -/
structure Timeline where
  /-- How many providers there are. -/
  size : Nat
  begunAt : Nat
  expiresAt : Nat
  cancelledAt : Option Nat
  /-- How legs ended, in this order. -/
  ends : List LegEnd

namespace Timeline

/-- The failures with their ranks that some legs end with. -/
def setbacks (timeline : Timeline) (ends : List LegEnd) : List (Nat × Failure) :=
  ends.filterMap fun leg => setback? timeline.size leg.index leg.ending

/-- Something that decides a fetch, with its instant, its place among things that are seen together, and the
result. -/
inductive Occurs (timeline : Timeline) : Nat → Nat → Except Failure (List ForecastDay) → Prop
  | cancelled {instant : Nat} (gaveUp : timeline.cancelledAt = some instant) :
      Occurs timeline instant 0 (.error .cancelled)
  | expired : Occurs timeline (max timeline.begunAt timeline.expiresAt) 1 (.error (.timeout .request))
  /-- A leg ends with a success, or with a failure that nobody can help. -/
  | settled {place : Nat} {leg : LegEnd} {result : Except Failure (List ForecastDay)}
      (ended : timeline.ends[place]? = some leg) (settles : decision? leg.ending = some result) :
      Occurs timeline leg.instant (place + 2) result
  /-- A leg fails when those of all other providers have ended. -/
  | exhausted {place rank : Nat} {leg : LegEnd} {setback : Nat × Failure} {failure : Failure}
      (ended : timeline.ends[place]? = some leg)
      (failed : setback? timeline.size leg.index leg.ending = some setback)
      (all : ∀ index < timeline.size, ∃ other ∈ timeline.ends.take (place + 1), other.index = index)
      (last : IsLast (timeline.setbacks (timeline.ends.take (place + 1))) (rank, failure)) :
      Occurs timeline leg.instant (place + 2) (.error failure)

/-- What decides a fetch, before anything else that would. -/
structure First (timeline : Timeline) (instant order : Nat) (result : Except Failure (List ForecastDay)) : Prop where
  occurs : timeline.Occurs instant order result
  least : ∀ instant' order' result', timeline.Occurs instant' order' result' →
    instant < instant' ∨ instant = instant' ∧ order ≤ order'

variable {timeline : Timeline}

/-- Only the failure of a leg that panicked is ranked after all providers. -/
theorem rank_of_setback? {size index : Nat} {ending : WorkEnd (List ForecastDay)} {setback : Nat × Failure}
    (inside : index < size) (failed : setback? size index ending = some setback) :
    setback.1 < size ∨ setback.1 = size ∧ ∃ panic, ending = .panicked panic := by
  cases ending with
  | value days => contradiction
  | panicked panic => cases failed; exact .inr ⟨rfl, panic, rfl⟩
  | failure own =>
    simp only [setback?] at failed
    split at failed
    · contradiction
    · cases failed
      exact .inl inside

/-- Of the failures of some legs that of the last one that panicked is the last. -/
theorem isLast_of_panicked {before after : List LegEnd} {leg : LegEnd} {panic : Panic}
    (inside : ∀ other ∈ before ++ leg :: after, other.index < timeline.size) (panicked : leg.ending = .panicked panic)
    (calm : ∀ other ∈ after, ∀ panic', other.ending ≠ .panicked panic') :
    IsLast (timeline.setbacks (before ++ leg :: after)) (timeline.size, Fetch.panicFailure panic) := by
  refine ⟨timeline.setbacks before, timeline.setbacks after, ?_, fun setback noted => ?_, fun setback noted => ?_⟩
  · simp only [setbacks, List.filterMap_append, List.filterMap_cons, panicked, setback?]
  · obtain ⟨other, member, failed⟩ := List.mem_filterMap.mp noted
    rcases rank_of_setback? (inside other (List.mem_append_left _ member)) failed with below | ⟨same, _⟩
    · exact Nat.le_of_lt below
    · exact Nat.le_of_eq same
  · obtain ⟨other, member, failed⟩ := List.mem_filterMap.mp noted
    have there : other ∈ before ++ leg :: after := List.mem_append_right _ (List.mem_cons_of_mem _ member)
    rcases rank_of_setback? (inside other there) failed with below | ⟨_, panic', also⟩
    · exact below
    · exact absurd also (calm other member panic')

/-- Things of the same place among those seen together are the same. -/
theorem Occurs.unique {instant instant' order : Nat} {result result' : Except Failure (List ForecastDay)}
    (occurs : timeline.Occurs instant order result) (occurs' : timeline.Occurs instant' order result') :
    instant = instant' ∧ result = result' := by
  cases occurs with
  | cancelled gaveUp =>
    cases occurs' with
    | cancelled gaveUp' => exact ⟨Option.some.inj (gaveUp.symm.trans gaveUp'), rfl⟩
  | expired => cases occurs'; exact ⟨rfl, rfl⟩
  | settled ended settles =>
    cases occurs' with
    | settled ended' settles' =>
      obtain rfl := Option.some.inj (ended.symm.trans ended')
      exact ⟨rfl, Option.some.inj (settles.symm.trans settles')⟩
    | exhausted ended' failed' =>
      obtain rfl := Option.some.inj (ended.symm.trans ended')
      rw [setback?_eq_none_of_decision? settles] at failed'
      contradiction
  | exhausted ended failed _ last =>
    cases occurs' with
    | settled ended' settles' =>
      obtain rfl := Option.some.inj (ended.symm.trans ended')
      rw [setback?_eq_none_of_decision? settles'] at failed
      contradiction
    | exhausted ended' _ _ last' =>
      obtain rfl := Option.some.inj (ended.symm.trans ended')
      exact ⟨rfl, congrArg _ (congrArg Prod.snd (last.unique last'))⟩

end Timeline

namespace Story

variable {story : Story}

/-- What happened to a fetch so far. -/
def timeline (story : Story) : Timeline :=
  ⟨story.fetch.size, story.begunAt, story.fetch.deadline.instant, story.cancelledAt, story.ends⟩

/-- Time passes when the fetch has looked at everything, and an undecided fetch looks at its deadline in time. -/
def Prompt : Rule
  | story, .pass instant =>
    story.turn? = none ∧ (story.fetch.result = none → instant ≤ story.fetch.deadline.instant)
  | _, _ => True

instance (story : Story) (event : Event) : Decidable (Prompt story event) :=
  match event with
  | .pass _ => inferInstanceAs (Decidable (_ ∧ _))
  | .turn | .legBegins .. | .legEnds .. | .scope _ | .cancel _ => .isTrue trivial

/-- A fetch that looks at things in time is decided by the first of them. -/
structure Timely (story : Story) : Prop where
  begun : story.begunAt ≤ story.clock.now
  inTime : story.fetch.result = none → story.clock.now ≤ max story.begunAt story.fetch.deadline.instant
  /-- That the caller gave up is seen before time passes. -/
  gaveUp : story.fetch.result = none →
    story.cancelledAt = if story.fetch.deadline.isCancelled story.clock then some story.clock.now else none
  /-- So are the ends of legs. -/
  waiting : story.fetch.result = none →
    ∀ leg ∈ story.ends.drop story.fetch.failures.length, leg.instant = story.clock.now
  decided : ∀ result, story.fetch.result = some result →
    ∃ instant order, story.decidedAt = some instant ∧ story.timeline.First instant order result

/-- The fetch has looked at the first legs that ended, and noted their failures. -/
theorem Books.failed (books : Books story) {place : Nat} {leg : LegEnd} (ended : story.ends[place]? = some leg)
    (before : place < story.fetch.failures.length) :
    ∃ setback, setback? story.fetch.size leg.index leg.ending = some setback := by
  obtain ⟨looked, waiting, ends, _, failures⟩ := books.told
  rw [ends, List.getElem?_append_left (length_looked failures ▸ before)] at ended
  have same := congrArg (·[place]?) failures
  simp only [List.getElem?_map, ended, List.getElem?_eq_getElem before, Option.map_some] at same
  exact ⟨_, Option.some.inj same⟩

/-- What the fetch looks at next is the first end that it has not looked at. -/
theorem Books.next_end (books : Books story) {index : Nat} {ending : WorkEnd (List ForecastDay)}
    {rest : List (Nat × WorkEnd (List ForecastDay))} (arrived : story.fetch.arrivals = (index, ending) :: rest) :
    ∃ leg, story.ends[story.fetch.failures.length]? = some leg ∧ leg.index = index ∧ leg.ending = ending := by
  obtain ⟨looked, leg, waiting, ends, own, same, _, failures⟩ := books.of_arrived arrived
  refine ⟨leg, ?_, own, same⟩
  rw [ends, ← length_looked failures]
  simp

/-- What the fetch notes in the end are all failures there are. -/
theorem Books.setbacks_of_arrived (books : Books story) {index : Nat} {ending : WorkEnd (List ForecastDay)}
    {setback : Nat × Failure} (arrived : story.fetch.arrivals = [(index, ending)])
    (failed : setback? story.fetch.size index ending = some setback) :
    story.timeline.setbacks story.ends = story.fetch.failures ++ [setback] := by
  obtain ⟨looked, waiting, ends, others, failures⟩ := books.looked arrived failed
  obtain rfl := List.map_eq_nil_iff.mp others
  rw [List.append_nil] at ends
  have same : story.timeline.setbacks story.ends =
      (looked.map fun leg => setback? story.fetch.size leg.index leg.ending).filterMap id := by
    rw [List.filterMap_map, ends]
    rfl
  rw [same, failures, List.filterMap_map]
  simp

/-- The last failure, with no leg and no provider left, decides the fetch. -/
theorem Books.exhausted (books : Books story) {leg : LegEnd} {setback : Nat × Failure}
    (ended : story.ends[story.fetch.failures.length]? = some leg)
    (arrived : story.fetch.arrivals = [(leg.index, leg.ending)])
    (failed : setback? story.fetch.size leg.index leg.ending = some setback)
    (full : story.fetch.size ≤ story.fetch.next) (none : story.fetch.legs = []) :
    story.timeline.Occurs leg.instant (story.fetch.failures.length + 2)
      (.error (Fetch.totalFailure (story.fetch.failures ++ [setback]))) := by
  have last : story.ends.take (story.fetch.failures.length + 1) = story.ends := by
    refine List.take_of_length_le ?_
    rw [books.length_ends, arrived]
    exact Nat.le_refl _
  have noted : story.fetch.failures ++ [setback] ≠ [] := by simp
  obtain ⟨rank, isLast⟩ := isLast_totalFailure noted
  refine .exhausted ended failed ?_ (?_ : IsLast _ (rank, _))
  · intro index inside
    have there := books.legs.mem_iff.mpr (List.mem_range.mpr (Nat.lt_of_lt_of_le inside full))
    rw [none, List.map_nil, List.nil_append] at there
    obtain ⟨other, member, same⟩ := List.mem_map.mp there
    exact ⟨other, last.symm ▸ member, same⟩
  · rw [show story.timeline.ends = story.ends from rfl, last, books.setbacks_of_arrived arrived failed]
    exact isLast

namespace Timely

variable {later : Story}

/-- The ends that an undecided fetch has not looked at are new. -/
theorem now_of_fresh (timely : story.Timely) (undecided : story.fetch.result = none) {place : Nat} {leg : LegEnd}
    (ended : story.ends[place]? = some leg) (fresh : story.fetch.failures.length ≤ place) :
    leg.instant = story.clock.now := by
  refine timely.waiting undecided leg (List.mem_of_getElem? (i := place - story.fetch.failures.length) ?_)
  rw [List.getElem?_drop, Nat.add_sub_cancel' fresh]
  exact ended

/-- What decides an undecided fetch happens now or later, and the fetch has not looked at it. -/
theorem ahead (timely : story.Timely) (walked : story.Walked) (undecided : story.fetch.result = none)
    {instant order : Nat} {result : Except Failure (List ForecastDay)}
    (occurs : story.timeline.Occurs instant order result) :
    story.clock.now ≤ instant ∧ (order = 0 ∧ story.fetch.deadline.isCancelled story.clock = true ∨
      order = 1 ∧ story.fetch.deadline.instant ≤ instant ∨ story.fetch.failures.length + 2 ≤ order) := by
  have books := walked.books undecided
  cases occurs with
  | cancelled gaveUp =>
    have given := timely.gaveUp undecided
    rw [show story.cancelledAt = some instant from gaveUp] at given
    split at given
    · next cancelled => exact ⟨Nat.le_of_eq (Option.some.inj given).symm, .inl ⟨rfl, cancelled⟩⟩
    · contradiction
  | expired => exact ⟨timely.inTime undecided, .inr (.inl ⟨rfl, Nat.le_max_right ..⟩)⟩
  | @settled place leg _ ended settles =>
    rcases Nat.lt_or_ge place story.fetch.failures.length with before | fresh
    · obtain ⟨setback, failed⟩ := books.failed ended before
      rw [setback?_eq_none_of_decision? settles] at failed
      contradiction
    · exact ⟨Nat.le_of_eq (timely.now_of_fresh undecided ended fresh).symm, .inr (.inr (Nat.add_le_add_right fresh 2))⟩
  | @exhausted place _ leg setback failure ended failed all last =>
    rcases Nat.lt_or_ge place story.fetch.failures.length with before | fresh
    · have every : List.range story.fetch.size ⊆ (story.ends.take (place + 1)).map LegEnd.index := by
        intro index inside
        obtain ⟨other, member, rfl⟩ := all index (List.mem_range.mp inside)
        exact List.mem_map_of_mem member
      have few := (List.nodup_range.subperm every).length_le
      rw [List.length_range, List.length_map, List.length_take] at few
      have left := books.left
      have next := walked.next
      omega
    · exact ⟨Nat.le_of_eq (timely.now_of_fresh undecided ended fresh).symm, .inr (.inr (Nat.add_le_add_right fresh 2))⟩

/-- All that is asked of a decided fetch is that it was decided by what came first. -/
theorem of_decided {result : Except Failure (List ForecastDay)} {instant order : Nat}
    (begun : story.begunAt ≤ story.clock.now) (decided : story.fetch.result = some result)
    (decidedAt : story.decidedAt = some instant) (first : story.timeline.First instant order result) :
    story.Timely := by
  constructor
  · exact begun
  · exact fun absurd => by rw [decided] at absurd; contradiction
  · exact fun absurd => by rw [decided] at absurd; contradiction
  · exact fun absurd => by rw [decided] at absurd; contradiction
  · intro other own
    obtain rfl : result = other := Option.some.inj (decided.symm.trans own)
    exact ⟨instant, order, decidedAt, first⟩

/-- The fetch ends now, for a reason before which there is none. -/
theorem close (timely : story.Timely) (walked : story.Walked) (undecided : story.fetch.result = none)
    (same : later.timeline = story.timeline) (now : later.clock.now = story.clock.now)
    (decidedAt : later.decidedAt = some later.clock.now) {result : Except Failure (List ForecastDay)}
    (decided : later.fetch.result = some result) {order : Nat}
    (occurs : story.timeline.Occurs story.clock.now order result)
    (first : ∀ instant' order' result', story.timeline.Occurs instant' order' result' →
      story.clock.now = instant' → order ≤ order') : later.Timely := by
  have begun : later.begunAt ≤ later.clock.now := by
    rw [now, show later.begunAt = story.begunAt from congrArg Timeline.begunAt same]
    exact timely.begun
  have least : story.timeline.First story.clock.now order result := by
    refine ⟨occurs, fun instant' order' result' occurs' => ?_⟩
    rcases Nat.lt_or_eq_of_le (timely.ahead walked undecided occurs').1 with sooner | together
    · exact .inl sooner
    · exact .inr ⟨together, first _ _ _ occurs' together⟩
  rw [← same, ← now] at least
  exact of_decided begun decided decidedAt least

/-- The fetch goes on, with nothing new but what it looked at. -/
theorem goOn (timely : story.Timely) (undecided : story.fetch.result = none)
    (still : story.fetch.deadline.isCancelled later.clock = story.fetch.deadline.isCancelled story.clock)
    (same : later.timeline = story.timeline) (deadline : later.fetch.deadline = story.fetch.deadline)
    (now : later.clock.now = story.clock.now) (open' : later.fetch.result = none)
    (looked : story.fetch.failures.length ≤ later.fetch.failures.length) : later.Timely := by
  have begun : later.begunAt = story.begunAt := congrArg Timeline.begunAt same
  have ends : later.ends = story.ends := congrArg Timeline.ends same
  have cancelledAt : later.cancelledAt = story.cancelledAt := congrArg Timeline.cancelledAt same
  constructor
  · rw [begun, now]
    exact timely.begun
  · rw [begun, now, deadline]
    exact fun _ => timely.inTime undecided
  · rw [deadline, cancelledAt, now, still]
    exact fun _ => timely.gaveUp undecided
  · rw [ends, now]
    exact fun _ leg member => timely.waiting undecided leg (List.drop_subset_drop_left _ looked member)
  · exact fun result decided => by rw [open'] at decided; contradiction

/-- A fetch that is decided stays as it is. -/
theorem keep (timely : story.Timely) (decided : story.fetch.result.isSome = true)
    (same : later.timeline = story.timeline) (result : later.fetch.result = story.fetch.result)
    (decidedAt : later.decidedAt = story.decidedAt) (now : story.clock.now ≤ later.clock.now) : later.Timely := by
  obtain ⟨own, decided⟩ := Option.isSome_iff_exists.mp decided
  obtain ⟨instant, order, when, first⟩ := timely.decided own decided
  have begun : later.begunAt ≤ later.clock.now := by
    rw [show later.begunAt = story.begunAt from congrArg Timeline.begunAt same]
    exact Nat.le_trans timely.begun now
  exact of_decided begun (result.trans decided) (decidedAt.trans when) (same.symm ▸ first)

/-- If the fetch is open, what decides it now is the end of a leg that it has not looked at. -/
theorem fresh_of_open (timely : story.Timely) (walked : story.Walked) (undecided : story.fetch.result = none)
    (isOpen : story.fetch.Open story.clock) {instant order : Nat} {result : Except Failure (List ForecastDay)}
    (occurs : story.timeline.Occurs instant order result) (now : story.clock.now = instant) :
    story.fetch.failures.length + 2 ≤ order := by
  have uncancelled := isOpen.uncancelled
  have inTime := isOpen.inTime
  rcases (timely.ahead walked undecided occurs).2 with ⟨_, cancelled⟩ | ⟨_, past⟩ | fresh
  · rw [uncancelled] at cancelled
    contradiction
  · omega
  · exact fresh

theorem turn (timely : story.Timely) (walked : story.Walked) (turn : story.turn? = some later) : later.Timely := by
  obtain ⟨fetch, clock, turned, rfl⟩ := turn?_eq_some_iff.mp turn
  obtain ⟨undecided, turned⟩ := Fetch.turned_of_turn? turned
  have books := walked.books undecided
  cases turned with
  | cancelled own =>
    have gaveUp := timely.gaveUp undecided
    rw [if_pos own] at gaveUp
    exact timely.close walked undecided rfl rfl rfl rfl (.cancelled gaveUp) fun _ order _ _ _ => Nat.zero_le order
  | expired uncancelled own =>
    have now : max story.begunAt story.fetch.deadline.instant = story.clock.now :=
      Nat.le_antisymm (Nat.max_le.mpr ⟨timely.begun, own⟩) (timely.inTime undecided)
    have timedOut : story.timeline.Occurs story.clock.now 1 (.error (.timeout .request)) := by
      rw [← now]
      exact .expired
    refine timely.close walked undecided rfl rfl rfl rfl timedOut fun _ order _ occurs _ => ?_
    rcases (timely.ahead walked undecided occurs).2 with ⟨_, cancelled⟩ | ⟨rfl, _⟩ | fresh
    · rw [uncancelled] at cancelled
      contradiction
    · exact Nat.le_refl 1
    · omega
  | decided isOpen arrived decides still =>
    obtain ⟨leg, ended, rfl, rfl⟩ := books.next_end arrived
    refine timely.close walked undecided rfl rfl rfl rfl ?_
      fun _ _ _ occurs now => timely.fresh_of_open walked undecided isOpen occurs now
    rw [← timely.now_of_fresh undecided ended (Nat.le_refl _)]
    exact .settled ended decides
  | exhausted isOpen arrived failed still full none =>
    obtain ⟨leg, ended, rfl, rfl⟩ := books.next_end arrived
    refine timely.close walked undecided rfl rfl rfl rfl ?_
      fun _ _ _ occurs now => timely.fresh_of_open walked undecided isOpen occurs now
    rw [← timely.now_of_fresh undecided ended (Nat.le_refl _)]
    exact books.exhausted ended arrived failed full none
  | replaced isOpen arrived failed still room new =>
    exact timely.goOn undecided rfl rfl rfl rfl undecided (by simp)
  | noted isOpen arrived failed still full left =>
    exact timely.goOn undecided rfl rfl rfl rfl undecided (by simp)
  | fired isOpen idle primary room due new =>
    exact timely.goOn undecided rfl rfl rfl rfl undecided (Nat.le_refl _)

theorem pass (timely : story.Timely) (walked : story.Walked) {instant : Nat}
    (allowed : story.Prompt (.pass instant)) : Timely { story with clock := story.clock.moveTo instant } := by
  obtain ⟨settled, soon⟩ := allowed
  by_cases undecided : story.fetch.result = none
  · obtain ⟨isOpen, idle⟩ := open_of_settled settled undecided
    have told := (walked.books undecided).length_ends
    rw [idle, List.length_nil, Nat.add_zero] at told
    have uncancelled : story.fetch.deadline.isCancelled (story.clock.moveTo instant) = false := isOpen.uncancelled
    have given := timely.gaveUp undecided
    constructor
    · exact Nat.le_trans timely.begun (Nat.le_max_left ..)
    · exact fun _ => Nat.le_trans (Nat.max_le.mpr ⟨Nat.le_of_lt isOpen.inTime, soon undecided⟩) (Nat.le_max_right ..)
    · rw [isOpen.uncancelled] at given
      rw [uncancelled]
      exact fun _ => given
    · rw [← told, List.drop_length]
      exact fun _ _ => nofun
    · exact fun result decided => by rw [undecided] at decided; contradiction
  · exact timely.keep (Option.isSome_iff_ne_none.mpr undecided) rfl rfl rfl (Nat.le_max_left ..)

/-- When the fetch has looked at everything and is undecided, what decides it is still to come. -/
theorem later_of_settled (timely : story.Timely) (walked : story.Walked) (undecided : story.fetch.result = none)
    (settled : story.turn? = none) {instant order : Nat} {result : Except Failure (List ForecastDay)}
    (occurs : story.timeline.Occurs instant order result) : story.clock.now < instant := by
  obtain ⟨isOpen, idle⟩ := open_of_settled settled undecided
  refine Nat.lt_of_le_of_ne (timely.ahead walked undecided occurs).1 fun now => ?_
  have fresh := timely.fresh_of_open walked undecided isOpen occurs now
  have told := (walked.books undecided).length_ends
  rw [idle, List.length_nil] at told
  cases occurs with
  | cancelled | expired => omega
  | settled ended | exhausted ended =>
    have inside : _ < story.ends.length := (List.getElem?_eq_some_iff.mp ended).1
    omega

/-- The first time that the caller's scope is seen to be cancelled is when the caller gave up. -/
theorem cancel (timely : story.Timely) (token : Token) (step : story.step? (.cancel token) = some later) :
    later.Timely := by
  cases step
  cases undecided : story.fetch.result with
  | some result =>
    exact timely.keep (Option.isSome_iff_exists.mpr ⟨result, undecided⟩) (by simp [timeline]) rfl rfl
      (Nat.le_refl _)
  | none =>
    have given := timely.gaveUp undecided
    constructor
    · exact timely.begun
    · exact fun _ => timely.inTime undecided
    · intro _
      cases before : story.fetch.deadline.isCancelled story.clock with
      | true =>
        have after : story.fetch.deadline.isCancelled (story.clock.cancel token) = true :=
          Clock.isCancelled_cancel_of_isCancelled before
        simp only [given, before, after, if_true, Option.isNone_some, Bool.false_and, Bool.false_eq_true, if_false]
        rfl
      | false =>
        rw [before, if_neg Bool.false_ne_true] at given
        simp only [given, Option.isNone_none, Bool.true_and]
    · exact fun _ => timely.waiting undecided
    · exact fun result decided => by rw [undecided] at decided; contradiction

theorem step {event : Event} (timely : story.Timely) (walked : story.Walked) (allowed : story.Prompt event)
    (step : story.step? event = some later) : later.Timely := by
  cases event with
  | turn => exact timely.turn walked step
  | pass instant => cases step; exact timely.pass walked allowed
  | cancel token => exact timely.cancel token step
  | scope parent =>
    by_cases undecided : story.fetch.result = none
    · cases parent <;> cases step <;> exact timely.goOn undecided rfl rfl rfl rfl undecided (Nat.le_refl _)
    · have decided := Option.isSome_iff_ne_none.mpr undecided
      cases parent <;> cases step <;> exact timely.keep decided rfl rfl rfl (Nat.le_refl _)
  | legBegins index call =>
    obtain ⟨leg, member, _, _, rfl⟩ := step?_legBegins step
    have undecided := walked.undecided_of_leg member
    exact timely.goOn undecided rfl rfl rfl rfl undecided (Nat.le_refl _)
  | legEnds index ending =>
    obtain ⟨leg, member, _, rfl⟩ := step?_legEnds step
    have undecided := walked.undecided_of_leg member
    have told : story.fetch.failures.length ≤ story.ends.length := by
      rw [(walked.books undecided).length_ends]
      exact Nat.le_add_right ..
    constructor
    · exact timely.begun
    · exact fun _ => timely.inTime undecided
    · exact fun _ => timely.gaveUp undecided
    · intro _ other there
      change other ∈ (story.ends ++ _).drop story.fetch.failures.length at there
      rw [List.drop_append_of_le_length told] at there
      rcases List.mem_append.mp there with before | last
      · exact timely.waiting undecided other before
      · rw [List.mem_singleton.mp last]
    · exact fun result decided => by rw [show story.fetch.result = some result from decided] at undecided; contradiction

theorem opening (clock : Clock) {size : Nat} (threshold : Nat) (deadline : Deadline) (providers : size ≠ 0) :
    Timely (Story.opening clock size threshold deadline) := by
  obtain ⟨size, rfl⟩ := Nat.exists_eq_succ_of_ne_zero providers
  constructor
  · exact Nat.le_refl _
  · exact fun _ => Nat.le_max_left ..
  · exact fun _ => rfl
  · exact fun _ _ => nofun
  · exact fun _ => nofun

theorem run {clock : Clock} {size threshold : Nat} {deadline : Deadline} (providers : size ≠ 0)
    (run : Run Prompt (begin clock size threshold deadline) story) : story.Timely := by
  induction run with
  | nil =>
    have timely := opening clock threshold deadline providers
    exact begin_of_turn timely fun _ turn => timely.turn (Walked.opening ..) turn
  | snoc run allowed step ih => exact ih.step (Walked.run run) allowed step

end Timely

/-- What a fetch gives that is stopped. -/
def stopResult (story : Story) : Except Failure (List ForecastDay) :=
  .error (if story.fetch.deadline.isCancelled story.clock then .cancelled else .timeout .request)

/-- A fetch was decided at that instant and runs no legs. -/
structure Closed (story : Story) (instant : Nat) (result : Except Failure (List ForecastDay)) (called : List Nat) :
    Prop where
  result : story.fetch.result = some result
  legs : story.fetch.legs = []
  decidedAt : story.decidedAt = some instant
  called : story.called = called

/-- A fetch whose caller gave up or whose time is over ends with its next turn. -/
theorem turn_of_not_open (undecided : story.fetch.result = none) (shut : ¬ story.fetch.Open story.clock) :
    ∃ next, story.turn? = some next ∧ next.Closed story.clock.now story.stopResult story.called := by
  cases turn : story.turn? with
  | none => exact absurd (open_of_settled turn undecided).1 shut
  | some next =>
    refine ⟨next, rfl, ?_⟩
    obtain ⟨fetch, clock, turned, rfl⟩ := turn?_eq_some_iff.mp turn
    cases (Fetch.turned_of_turn? turned).2 with
    | cancelled own => exact ⟨by simp [stopResult, own], rfl, rfl, rfl⟩
    | expired uncancelled own => exact ⟨by simp [stopResult, uncancelled], rfl, rfl, rfl⟩
    | decided isOpen | replaced isOpen | noted isOpen | exhausted isOpen | fired isOpen => exact absurd isOpen shut

/-- A fetch that was over stays so, and calls no provider. -/
theorem Closed.step {instant : Nat} {result : Except Failure (List ForecastDay)} {called : List Nat} {event : Event}
    {later : Story} (closed : story.Closed instant result called) (step : story.step? event = some later) :
    later.Closed instant result called := by
  cases event with
  | turn =>
    obtain ⟨fetch, clock, turned, _⟩ := turn?_eq_some_iff.mp step
    have undecided := (Fetch.turned_of_turn? turned).1
    rw [closed.result] at undecided
    contradiction
  | legBegins index call =>
    obtain ⟨leg, member, _⟩ := step?_legBegins step
    rw [closed.legs] at member
    contradiction
  | legEnds index ending =>
    obtain ⟨leg, member, _⟩ := step?_legEnds step
    rw [closed.legs] at member
    contradiction
  | pass instant => cases step; exact ⟨closed.result, closed.legs, closed.decidedAt, closed.called⟩
  | scope parent =>
    cases parent <;> cases step <;> exact ⟨closed.result, closed.legs, closed.decidedAt, closed.called⟩
  | cancel token => cases step; exact ⟨closed.result, closed.legs, closed.decidedAt, closed.called⟩

/-- A fetch that begins too late is over at once and calls no provider. -/
theorem closed_of_late {rule : Rule} {clock : Clock} {size threshold : Nat} {deadline : Deadline}
    (providers : size ≠ 0) (late : deadline.isCancelled clock = true ∨ deadline.instant ≤ clock.now)
    (run : Run rule (begin clock size threshold deadline) story) :
    story.Closed clock.now (.error (if deadline.isCancelled clock then .cancelled else .timeout .request)) [] := by
  induction run with
  | snoc _ _ step ih => exact ih.step step
  | nil =>
    obtain ⟨size, rfl⟩ := Nat.exists_eq_succ_of_ne_zero providers
    let first := opening clock (size + 1) threshold deadline
    have shut : ¬ first.fetch.Open first.clock := by
      rintro ⟨uncancelled, inTime⟩
      rcases late with cancelled | past
      · exact absurd (cancelled.symm.trans uncancelled) Bool.noConfusion
      · exact absurd past (Nat.not_le.mpr inTime)
    obtain ⟨next, turn, closed⟩ := turn_of_not_open (show first.fetch.result = none from rfl) shut
    unfold begin
    rw [turn]
    exact closed

/-- Nobody does anything but the fetch itself. -/
def Unaided : Rule
  | story, .pass instant => story.Prompt (.pass instant)
  | _, .turn => True
  | _, _ => False

/-- How many more turns a fetch can take before time passes. -/
def pending (story : Story) : Nat :=
  story.fetch.arrivals.length + story.fetch.primaryRunning.toNat

/-- Each turn that does not decide the fetch leaves less to look at. -/
theorem pending_lt_of_turn {later : Story} (turn : story.turn? = some later) (undecided : later.fetch.result = none) :
    later.pending < story.pending := by
  obtain ⟨fetch, clock, turned, rfl⟩ := turn?_eq_some_iff.mp turn
  obtain ⟨_, turned⟩ := Fetch.turned_of_turn? turned
  unfold pending
  cases turned with
  | cancelled | expired | decided | exhausted => contradiction
  | replaced _ arrived _ still | noted _ arrived _ still =>
    rw [arrived]
    exact Nat.add_lt_add_of_lt_of_le (Nat.lt_succ_self _) (Bool.toNat_le_toNat still)
  | fired _ idle primary =>
    rw [primary]
    exact Nat.lt_succ_self _

/-- A fetch ends, whatever its providers do or fail to do. -/
theorem exists_decided (story : Story) : ∃ later, Run Unaided story later ∧ later.fetch.result ≠ none := by
  induction size : story.pending using Nat.strongRecOn generalizing story with
  | _ size ih =>
    by_cases undecided : story.fetch.result = none
    · have own (story : Story) : story.Unaided .turn := trivial
      cases turn : story.turn? with
      | some next =>
        have first : Run Unaided story next := .single (own story) turn
        by_cases still : next.fetch.result = none
        · obtain ⟨later, rest, decided⟩ := ih _ (size ▸ pending_lt_of_turn turn still) next rfl
          exact ⟨later, first.append rest, decided⟩
        · exact ⟨next, first, still⟩
      | none =>
        let waited : Story := { story with clock := story.clock.moveTo story.fetch.deadline.instant }
        have allowed : story.Unaided (.pass story.fetch.deadline.instant) := ⟨turn, fun _ => Nat.le_refl _⟩
        have waits : Run Unaided story waited := .single allowed rfl
        have shut : ¬ waited.fetch.Open waited.clock :=
          fun isOpen => absurd isOpen.inTime (Nat.not_lt.mpr (Nat.le_max_right ..))
        obtain ⟨later, turn, closed⟩ := turn_of_not_open (show waited.fetch.result = none from undecided) shut
        refine ⟨later, waits.snoc (own waited) turn, ?_⟩
        rw [closed.result]
        exact Option.some_ne_none _
    · exact ⟨story, .nil, undecided⟩

/-- How a fetch that was begun with some deadline is decided. -/
structure Decision (story : Story) (clock : Clock) (size : Nat) (deadline : Deadline) : Prop where
  begun : story.timeline.size = size ∧ story.timeline.begunAt = clock.now ∧
    story.timeline.expiresAt = deadline.instant
  /-- It is decided by what comes first, when it comes, and with its result. -/
  decided : ∀ result, story.fetch.result = some result →
    ∃ instant order, story.decidedAt = some instant ∧ story.timeline.First instant order result
  /-- If all legs fail, the last one that panicked, if one has, is ranked last. -/
  panics : ∀ {place : Nat} {before after : List LegEnd} {leg : LegEnd} {panic : Panic},
    story.ends.take (place + 1) = before ++ leg :: after → leg.ending = .panicked panic →
    (∀ other ∈ after, ∀ panic', other.ending ≠ .panicked panic') →
    IsLast (story.timeline.setbacks (story.ends.take (place + 1))) (size, Fetch.panicFailure panic)
  /-- What comes first settles the result. -/
  determined : ∀ {instant instant' order order' : Nat} {result result' : Except Failure (List ForecastDay)},
    story.timeline.First instant order result → story.timeline.First instant' order' result' →
      instant = instant' ∧ result = result'
  /-- Nothing that decides the fetch is overlooked. -/
  seen : story.fetch.result = none → story.turn? = none →
    ∀ instant order result, story.timeline.Occurs instant order result → story.clock.now < instant
  inTime : story.fetch.result = none → story.clock.now ≤ max clock.now deadline.instant
  /-- It ends by itself. -/
  ends : ∃ later, Run Unaided story later ∧ later.fetch.result ≠ none
  /-- If it begins too late, no provider is called. -/
  late : deadline.isCancelled clock = true ∨ deadline.instant ≤ clock.now →
    story.Closed clock.now (.error (if deadline.isCancelled clock then .cancelled else .timeout .request)) []

theorem decision_of_timely {clock : Clock} {size threshold : Nat} {deadline : Deadline} {story : Story}
    (timely : story.Timely) (walked : story.Walked) (asked : story.Asked clock.now size threshold deadline)
    (late : deadline.isCancelled clock = true ∨ deadline.instant ≤ clock.now →
      story.Closed clock.now (.error (if deadline.isCancelled clock then .cancelled else .timeout .request)) []) :
    story.Decision clock size deadline := by
  constructor
  · exact ⟨asked.size, asked.begunAt, congrArg Deadline.instant asked.deadline⟩
  · exact timely.decided
  · intro place before after leg panic parts panicked calm
    rw [parts, ← asked.size]
    refine Timeline.isLast_of_panicked (fun other member => ?_) panicked calm
    have ended : other ∈ story.ends := List.mem_of_mem_take (parts ▸ member)
    exact Nat.lt_of_lt_of_le (walked.ended_started other ended) (walked.next ▸ Nat.min_le_left ..)
  · intro instant instant' order order' result result' first first'
    obtain rfl : order = order' := by
      have one := first.least _ _ _ first'.occurs
      have other := first'.least _ _ _ first.occurs
      omega
    exact first.occurs.unique first'.occurs
  · exact fun undecided settled _ _ _ occurs => timely.later_of_settled walked undecided settled occurs
  · rw [← asked.begunAt, ← asked.deadline]
    exact timely.inTime
  · exact exists_decided story
  · exact late

/-- However its providers behave and whenever its caller gives up, a fetch that looks at things in time is
decided like this. -/
theorem decision_of_run {clock : Clock} {size threshold : Nat} {deadline : Deadline} {story : Story}
    (providers : size ≠ 0) (run : Run Prompt (begin clock size threshold deadline) story) :
    story.Decision clock size deadline :=
  decision_of_timely (Timely.run providers run) (Walked.run run) (Asked.run run)
    fun late => closed_of_late providers late run

/-- The first provider succeeds, but the caller gives up before the fetch can look at that. -/
def crossing : List Event :=
  [.legBegins 0 0, .pass 5, .legEnds 0 (.value []), .cancel ⟨[0]⟩, .turn]

/-- Both providers panic, the second one before the first. -/
def alarmed : List Event :=
  [.legBegins 0 0, .pass 10, .turn, .legBegins 1 1, .legEnds 1 (.panicked ⟨"2", none⟩), .turn, .pass 20,
    .legEnds 0 (.panicked ⟨"1", some "late"⟩), .turn]

theorem decision_of_run_crossing :
    (∃ story, Run Prompt (begin ⟨0, ⟨1, []⟩⟩ 2 10 ⟨100, ⟨[0]⟩⟩) story ∧
      story.fetch.result = some (.error .cancelled) ∧ story.decidedAt = some 5 ∧
      story.Decision ⟨0, ⟨1, []⟩⟩ 2 ⟨100, ⟨[0]⟩⟩) ∧
    ∃ story, Run Prompt (begin ⟨0, ⟨1, []⟩⟩ 2 10 ⟨100, ⟨[0]⟩⟩) story ∧
      story.fetch.result = some (.error (Fetch.panicFailure ⟨"1", some "late"⟩)) ∧ story.decidedAt = some 20 ∧
      story.Decision ⟨0, ⟨1, []⟩⟩ 2 ⟨100, ⟨[0]⟩⟩ := by
  constructor
  · obtain ⟨story, steps, result, decidedAt⟩ : ∃ story,
        crossing.foldlM (fun story event => if Prompt story event then story.step? event else none)
          (begin ⟨0, ⟨1, []⟩⟩ 2 10 ⟨100, ⟨[0]⟩⟩) = some story ∧
        story.fetch.result = some (.error .cancelled) ∧ story.decidedAt = some 5 :=
      ⟨_, rfl, rfl, rfl⟩
    have run : Run Prompt (begin ⟨0, ⟨1, []⟩⟩ 2 10 ⟨100, ⟨[0]⟩⟩) story := .of_events steps
    exact ⟨story, run, result, decidedAt, decision_of_run (by decide) run⟩
  · obtain ⟨story, steps, result, decidedAt⟩ : ∃ story,
        alarmed.foldlM (fun story event => if Prompt story event then story.step? event else none)
          (begin ⟨0, ⟨1, []⟩⟩ 2 10 ⟨100, ⟨[0]⟩⟩) = some story ∧
        story.fetch.result = some (.error (Fetch.panicFailure ⟨"1", some "late"⟩)) ∧ story.decidedAt = some 20 :=
      ⟨_, rfl, rfl, rfl⟩
    have run : Run Prompt (begin ⟨0, ⟨1, []⟩⟩ 2 10 ⟨100, ⟨[0]⟩⟩) story := .of_events steps
    exact ⟨story, run, result, decidedAt, decision_of_run (by decide) run⟩

end Story

end HedgedForecast
