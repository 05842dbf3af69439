import HedgedForecast.Proofs.Hedge.Stories
import Mathlib.Data.List.Perm.Basic
import Mathlib.Data.List.Nodup

/-! # The walk along the chain

A fetch starts its legs in the order of the chain, one after the other. Each failure and the one firing of
the timer move it on by one provider, until there is none left. So while it is undecided one or two legs
run, and a first provider that succeeds before the timer stays the only one.
-/

namespace HedgedForecast.Story

/-- What the fetch was told, and what became of it. -/
structure Books (story : Story) : Prop where
  /-- Those that the fetch has looked at failed; it is about to look at the others. -/
  told : ∃ looked waiting, story.ends = looked ++ waiting ∧
    waiting.map LegEnd.arrival = story.fetch.arrivals ∧
    looked.map (fun leg => setback? story.fetch.size leg.index leg.ending) = story.fetch.failures.map some
  /-- Every leg that was started runs or has ended, and none has ended twice. -/
  legs : (story.fetch.legs.map Leg.index ++ story.ends.map LegEnd.index).Perm (List.range story.fetch.next)
  left : story.fetch.failures.length < story.fetch.next

/-- The first provider succeeded before the timer. -/
def QuickPrimary (story : Story) : Prop :=
  ∃ leg ∈ story.ends, leg.index = 0 ∧ (∃ days, leg.ending = .value days) ∧ leg.instant < story.fetch.timerAt

/-- How far a fetch has come. -/
structure Walked (story : Story) : Prop where
  started : story.started = List.range story.fetch.next
  next : story.fetch.next = min story.fetch.size (1 + story.fetch.failures.length + story.fired)
  once : story.fired ≤ 1
  spent : story.fired = 1 → story.fetch.primaryRunning = false ∧ story.fetch.timerAt ≤ story.clock.now
  called : story.called.Nodup
  called_started : ∀ index ∈ story.called, index < story.fetch.next
  uncalled : ∀ leg ∈ story.fetch.legs, leg.call = none → leg.index ∉ story.called
  books : story.fetch.result = none → story.Books
  closed : story.fetch.result ≠ none → story.fetch.legs = []
  alone : story.fetch.result = none → story.fired = 0 → 0 ∈ story.fetch.legs.map Leg.index → story.fetch.next = 1
  quick : story.QuickPrimary → story.fetch.next = 1
  ended_once : (story.ends.map LegEnd.index).Nodup
  ended_started : ∀ leg ∈ story.ends, leg.index < story.fetch.next

/-- As many ends were looked at as failures were noted. -/
theorem length_looked {size : Nat} {looked : List LegEnd} {failures : List (Nat × Failure)}
    (same : looked.map (fun leg => setback? size leg.index leg.ending) = failures.map some) :
    looked.length = failures.length := by
  simpa only [List.length_map] using congrArg List.length same

namespace Books

variable {story : Story}

theorem length_legs (books : story.Books) :
    story.fetch.legs.length + story.ends.length = story.fetch.next := by
  have same := books.legs.length_eq
  simpa only [List.length_append, List.length_map, List.length_range] using same

theorem length_ends (books : story.Books) :
    story.ends.length = story.fetch.failures.length + story.fetch.arrivals.length := by
  obtain ⟨looked, waiting, ends, arrivals, failures⟩ := books.told
  have waits : waiting.length = story.fetch.arrivals.length := by
    simpa only [List.length_map] using congrArg List.length arrivals
  rw [ends, List.length_append, length_looked failures, waits]

theorem nodup (books : story.Books) :
    (story.fetch.legs.map Leg.index ++ story.ends.map LegEnd.index).Nodup :=
  books.legs.nodup_iff.mpr List.nodup_range

theorem lt_next (books : story.Books) {leg : Leg} (member : leg ∈ story.fetch.legs) : leg.index < story.fetch.next := by
  have there : leg.index ∈ story.fetch.legs.map Leg.index ++ story.ends.map LegEnd.index :=
    List.mem_append_left _ (List.mem_map_of_mem member)
  exact List.mem_range.mp (books.legs.mem_iff.mp there)

/-- What the fetch looks at next is the end of a leg. -/
theorem of_arrived (books : story.Books) {index : Nat} {ending : WorkEnd (List ForecastDay)}
    {rest : List (Nat × WorkEnd (List ForecastDay))} (arrived : story.fetch.arrivals = (index, ending) :: rest) :
    ∃ looked leg waiting, story.ends = looked ++ leg :: waiting ∧ leg.index = index ∧ leg.ending = ending ∧
      waiting.map LegEnd.arrival = rest ∧
      looked.map (fun leg => setback? story.fetch.size leg.index leg.ending) = story.fetch.failures.map some := by
  obtain ⟨looked, waiting, ends, arrivals, failures⟩ := books.told
  rw [arrived] at arrivals
  obtain ⟨leg, waiting, rfl, same, others⟩ := List.map_eq_cons_iff.mp arrivals
  obtain ⟨rfl, rfl⟩ := Prod.mk.inj same
  exact ⟨looked, leg, waiting, ends, rfl, rfl, others, failures⟩

/-- The fetch looks at a failure. -/
theorem looked (books : story.Books) {index : Nat} {ending : WorkEnd (List ForecastDay)}
    {rest : List (Nat × WorkEnd (List ForecastDay))} {setback : Nat × Failure}
    (arrived : story.fetch.arrivals = (index, ending) :: rest)
    (failed : setback? story.fetch.size index ending = some setback) :
    ∃ looked waiting, story.ends = looked ++ waiting ∧ waiting.map LegEnd.arrival = rest ∧
      looked.map (fun leg => setback? story.fetch.size leg.index leg.ending) =
        (story.fetch.failures ++ [setback]).map some := by
  obtain ⟨looked, leg, waiting, ends, rfl, rfl, others, failures⟩ := books.of_arrived arrived
  refine ⟨looked ++ [leg], waiting, by rw [ends, List.append_assoc]; rfl, others, ?_⟩
  rw [List.map_append, List.map_append, failures]
  simp [failed]

end Books

/-- The number of legs that run or have ended without the fetch having looked. -/
def running (story : Story) : Nat :=
  story.fetch.legs.length + story.fetch.arrivals.length

theorem Books.running (books : Books story) :
    story.running + story.fetch.failures.length = story.fetch.next := by
  have legs := books.length_legs
  have ends := books.length_ends
  unfold Story.running
  omega

/-- A first provider that was quick is what the fetch looks at next. -/
theorem Books.arrivals_of_quick (books : Books story) (quick : story.QuickPrimary) (only : story.fetch.next = 1) :
    ∃ days, story.fetch.arrivals = [(0, .value days)] := by
  obtain ⟨leg, member, first, ⟨days, success⟩, _⟩ := quick
  have one : story.ends = [leg] := by
    have legs := books.length_legs
    have some : 0 < story.ends.length := List.length_pos_of_mem member
    obtain ⟨other, same⟩ := List.length_eq_one_iff.mp (by omega : story.ends.length = 1)
    rw [same] at member ⊢
    rw [List.mem_singleton.mp member]
  obtain ⟨looked, waiting, ends, arrivals, failures⟩ := books.told
  rw [one] at ends
  refine ⟨days, ?_⟩
  rcases List.append_eq_singleton_iff.mp ends.symm with ⟨rfl, rfl⟩ | ⟨rfl, rfl⟩
  · rw [← arrivals]
    simp [LegEnd.arrival, first, success]
  · have absurd : (none : Option (Nat × Failure)) ∈ story.fetch.failures.map some := by
      rw [← failures]
      simp [success, setback?]
    obtain ⟨_, _, absurd⟩ := List.mem_map.mp absurd
    contradiction

/-- The books after another leg was started. -/
theorem Books.legs_snoc (books : Books story) {leg : Leg} (new : story.fetch.IsNext leg) :
    ((story.fetch.legs ++ [leg]).map Leg.index ++ story.ends.map LegEnd.index).Perm
      (List.range (story.fetch.next + 1)) := by
  rw [List.map_append, List.range_succ, List.append_assoc, List.map_singleton, new.index]
  have last : (story.fetch.legs.map Leg.index ++ ([story.fetch.next] ++ story.ends.map LegEnd.index)).Perm
      (story.fetch.legs.map Leg.index ++ (story.ends.map LegEnd.index ++ [story.fetch.next])) :=
    List.perm_append_comm.append_left _
  rw [← List.append_assoc _ _ [story.fetch.next]] at last
  exact last.trans (books.legs.append_right _)

/-- The legs that are left when one of them ends. -/
theorem Books.legEnded_indices (books : Books story) (index : Nat) (ending : WorkEnd (List ForecastDay)) :
    (story.fetch.legEnded index ending).legs.map Leg.index = (story.fetch.legs.map Leg.index).erase index := by
  have nodup : (story.fetch.legs.map Leg.index).Nodup := (List.nodup_append.mp books.nodup).1
  rw [nodup.erase_eq_filter, List.filter_map]
  rfl

/-- The books after a leg has ended. -/
theorem Books.legEnds (books : Books story) {leg : Leg} (member : leg ∈ story.fetch.legs)
    (ending : WorkEnd (List ForecastDay)) :
    Books { story with
      fetch := story.fetch.legEnded leg.index ending
      ends := story.ends ++ [⟨story.clock.now, leg.index, ending⟩] } := by
  refine ⟨?_, ?_, books.left⟩
  · obtain ⟨looked, waiting, ends, arrivals, failures⟩ := books.told
    refine ⟨looked, waiting ++ [⟨story.clock.now, leg.index, ending⟩], ?_, ?_, failures⟩
    · rw [ends, List.append_assoc]
    · rw [List.map_append, arrivals]
      rfl
  · rw [books.legEnded_indices leg.index ending, List.map_append, List.map_singleton, ← List.append_assoc]
    have last : ((story.fetch.legs.map Leg.index).erase leg.index ++ story.ends.map LegEnd.index ++ [leg.index]).Perm
        ([leg.index] ++ ((story.fetch.legs.map Leg.index).erase leg.index ++ story.ends.map LegEnd.index)) :=
      List.perm_append_comm
    have back := (List.perm_cons_erase (List.mem_map_of_mem member : leg.index ∈ story.fetch.legs.map Leg.index)).symm
    exact (last.trans (back.append_right _)).trans books.legs

namespace Walked

variable {story later : Story}

/-- Legs only run while the fetch is undecided. -/
theorem undecided_of_leg (walked : story.Walked) {leg : Leg} (member : leg ∈ story.fetch.legs) :
    story.fetch.result = none := by
  by_contra decided
  rw [walked.closed decided] at member
  contradiction

/-- A timer that has fired does not count again. -/
theorem spent_of_still (walked : story.Walked) {primaryRunning : Bool} {now : Nat}
    (still : primaryRunning = true → story.fetch.primaryRunning = true) (sameTime : now = story.clock.now)
    (spent : story.fired = 1) : primaryRunning = false ∧ story.fetch.timerAt ≤ now := by
  obtain ⟨off, past⟩ := walked.spent spent
  refine ⟨Bool.eq_false_iff.mpr fun running => ?_, sameTime ▸ past⟩
  rw [still running] at off
  contradiction

/-- Nothing is added to a walk by a turn that decides the fetch. -/
theorem close (walked : story.Walked) {fetch : Fetch} {clock : Clock} (next : fetch.next = story.fetch.next)
    (timerAt : fetch.timerAt = story.fetch.timerAt)
    (count : fetch.next = min fetch.size (1 + fetch.failures.length + story.fired))
    (now : clock.now = story.clock.now) (still : fetch.primaryRunning = true → story.fetch.primaryRunning = true)
    (legs : fetch.legs = []) (decided : fetch.result ≠ none) : (story.after fetch clock).Walked := by
  have fired : (story.after fetch clock).fired = story.fired := after_fired_of_decided decided
  have started : (story.after fetch clock).started = story.started := after_started_of_legs (by simp [legs])
  constructor
  · rw [started, after_fetch, next]
    exact walked.started
  · rw [fired]
    exact count
  · rw [fired]
    exact walked.once
  · rw [fired, after_fetch, timerAt]
    exact walked.spent_of_still still now
  · exact walked.called
  · rw [after_fetch, next]
    exact walked.called_started
  · rw [after_fetch, legs]
    exact fun _ => nofun
  · exact fun undecided => absurd undecided decided
  · exact fun _ => legs
  · exact fun undecided => absurd undecided decided
  · intro quick
    unfold QuickPrimary at quick
    rw [after_fetch, timerAt] at quick
    exact next.trans (walked.quick quick)
  · exact walked.ended_once
  · rw [after_fetch, next]
    exact walked.ended_started

/-- The walk goes on by one leg, for which there is a reason. -/
theorem advance (walked : story.Walked) (books : story.Books) {fetch : Fetch} {clock : Clock} {leg : Leg}
    (new : story.fetch.IsNext leg) (legs : fetch.legs = story.fetch.legs ++ [leg])
    (next : fetch.next = story.fetch.next + 1) (undecided : fetch.result = none)
    (told : ∃ looked waiting, story.ends = looked ++ waiting ∧ waiting.map LegEnd.arrival = fetch.arrivals ∧
      looked.map (fun leg => setback? fetch.size leg.index leg.ending) = fetch.failures.map some)
    (timerAt : fetch.timerAt = story.fetch.timerAt) {fired : Nat} (fires : (story.after fetch clock).fired = fired)
    (count : fetch.next = min fetch.size (1 + fetch.failures.length + fired))
    (left : fetch.failures.length < fetch.next) (once : fired ≤ 1)
    (spent : fired = 1 → fetch.primaryRunning = false ∧ fetch.timerAt ≤ clock.now)
    (failed : fired = 0 → 0 ∉ story.fetch.legs.map Leg.index) (slow : ¬ story.QuickPrimary) :
    (story.after fetch clock).Walked := by
  have positive : 0 < story.fetch.next := Nat.zero_lt_of_lt books.left
  constructor
  · rw [after_started_of_new legs, after_fetch, next, walked.started, List.range_succ, new.index]
  · rw [fires]
    exact count
  · rw [fires]
    exact once
  · rw [fires]
    exact spent
  · exact walked.called
  · rw [after_fetch, next]
    exact fun index member => Nat.lt_succ_of_lt (walked.called_started index member)
  · rw [after_fetch, legs]
    intro other member uncalled
    rcases List.mem_append.mp member with old | last
    · exact walked.uncalled other old uncalled
    · rw [List.mem_singleton.mp last, new.index]
      exact fun there => Nat.lt_irrefl _ (walked.called_started _ there)
  · refine fun _ => ⟨told, ?_, left⟩
    rw [after_fetch, legs, next]
    exact books.legs_snoc new
  · exact fun decided => absurd undecided decided
  · rw [after_fetch, legs, List.map_append, fires]
    intro _ unfired first
    rcases List.mem_append.mp first with old | last
    · exact absurd old (failed unfired)
    · have zero : 0 = story.fetch.next := (List.mem_singleton.mp last).trans new.index
      omega
  · intro quick
    unfold QuickPrimary at quick slow
    rw [after_fetch, timerAt] at quick
    exact absurd quick slow
  · exact walked.ended_once
  · rw [after_fetch, next]
    exact fun other member => Nat.lt_succ_of_lt (walked.ended_started other member)

/-- As long as the fetch does not look at its success, the first provider was not quick. -/
theorem slow (walked : story.Walked) (books : story.Books)
    (other : ∀ days, story.fetch.arrivals ≠ [(0, .value days)]) : ¬ story.QuickPrimary := by
  intro quick
  obtain ⟨days, only⟩ := books.arrivals_of_quick quick (walked.quick quick)
  exact other days only

section

variable {index : Nat} {ending : WorkEnd (List ForecastDay)} {rest : List (Nat × WorkEnd (List ForecastDay))}
  {setback : Nat × Failure} {primaryRunning : Bool} {leg : Leg} {clock : Clock}

/-- Another provider is asked in the place of one that failed. -/
theorem replace (walked : story.Walked) (undecided : story.fetch.result = none)
    (arrived : story.fetch.arrivals = (index, ending) :: rest)
    (failed : setback? story.fetch.size index ending = some setback)
    (still : primaryRunning = true → story.fetch.primaryRunning = true) (room : story.fetch.next < story.fetch.size)
    (new : story.fetch.IsNext leg) (now : clock.now = story.clock.now) :
    Walked (story.after { story.fetch with
      primaryRunning, arrivals := rest, failures := story.fetch.failures ++ [setback]
      legs := story.fetch.legs ++ [leg], next := story.fetch.next + 1 } clock) := by
  have books := walked.books undecided
  have count := walked.next
  have told := books.length_ends
  have legs := books.length_legs
  rw [arrived, List.length_cons] at told
  have slow := walked.slow books fun days only => by
    rw [arrived] at only
    cases only
    contradiction
  refine walked.advance books new rfl rfl undecided (books.looked arrived failed) rfl (after_fired_of_arrived arrived)
    ?_ ?_ walked.once (walked.spent_of_still still now) ?_ slow
  · rw [List.length_append, List.length_singleton]
    simp only
    omega
  · rw [List.length_append]
    exact Nat.succ_lt_succ books.left
  · intro never first
    have only := walked.alone undecided never first
    have some : 0 < story.fetch.legs.length := by
      simpa only [List.length_map] using List.length_pos_of_mem first
    omega

/-- A failure is noted while another leg runs. -/
theorem note (walked : story.Walked) (undecided : story.fetch.result = none)
    (arrived : story.fetch.arrivals = (index, ending) :: rest)
    (failed : setback? story.fetch.size index ending = some setback)
    (still : primaryRunning = true → story.fetch.primaryRunning = true) (full : story.fetch.size ≤ story.fetch.next)
    (left : 0 < story.fetch.legs.length + rest.length) (now : clock.now = story.clock.now) :
    Walked (story.after { story.fetch with
      primaryRunning, arrivals := rest, failures := story.fetch.failures ++ [setback] } clock) := by
  have books := walked.books undecided
  have count := walked.next
  have told := books.length_ends
  have legs := books.length_legs
  rw [arrived, List.length_cons] at told
  constructor
  · refine Eq.trans ?_ walked.started
    exact after_started_of_legs (Nat.le_refl _)
  · rw [after_fired_of_arrived arrived, after_fetch, List.length_append, List.length_singleton]
    simp only
    omega
  · rw [after_fired_of_arrived arrived]
    exact walked.once
  · rw [after_fired_of_arrived arrived]
    exact walked.spent_of_still still now
  · exact walked.called
  · exact walked.called_started
  · exact walked.uncalled
  · refine fun _ => ⟨books.looked arrived failed, books.legs, ?_⟩
    rw [after_fetch, List.length_append, List.length_singleton]
    simp only
    omega
  · exact fun decided => absurd undecided decided
  · rw [after_fired_of_arrived arrived]
    exact walked.alone
  · exact walked.quick
  · exact walked.ended_once
  · exact walked.ended_started

/-- The timer fires, for the first time. -/
theorem fire (walked : story.Walked) (undecided : story.fetch.result = none) (idle : story.fetch.arrivals = [])
    (primary : story.fetch.primaryRunning = true) (room : story.fetch.next < story.fetch.size)
    (due : story.fetch.timerAt ≤ story.clock.now) (new : story.fetch.IsNext leg) (now : clock.now = story.clock.now) :
    Walked (story.after { story.fetch with
      primaryRunning := false, legs := story.fetch.legs ++ [leg], next := story.fetch.next + 1 } clock) := by
  have books := walked.books undecided
  have count := walked.next
  have unfired : story.fired = 0 := by
    have once := walked.once
    by_contra before
    obtain ⟨off, _⟩ := walked.spent (by omega)
    rw [primary] at off
    contradiction
  have slow := walked.slow books fun days only => by
    rw [idle] at only
    contradiction
  refine walked.advance books new rfl rfl undecided books.told rfl (after_fired_of_idle idle undecided) ?_
    (Nat.lt_succ_of_lt books.left) (by omega) (fun _ => ⟨rfl, now ▸ due⟩)
    (fun never => absurd never (Nat.succ_ne_zero _)) slow
  simp only
  omega

end

theorem turn (walked : story.Walked) (turn : story.turn? = some later) : later.Walked := by
  obtain ⟨fetch, clock, turned, rfl⟩ := turn?_eq_some_iff.mp turn
  obtain ⟨undecided, turned⟩ := Fetch.turned_of_turn? turned
  have now := turned.ticks.now
  cases turned with
  | cancelled own => exact walked.close rfl rfl walked.next now id rfl (Option.some_ne_none _)
  | expired uncancelled own => exact walked.close rfl rfl walked.next now id rfl (Option.some_ne_none _)
  | decided _ arrived decides still =>
    exact walked.close rfl rfl walked.next now still rfl (Option.some_ne_none _)
  | exhausted _ arrived failed still full none =>
    have count := walked.next
    refine walked.close rfl rfl ?_ now still rfl (Option.some_ne_none _)
    rw [List.length_append]
    simp only
    omega
  | replaced _ arrived failed still room new => exact walked.replace undecided arrived failed still room new now
  | noted _ arrived failed still full left => exact walked.note undecided arrived failed still full left now
  | fired _ idle primary room due new => exact walked.fire undecided idle primary room due new now

/-- The provider of a leg is called for the first time. -/
theorem legBegins (walked : story.Walked) {leg : Leg} (member : leg ∈ story.fetch.legs) (uncalled : leg.call = none)
    (call : Nat) :
    Walked { story with
      fetch := story.fetch.legBegan leg.index call, called := story.called ++ [leg.index] } := by
  have undecided := walked.undecided_of_leg member
  have books := walked.books undecided
  have indices := Fetch.legBegan_indices story.fetch leg.index call
  constructor
  · exact walked.started
  · exact walked.next
  · exact walked.once
  · exact walked.spent
  · rw [List.nodup_append]
    refine ⟨walked.called, by simp, ?_⟩
    rintro index before last there rfl
    obtain rfl := List.mem_singleton.mp there
    exact walked.uncalled leg member uncalled before
  · intro index there
    rcases List.mem_append.mp there with before | last
    · exact walked.called_started index before
    · rw [List.mem_singleton.mp last]
      exact books.lt_next member
  · intro other there still last
    obtain ⟨before, own, rfl⟩ := List.mem_map.mp there
    split at still
    · contradiction
    · next distinct =>
      rw [if_neg distinct] at last
      rcases List.mem_append.mp last with old | new
      · exact walked.uncalled before own still old
      · exact distinct (beq_iff_eq.mpr (List.mem_singleton.mp new))
  · refine fun _ => ⟨books.told, ?_, books.left⟩
    rw [indices]
    exact books.legs
  · exact fun decided => absurd undecided decided
  · rw [indices]
    exact walked.alone
  · exact walked.quick
  · exact walked.ended_once
  · exact walked.ended_started

/-- A first provider that runs before the timer is the only one. -/
theorem alone_of_early (walked : story.Walked) (undecided : story.fetch.result = none)
    (first : 0 ∈ story.fetch.legs.map Leg.index) (early : story.clock.now < story.fetch.timerAt) :
    story.fetch.next = 1 := by
  have once := walked.once
  refine walked.alone undecided ?_ first
  by_contra fired
  obtain ⟨_, past⟩ := walked.spent (by omega)
  exact absurd past (Nat.not_le.mpr early)

/-- A leg that runs ends. -/
theorem legEnds (walked : story.Walked) {leg : Leg} (member : leg ∈ story.fetch.legs)
    (ending : WorkEnd (List ForecastDay)) :
    Walked { story with
      fetch := story.fetch.legEnded leg.index ending
      ends := story.ends ++ [⟨story.clock.now, leg.index, ending⟩] } := by
  have undecided := walked.undecided_of_leg member
  have books := walked.books undecided
  have there : leg.index ∈ story.fetch.legs.map Leg.index := List.mem_map_of_mem member
  constructor
  · exact walked.started
  · exact walked.next
  · exact walked.once
  · exact walked.spent
  · exact walked.called
  · exact walked.called_started
  · exact fun other still => walked.uncalled other (List.mem_filter.mp still).1
  · exact fun _ => books.legEnds member ending
  · exact fun decided => absurd undecided decided
  · rw [books.legEnded_indices leg.index ending]
    exact fun _ unfired first => walked.alone undecided unfired (List.mem_of_mem_erase first)
  · rintro ⟨other, ended, first, success, soon⟩
    rcases List.mem_append.mp ended with before | last
    · exact walked.quick ⟨other, before, first, success, soon⟩
    · obtain rfl := List.mem_singleton.mp last
      exact walked.alone_of_early undecided ((show leg.index = 0 from first) ▸ there) soon
  · rw [List.map_append, List.nodup_append]
    refine ⟨walked.ended_once, by simp, ?_⟩
    rintro index before last own rfl
    exact (List.nodup_append.mp books.nodup).2.2 leg.index there index before (List.mem_singleton.mp own).symm
  · intro other ended
    rcases List.mem_append.mp ended with before | last
    · exact walked.ended_started other before
    · rw [List.mem_singleton.mp last]
      exact books.lt_next member

/-- Time and scopes are nothing to a walk. -/
theorem tick (walked : story.Walked) (clock : Clock) (cancelledAt : Option Nat)
    (now : story.clock.now ≤ clock.now) : Walked { story with clock, cancelledAt } :=
  { walked with
    spent := fun fired => (walked.spent fired).imp_right fun past => Nat.le_trans past now
    books := fun undecided =>
      have books := walked.books undecided
      ⟨books.told, books.legs, books.left⟩
    quick := walked.quick }

theorem step {event : Event} (walked : story.Walked) (step : story.step? event = some later) : later.Walked := by
  cases event with
  | turn => exact walked.turn step
  | legBegins index call =>
    obtain ⟨leg, member, rfl, uncalled, rfl⟩ := step?_legBegins step
    exact walked.legBegins member uncalled call
  | legEnds index ending =>
    obtain ⟨leg, member, rfl, rfl⟩ := step?_legEnds step
    exact walked.legEnds member ending
  | pass instant => cases step; exact walked.tick _ _ (Nat.le_max_left ..)
  | scope parent => cases parent <;> cases step <;> exact walked.tick _ _ (Nat.le_refl _)
  | cancel token => cases step; exact walked.tick _ _ (Nat.le_refl _)

theorem opening (clock : Clock) (size threshold : Nat) (deadline : Deadline) :
    Walked (Story.opening clock size threshold deadline) := by
  unfold Story.opening Fetch.begin
  cases size with
  | zero =>
    constructor
    · rfl
    · rfl
    · exact Nat.zero_le 1
    · exact nofun
    · exact List.nodup_nil
    · exact fun _ => nofun
    · exact fun _ => nofun
    · exact nofun
    · exact fun _ => rfl
    · exact nofun
    · rintro ⟨_, absurd, _⟩
      contradiction
    · exact List.nodup_nil
    · exact fun _ => nofun
  | succ size =>
    constructor
    · rfl
    · exact (Nat.min_eq_right (Nat.le_add_left 1 size)).symm
    · exact Nat.zero_le 1
    · exact nofun
    · exact List.nodup_nil
    · exact fun _ => nofun
    · exact fun _ _ _ => List.not_mem_nil
    · exact fun _ => ⟨⟨[], [], rfl, rfl, rfl⟩, .refl _, Nat.zero_lt_one⟩
    · exact fun decided => absurd rfl decided
    · exact fun _ _ _ => rfl
    · exact fun _ => rfl
    · exact List.nodup_nil
    · exact fun _ => nofun

theorem run {rule : Rule} {clock : Clock} {size threshold : Nat} {deadline : Deadline}
    (run : Run rule (begin clock size threshold deadline) story) : story.Walked :=
  run.invariant (fun _ _ _ walked _ => walked.step) (begin_of_turn (opening ..) fun _ => (opening ..).turn)

end Walked

/-- In what order and how far a fetch walks along a chain of that size with that threshold. -/
structure Walk (story : Story) (size threshold : Nat) : Prop where
  /-- The legs that were started are those of a first part of the chain, one after the other. -/
  started : story.started = List.range story.fetch.next
  next : story.fetch.next = min size (1 + story.fetch.failures.length + story.fired)
  once : story.fired ≤ 1
  called_once : story.called.Nodup
  called_started : ∀ index ∈ story.called, index ∈ story.started
  /-- The failures are the ends of legs that the fetch has looked at. -/
  failed : story.fetch.result = none →
    story.fetch.failures.length + story.fetch.arrivals.length = story.ends.length
  running : story.fetch.result = none →
    story.running = story.fetch.next - story.fetch.failures.length ∧ 1 ≤ story.running ∧ story.running ≤ 2
  /-- When the fetch has looked at everything, all those legs really run. -/
  settled : story.fetch.result = none → story.turn? = none → story.running = story.fetch.legs.length
  alone : ∀ leg ∈ story.ends, leg.index = 0 → (∃ days, leg.ending = .value days) →
    leg.instant < story.begunAt + threshold → story.started = [0]

/-- Whatever providers do and whenever the fetch is stopped, it walks like this. -/
theorem walk_of_run {rule : Rule} {clock : Clock} {size threshold : Nat} {deadline : Deadline} {story : Story}
    (run : Run rule (begin clock size threshold deadline) story) : story.Walk size threshold := by
  have walked := Walked.run run
  have asked := Asked.run run
  have next := walked.next
  have once := walked.once
  rw [asked.size] at next
  constructor
  · exact walked.started
  · exact next
  · exact once
  · exact walked.called
  · rw [walked.started]
    exact fun index member => List.mem_range.mpr (walked.called_started index member)
  · exact fun undecided => (walked.books undecided).length_ends.symm
  · intro undecided
    have running := (walked.books undecided).running
    have left := (walked.books undecided).left
    omega
  · intro undecided settled
    rw [Story.running, (open_of_settled settled undecided).2, List.length_nil, Nat.add_zero]
  · intro leg member first success soon
    rw [asked.begunAt, ← asked.timerAt] at soon
    rw [walked.started, walked.quick ⟨leg, member, first, success, soon⟩]
    rfl

/-- The first provider panics, and the timer fires all the same. -/
def panicking : List Event :=
  [.legBegins 0 0, .legEnds 0 (.panicked ⟨"2", none⟩), .turn, .legBegins 1 1, .pass 10, .turn]

theorem walk_of_run_panicking :
    ∃ story, Run (fun _ _ => True) (begin {} 3 10 ⟨100, ⟨[]⟩⟩) story ∧ story.started = [0, 1, 2] ∧ story.fired = 1 ∧
      story.fetch.failures.length = 1 ∧ story.running = 2 ∧ story.Walk 3 10 := by
  obtain ⟨story, steps, started, fired, failed, running⟩ : ∃ story,
      panicking.foldlM step? (begin {} 3 10 ⟨100, ⟨[]⟩⟩) = some story ∧ story.started = [0, 1, 2] ∧
        story.fired = 1 ∧ story.fetch.failures.length = 1 ∧ story.running = 2 :=
    ⟨_, rfl, rfl, rfl, rfl, rfl⟩
  have run : Run (fun _ _ => True) (begin {} 3 10 ⟨100, ⟨[]⟩⟩) story := .of_events steps
  exact ⟨story, run, started, fired, failed, running, walk_of_run run⟩

end HedgedForecast.Story
