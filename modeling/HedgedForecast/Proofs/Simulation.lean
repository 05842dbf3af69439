import HedgedForecast.Clock.Simulation
import Mathlib.Data.List.Induction

/-! # What timed systems keep and how they come to rest

What is kept by each turn, and by each move of time where time moves, is kept by running the system. A system whose
turns all lower a rank comes to rest with that much fuel, and if it never waits in vain, what is waited for comes.
-/

namespace HedgedForecast

section Events

variable {σ ε : Type} {step : σ → ε → Option σ} {source state next : σ} {events : List ε} {event : ε}

theorem foldlM_snoc : (events ++ [event]).foldlM step source = some next ↔
    ∃ state, events.foldlM step source = some state ∧ step state event = some next := by
  rw [List.foldlM_append]
  simp [Option.bind_eq_some_iff]

/-- What holds at the start and is kept by every event holds of the events and of the state they lead to. -/
@[elab_as_elim]
theorem foldlM_induction {property : List ε → σ → Prop} (initial : property [] source)
    (kept : ∀ events state event next, events.foldlM step source = some state → property events state →
      step state event = some next → property (events ++ [event]) next)
    (steps : events.foldlM step source = some state) : property events state := by
  induction events using List.reverseRecOn generalizing state with
  | nil => cases steps; exact initial
  | append_singleton events event ih =>
    obtain ⟨middle, before, own⟩ := foldlM_snoc.mp steps
    exact kept events middle event state before (ih before) own

end Events

namespace Simulation

variable {σ : Type} {simulation : Simulation σ}

section

variable {property : σ → Prop}
  (turned : ∀ state next, property state → simulation.turn state = some next → property next)
  (moved : ∀ state instant, property state → property (simulation.moveTo instant state))

include turned in
theorem settle_invariant (fuel : Nat) {state : σ} (initial : property state) :
    property (simulation.settle fuel state) := by
  induction fuel generalizing state with
  | zero => exact initial
  | succ fuel ih =>
    unfold settle
    split
    · next next turn => exact ih (turned state next initial turn)
    · exact initial

include turned moved

theorem runWhile_invariant (turns : Nat) (waiting : σ → Bool) (fuel : Nat) {state : σ} (initial : property state) :
    property (simulation.runWhile turns waiting fuel state) := by
  induction fuel generalizing state with
  | zero => exact initial
  | succ fuel ih =>
    have settled := settle_invariant turned turns initial
    unfold runWhile
    simp only
    split
    · split
      · next instant _ => exact ih (moved _ instant settled)
      · exact settled
    · exact settled

theorem runUntil_invariant (turns instant fuel : Nat) {state : σ} (initial : property state) :
    property (simulation.runUntil turns instant fuel state) := by
  induction fuel generalizing state with
  | zero => exact initial
  | succ fuel ih =>
    have settled := settle_invariant turned turns initial
    have last := settle_invariant turned turns (moved _ instant settled)
    unfold runUntil
    simp only
    split
    · next timer _ =>
      split
      · exact ih (moved _ timer settled)
      · exact last
    · exact last

end

/-- Every turn lowers the rank, and time leaves it alone. -/
structure Ranked (simulation : Simulation σ) (sound : σ → Prop) (rank : σ → Nat) : Prop where
  turned : ∀ state next, sound state → simulation.turn state = some next → sound next ∧ rank next < rank state
  moved : ∀ state instant, sound state →
    sound (simulation.moveTo instant state) ∧ rank (simulation.moveTo instant state) = rank state

/-- As long as something is waited for, the system can make a turn when its next timer is due. -/
def Goes (simulation : Simulation σ) (sound : σ → Prop) (waiting : σ → Bool) : Prop :=
  ∀ state, sound state → simulation.isSettled state = true → waiting state = true →
    ∃ instant, simulation.nextTimer state = some instant ∧
      simulation.isSettled (simulation.moveTo instant state) = false

namespace Ranked

variable {sound : σ → Prop} {rank : σ → Nat} {state : σ} (ranked : Ranked simulation sound rank)

include ranked

theorem sound_settle (fuel : Nat) (ok : sound state) : sound (simulation.settle fuel state) :=
  settle_invariant (fun state next ok turn => (ranked.turned state next ok turn).1) fuel ok

theorem rank_settle_le (fuel : Nat) (ok : sound state) : rank (simulation.settle fuel state) ≤ rank state := by
  induction fuel generalizing state with
  | zero => exact Nat.le_refl _
  | succ fuel ih =>
    unfold settle
    split
    · next next turn =>
      obtain ⟨kept, lower⟩ := ranked.turned state next ok turn
      exact Nat.le_trans (ih kept) (Nat.le_of_lt lower)
    · exact Nat.le_refl _

theorem isSettled_settle {fuel : Nat} (ok : sound state) (most : rank state ≤ fuel) :
    simulation.isSettled (simulation.settle fuel state) = true := by
  induction fuel generalizing state with
  | zero =>
    unfold settle isSettled
    cases turn : simulation.turn state with
    | none => rfl
    | some next =>
      have lower := (ranked.turned state next ok turn).2
      omega
  | succ fuel ih =>
    unfold settle
    split
    · next next turn =>
      obtain ⟨kept, lower⟩ := ranked.turned state next ok turn
      exact ih kept (by omega)
    · next still => rw [isSettled, still]; rfl

theorem rank_settle_lt (fuel : Nat) (ok : sound state) (busy : simulation.isSettled state = false) :
    rank (simulation.settle (fuel + 1) state) < rank state := by
  unfold settle
  split
  · next next turn =>
    obtain ⟨kept, lower⟩ := ranked.turned state next ok turn
    exact Nat.lt_of_le_of_lt (ranked.rank_settle_le fuel kept) lower
  · next still => simp [isSettled, still] at busy

/-- What is waited for comes if there is as much fuel as the rank says. -/
theorem runWhile_ends {waiting : σ → Bool} (goes : Goes simulation sound waiting) {turns fuel : Nat} (ok : sound state)
    (enough : rank state < turns)
    (plenty : rank state < fuel ∨ rank state ≤ fuel ∧ simulation.isSettled state = false) :
    waiting (simulation.runWhile turns waiting fuel state) = false := by
  induction fuel generalizing state with
  | zero =>
    rcases plenty with absurd | ⟨none, busy⟩
    · omega
    · have lower := ranked.rank_settle_lt 0 ok busy
      omega
  | succ fuel ih =>
    have settled := ranked.isSettled_settle ok (Nat.le_of_lt enough)
    have kept := ranked.sound_settle turns ok
    have lower : rank (simulation.settle turns state) ≤ fuel := by
      rcases plenty with more | ⟨most, busy⟩
      · have := ranked.rank_settle_le turns ok
        omega
      · obtain ⟨turns, rfl⟩ : ∃ less, turns = less + 1 := ⟨turns - 1, by omega⟩
        have := ranked.rank_settle_lt turns ok busy
        omega
    unfold runWhile
    simp only
    split
    · next waits =>
      obtain ⟨instant, timer, busy⟩ := goes _ kept settled waits
      obtain ⟨ok', same⟩ := ranked.moved _ instant kept
      have := ranked.rank_settle_le turns ok
      rw [timer]
      exact ih ok' (by omega) (.inr ⟨by omega, busy⟩)
    · next done => simpa using done

/-- What is kept by each turn, and by moving a settled system to its next timer while it waits, is kept by running it
with as much fuel as the rank says. -/
theorem runWhile_kept {property : σ → Prop} {waiting : σ → Bool}
    (turned : ∀ state next, property state → simulation.turn state = some next → property next)
    (moved : ∀ state instant, property state → simulation.isSettled state = true → waiting state = true →
      simulation.nextTimer state = some instant → property (simulation.moveTo instant state))
    {turns fuel : Nat} (ok : sound state) (enough : rank state ≤ turns) (initial : property state) :
    property (simulation.runWhile turns waiting fuel state) := by
  induction fuel generalizing state with
  | zero => exact initial
  | succ fuel ih =>
    have settled := ranked.isSettled_settle ok enough
    have kept := ranked.sound_settle turns ok
    have least := ranked.rank_settle_le turns ok
    have rested := settle_invariant turned turns initial
    unfold runWhile
    simp only
    split
    · next waits =>
      split
      · next instant timer =>
        obtain ⟨ok', same⟩ := ranked.moved _ instant kept
        exact ih ok' (by omega) (moved _ instant rested settled waits timer)
      · exact rested
    · exact rested

end Ranked

/-- The turns at one instant lead from one state to the other, in which none can be made. -/
inductive Settles (simulation : Simulation σ) : σ → σ → Prop
  | still {state : σ} (still : simulation.turn state = none) : Settles simulation state state
  | turn {state next last : σ} (turn : simulation.turn state = some next) (rest : Settles simulation next last) :
      Settles simulation state last

/-- Time moves on to the instant, from timer to timer, and everything happens that happens on the way. -/
inductive Reaches (simulation : Simulation σ) (instant : Nat) : σ → σ → Prop
  | timer {state still last : σ} {due : Nat} (settles : simulation.Settles state still)
      (timer : simulation.nextTimer still = some due) (inTime : due ≤ instant)
      (rest : Reaches simulation instant (simulation.moveTo due still) last) : Reaches simulation instant state last
  | last {state still last : σ} (settles : simulation.Settles state still)
      (far : ∀ due, simulation.nextTimer still = some due → instant < due)
      (settles' : simulation.Settles (simulation.moveTo instant still) last) : Reaches simulation instant state last

section

variable {state first second : σ} {instant : Nat}

theorem Settles.turn_eq_none (settles : simulation.Settles state first) : simulation.turn first = none := by
  induction settles with
  | still still => exact still
  | turn _ _ ih => exact ih

/-- What every turn keeps is kept until no turn can be made. -/
theorem Settles.invariant {property : σ → Prop} (settles : simulation.Settles state first)
    (turned : ∀ state next, property state → simulation.turn state = some next → property next)
    (initial : property state) : property first := by
  induction settles with
  | still => exact initial
  | turn turn _ ih => exact ih (turned _ _ initial turn)

/-- Time moves only when no turn can be made, and not beyond the next timer. -/
theorem Reaches.invariant {property : σ → Prop} (reaches : simulation.Reaches instant state first)
    (turned : ∀ state next, property state → simulation.turn state = some next → property next)
    (moved : ∀ state instant, property state → simulation.turn state = none →
      (∀ due, simulation.nextTimer state = some due → instant ≤ due) → property (simulation.moveTo instant state))
    (initial : property state) : property first := by
  induction reaches with
  | @timer state still last due settles timer _ _ ih =>
    have near : ∀ other, simulation.nextTimer still = some other → due ≤ other :=
      fun other own => Nat.le_of_eq (Option.some.inj (timer.symm.trans own))
    exact ih (moved _ _ (settles.invariant turned initial) settles.turn_eq_none near)
  | @last state still last settles far settled =>
    have near : ∀ other, simulation.nextTimer still = some other → instant ≤ other :=
      fun other own => Nat.le_of_lt (far other own)
    exact settled.invariant turned (moved _ _ (settles.invariant turned initial) settles.turn_eq_none near)

theorem Settles.trans (settles : simulation.Settles state first) (settles' : simulation.Settles first second) :
    simulation.Settles state second := by
  induction settles with
  | still => exact settles'
  | turn turn _ ih => exact .turn turn (ih settles')

theorem Settles.reaches (settles : simulation.Settles state first) (reaches : simulation.Reaches instant first second) :
    simulation.Reaches instant state second := by
  cases reaches with
  | timer settles' timer inTime rest => exact .timer (settles.trans settles') timer inTime rest
  | last settles' far settled => exact .last (settles.trans settles') far settled

theorem Settles.unique (settles : simulation.Settles state first) (settles' : simulation.Settles state second) :
    first = second := by
  induction settles with
  | still still =>
    cases settles' with
    | still => rfl
    | turn turn => exact absurd (still.symm.trans turn) nofun
  | turn turn _ ih =>
    cases settles' with
    | still still => exact absurd (still.symm.trans turn) nofun
    | turn turn' rest =>
      cases turn.symm.trans turn'
      exact ih rest

theorem Reaches.unique (reaches : simulation.Reaches instant state first)
    (reaches' : simulation.Reaches instant state second) : first = second := by
  induction reaches with
  | timer settles timer inTime _ ih =>
    cases reaches' with
    | timer settles' timer' _ rest =>
      obtain rfl := settles.unique settles'
      cases timer.symm.trans timer'
      exact ih rest
    | last settles' far =>
      obtain rfl := settles.unique settles'
      exact absurd (far _ timer) (Nat.not_lt_of_le inTime)
  | last settles far settled =>
    cases reaches' with
    | timer settles' timer inTime =>
      obtain rfl := settles.unique settles'
      exact absurd (far _ timer) (Nat.not_lt_of_le inTime)
    | last settles' _ settled' =>
      obtain rfl := settles.unique settles'
      exact settled.unique settled'

/-- What settles with some fuel settles. -/
theorem settles_of_isSettled (turns : Nat) (settled : simulation.isSettled (simulation.settle turns state) = true) :
    simulation.Settles state (simulation.settle turns state) := by
  induction turns generalizing state with
  | zero => exact .still (Option.isNone_iff_eq_none.mp settled)
  | succ turns ih =>
    unfold settle at settled ⊢
    split
    · next next turn =>
      rw [turn] at settled
      exact .turn turn (ih settled)
    · next still => exact .still still

/-- With enough fuel, settling leads where there is none needed. -/
theorem Settles.settle (settles : simulation.Settles state first) :
    ∃ enough, ∀ turns, enough ≤ turns → simulation.settle turns state = first := by
  induction settles with
  | @still state still =>
    refine ⟨0, fun turns _ => ?_⟩
    cases turns with
    | zero => rfl
    | succ turns => rw [Simulation.settle, still]
  | turn turn _ ih =>
    obtain ⟨enough, same⟩ := ih
    refine ⟨enough + 1, fun turns more => ?_⟩
    obtain ⟨turns, rfl⟩ : ∃ less, turns = less + 1 := ⟨turns - 1, by omega⟩
    rw [Simulation.settle, turn]
    exact same turns (by omega)

/-- With enough fuel, running up to an instant leads where there is none needed. -/
theorem Reaches.runUntil (reaches : simulation.Reaches instant state first) :
    ∃ enough, ∀ turns fuel, enough ≤ turns → enough ≤ fuel → simulation.runUntil turns instant fuel state = first := by
  induction reaches with
  | timer settles timer inTime _ ih =>
    obtain ⟨turns₀, settled⟩ := settles.settle
    obtain ⟨enough, same⟩ := ih
    refine ⟨max turns₀ enough + 1, fun turns fuel plenty more => ?_⟩
    obtain ⟨fuel, rfl⟩ : ∃ less, fuel = less + 1 := ⟨fuel - 1, by omega⟩
    simp only [Simulation.runUntil, settled turns (by omega), timer, if_pos inTime]
    exact same turns fuel (by omega) (by omega)
  | @last state still first settles far settled =>
    obtain ⟨turns₀, settled₀⟩ := settles.settle
    obtain ⟨turns₁, settled₁⟩ := settled.settle
    refine ⟨max turns₀ turns₁ + 1, fun turns fuel plenty more => ?_⟩
    obtain ⟨fuel, rfl⟩ : ∃ less, fuel = less + 1 := ⟨fuel - 1, by omega⟩
    simp only [Simulation.runUntil, settled₀ turns (by omega)]
    cases timer : simulation.nextTimer still with
    | none => exact settled₁ turns (by omega)
    | some due =>
      have late : ¬ due ≤ instant := Nat.not_le_of_lt (far due timer)
      simp only [if_neg late]
      exact settled₁ turns (by omega)

end

end Simulation

variable {now instant : Nat} {instants : List Nat}

theorem earliestAfter_eq_some_iff :
    earliestAfter now instants = some instant ↔
      (instant ∈ instants ∧ now < instant) ∧ ∀ other ∈ instants, now < other → instant ≤ other := by
  simp only [earliestAfter, List.min?_eq_some_iff, List.mem_filter, decide_eq_true_eq, and_imp]

theorem earliestAfter_eq_none_iff :
    earliestAfter now instants = none ↔ ∀ other ∈ instants, other ≤ now := by
  simp only [earliestAfter, List.min?_eq_none_iff, List.filter_eq_nil_iff, decide_eq_true_eq, Nat.not_lt]

theorem earliestAfter_of_mem (member : instant ∈ instants) (later : now < instant) :
    ∃ first, earliestAfter now instants = some first ∧ first ≤ instant := by
  cases earliest : earliestAfter now instants with
  | some first => exact ⟨first, rfl, (earliestAfter_eq_some_iff.mp earliest).2 instant member later⟩
  | none => exact absurd later (Nat.not_lt_of_le (earliestAfter_eq_none_iff.mp earliest instant member))

/-- Without anything in between, it is the same whether one looks now or later. -/
theorem earliestAfter_of_none_between {later : Nat} (after : now ≤ later)
    (none : ∀ other ∈ instants, now < other → later < other) :
    earliestAfter later instants = earliestAfter now instants := by
  have same : instants.filter (later < ·) = instants.filter (now < ·) := by
    refine List.filter_congr fun other member => ?_
    simp only [decide_eq_decide]
    exact ⟨Nat.lt_of_le_of_lt after, none other member⟩
  rw [earliestAfter, same, earliestAfter]

end HedgedForecast
