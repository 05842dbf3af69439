import HedgedForecast.Proofs.Cache.Changes
import HedgedForecast.Proofs.Simulation
import HedgedForecast.Scenario.Caching

/-! # Scenarios are runs

A scenario lets scripted computations take their course and does what its callers are told to do. Each of
its steps is a run of the cache, in which nobody cancels the scope of a flight: callers cancel their own
deadlines, whose scopes were made for them. So whatever holds of reachable caches holds of the cache of
every scenario.
-/

namespace HedgedForecast

namespace Cache

variable {V : Type}

namespace Outside

variable {cache next : Cache V} {token : Token}

/-- New scopes and flights do not matter, since a new flight has a new scope. -/
theorem keep (outside : cache.Outside token) (issued : cache.clock.scopes.issued ≤ next.clock.scopes.issued)
    (flights : ∀ flight' ∈ next.flights, (∃ flight ∈ cache.flights, flight'.token = flight.token) ∨
      flight'.token = ⟨[cache.clock.scopes.issued]⟩) : next.Outside token := by
  constructor
  · exact fun scope member => Nat.lt_of_lt_of_le (outside.issued scope member) issued
  · intro flight' member
    rcases flights flight' member with ⟨flight, there, same⟩ | fresh
    · rw [same]
      exact outside.noFlight flight there
    · rw [fresh]
      intro same
      have old := outside.issued cache.clock.scopes.issued (List.mem_of_head? same.symm)
      exact Nat.lt_irrefl _ old

theorem congr (outside : cache.Outside token) (issued : cache.clock.scopes.issued ≤ next.clock.scopes.issued)
    (flights : next.flights = cache.flights) : next.Outside token :=
  outside.keep issued fun flight member => .inl ⟨flight, flights ▸ member, rfl⟩

theorem update (outside : cache.Outside token) {number : Nat} {change : Flight V → Flight V}
    (issued : cache.clock.scopes.issued ≤ next.clock.scopes.issued)
    (flights : next.flights = cache.flights.modify number change)
    (own : ∀ flight, (change flight).token = flight.token) : next.Outside token := by
  refine outside.keep issued fun flight' member => ?_
  rw [flights] at member
  obtain ⟨flight, there, rfl | ⟨_, rfl⟩⟩ := mem_modify member
  · exact .inl ⟨flight', there, rfl⟩
  · exact .inl ⟨flight, there, own flight⟩

theorem move {before after : Stage V} (outside : before.1.Outside token) (move : Move before after) :
    after.1.Outside token := by
  cases move with
  | clock => exact outside.congr (Nat.le_succ _) rfl
  | launch policy waiters =>
    refine outside.keep (Nat.le_succ _) fun flight member => ?_
    rcases Array.mem_push.mp member with old | rfl
    · exact .inl ⟨flight, old, rfl⟩
    · exact .inr rfl
  | join live => exact outside.update (Nat.le_refl _) (join_flights ..) fun _ => rfl
  | detach holding => exact outside.update (Nat.le_refl _) (detach_flights ..) fun _ => rfl
  | leave flight => exact outside.update (Nat.le_of_eq (leave_issued ..).symm) (leave_flights ..) fun _ => rfl
  | _ => exact outside.congr (Nat.le_refl _) rfl

theorem moves {target : Cache V} (outside : cache.Outside token) (moves : Moves V (cache, []) (target, [])) :
    target.Outside token :=
  @Moves.invariant V (fun stage => stage.1.Outside token) _ _ moves (fun _ _ => move) outside

/-- A scope outside of the cache stays so, whatever happens. -/
theorem step {event : Event V} (outside : cache.Outside token) (step : cache.step? event = some next) :
    next.Outside token := by
  cases event with
  | begin key policy deadline => cases step; exact outside.moves (begin_moves cache key policy deadline)
  | flight number work =>
    obtain ⟨flight, _, ⟨_, rfl⟩ | ⟨deadline, ending, _, _, rfl⟩⟩ := turnFlight?_eq_some_iff.mp step
    · exact outside.update (Nat.le_refl _) (startFlight_flights ..) fun _ => rfl
    · obtain ⟨clock, _, outcome, flights⟩ := endFlight_frame cache number flight ending
      exact outside.update (Nat.le_of_eq (by rw [clock])) flights fun _ => rfl
  | call number => exact outside.moves (turnCall?_moves step)
  | drop number => cases step; exact outside.moves (dropCall_moves cache number)
  | purge => cases step; exact outside.congr (Nat.le_refl _) rfl
  | remove key => cases step; exact outside.congr (Nat.le_refl _) rfl
  | pass instant => cases step; exact outside.congr (Nat.le_refl _) rfl
  | scope parent => cases parent <;> cases step <;> exact outside.congr (Nat.le_succ _) rfl
  | cancel token => cases step; exact outside.congr (Nat.le_refl _) rfl

end Outside

/-- A call keeps the deadline that it began with. -/
theorem step_deadline {cache next : Cache V} {event : Event V} (step : cache.step? event = some next)
    {call' : Call V} (member : call' ∈ next.calls) :
    (∃ call ∈ cache.calls, call'.deadline = call.deadline) ∨
      ∃ key policy, event = .begin key policy call'.deadline := by
  obtain ⟨number, present⟩ := Array.mem_iff_getElem?.mp member
  cases step_cameFrom step present with
  | same there => exact .inl ⟨call', Array.mem_of_getElem? there, rfl⟩
  | answered there _ same => exact .inl ⟨_, Array.mem_of_getElem? there, by rw [same]⟩
  | dropped there same => exact .inl ⟨_, Array.mem_of_getElem? there, by rw [same]⟩
  | @begun key policy deadline _ _ _ same => exact .inr ⟨key, policy, by rw [same]; rfl⟩

/-- The cache is reached by a run, and its callers brought deadlines of their own. -/
structure Sound (cache : Cache V) : Prop where
  reachable : Reachable Lawful cache
  outside : ∀ call ∈ cache.calls, cache.Outside call.deadline.token

namespace Sound

variable {cache next : Cache V}

theorem empty (maxEntries : Nat) : Sound (Cache.empty maxEntries : Cache V) :=
  ⟨⟨maxEntries, .nil⟩, by simp [Cache.empty]⟩

theorem step (sound : Sound cache) (event : Event V) (lawful : Lawful cache event)
    (own : ∀ key policy deadline, event = .begin key policy deadline → cache.Outside deadline.token)
    (step : cache.step? event = some next) : Sound next := by
  refine ⟨sound.reachable.step lawful step, fun call' member => ?_⟩
  rcases step_deadline step member with ⟨call, there, same⟩ | ⟨key, policy, began⟩
  · rw [same]
    exact (sound.outside call there).step step
  · exact (own key policy call'.deadline began).step step

/-- A scope that was just made is outside of the cache. -/
theorem outside_fresh (sound : Sound cache) :
    Outside { cache with clock := cache.clock.freshToken.2 } cache.clock.freshToken.1 := by
  constructor
  · intro scope member
    obtain rfl := List.mem_singleton.mp member
    exact Nat.lt_succ_self _
  · intro flight member same
    obtain ⟨number, present⟩ := Array.mem_iff_getElem?.mp member
    obtain ⟨scope, issued, token⟩ := sound.reachable.accounted.token number flight present
    rw [token] at same
    obtain rfl := Option.some.inj same
    exact Nat.lt_irrefl _ issued

end Sound

end Cache

open Cache

namespace Workload

variable {V : Type} {workload next : Workload V}

theorem turn?_sound (sound : Sound workload.cache) (turn : workload.turn? = some next) : Sound next.cache := by
  obtain ⟨cache, turned, rfl⟩ := Option.map_eq_some_iff.mp turn
  rw [Option.orElse_eq_orElse, Option.orElse_eq_or] at turned
  rcases Option.or_eq_some_iff.mp turned with flight | ⟨_, call⟩
  · obtain ⟨number, _, found⟩ := List.exists_of_findSome?_eq_some flight
    exact sound.step (.flight number (workload.workOf number)) trivial nofun found
  · obtain ⟨number, _, found⟩ := List.exists_of_findSome?_eq_some call
    exact sound.step (.call number) trivial nofun found

theorem moveTo_sound (sound : Sound workload.cache) (instant : Nat) :
    Sound ((simulation V).moveTo instant workload).cache :=
  sound.step (.pass instant) trivial nofun rfl

theorem begin_sound (sound : Sound workload.cache) (key : String) (policy : Policy) {deadline : Deadline}
    (outside : workload.cache.Outside deadline.token) (script : FactoryScript V) :
    Sound (workload.begin key policy deadline script).2.cache := by
  have began : Sound (workload.cache.begin key policy deadline).2 := by
    refine sound.step (.begin key policy deadline) trivial ?_ rfl
    rintro _ _ _ ⟨⟩
    exact outside
  unfold Workload.begin
  simp only
  generalize workload.cache.begin key policy deadline = begun at began ⊢
  cases turn : begun.2.turnCall? begun.1 with
  | none => exact began
  | some cache =>
    exact began.step (.call _) trivial nofun turn

end Workload

namespace Caching

variable {V : Type} {session : Session (Workload V)}

theorem settle_sound (sound : Sound session.state.cache) : Sound (session.settle (host V)).state.cache :=
  @Simulation.settle_invariant _ (Workload.simulation V) (fun workload => Sound workload.cache)
    (fun _ _ => Workload.turn?_sound) _ _ sound

theorem sleep_sound (sound : Sound session.state.cache) (time : Nat) :
    Sound (session.sleep (host V) time).state.cache :=
  @Simulation.runUntil_invariant _ (Workload.simulation V) (fun workload => Sound workload.cache)
    (fun _ _ => Workload.turn?_sound) (fun _ instant => (Workload.moveTo_sound · instant)) _ _ _ _ sound

theorem waitFor_sound (sound : Sound session.state.cache) (call : Nat) :
    Sound (session.waitFor (host V) call).state.cache :=
  @Simulation.runWhile_invariant _ (Workload.simulation V) (fun workload => Sound workload.cache)
    (fun _ _ => Workload.turn?_sound) (fun _ instant => (Workload.moveTo_sound · instant)) _ _ _ _ sound

/-- The scope of a caller's deadline is made for it and may be cancelled at once. -/
theorem deadline_sound (sound : Sound session.state.cache) (timeout : Nat) (cancelled : Bool) :
    Sound (session.deadline (host V) timeout cancelled).2.state.cache ∧
      (session.deadline (host V) timeout cancelled).2.state.cache.Outside
        (session.deadline (host V) timeout cancelled).1.token := by
  have outside := sound.outside_fresh
  have made : Sound { session.state.cache with clock := session.state.cache.clock.freshToken.2 } :=
    sound.step (.scope none) trivial nofun rfl
  cases cancelled with
  | false => exact ⟨made, outside⟩
  | true =>
    have given : Cache.step? { session.state.cache with clock := session.state.cache.clock.freshToken.2 }
        (.cancel session.state.cache.clock.freshToken.1) = some _ := rfl
    exact ⟨made.step (.cancel _) outside nofun given, outside.step given⟩

theorem begin_sound (sound : Sound session.state.cache) (ask : Ask V) : Sound (begin session ask).2.state.cache := by
  obtain ⟨made, outside⟩ := deadline_sound sound ask.timeout ask.cancelled
  exact Workload.begin_sound made ask.key ask.policy outside ask.script

theorem join_sound (sound : Sound session.state.cache) (id : String) :
    Sound (session.join (host V) id).1.state.cache := by
  unfold Session.join
  split
  · next call _ => exact waitFor_sound sound call
  · exact sound

theorem cancel_sound (sound : Sound session.state.cache) (id : String) :
    Sound (session.cancel (host V) id).state.cache := by
  unfold Session.cancel
  simp only
  split
  · split
    · next call present =>
      have outside := sound.outside call (Array.mem_of_getElem? present)
      exact sound.step (.cancel call.deadline.token) outside nofun rfl
    · exact sound
  · exact sound

theorem drop_sound (sound : Sound session.state.cache) (id : String) :
    Sound (session.drop (host V) id).state.cache := by
  unfold Session.drop
  split
  · next call _ => exact sound.step (.drop call) trivial nofun rfl
  · exact sound

theorem act_sound (sound : Sound session.state.cache) (step : Step V) : Sound (act session step).1.state.cache := by
  cases step with
  | get ask => exact waitFor_sound (begin_sound sound ask) _
  | start id ask => exact begin_sound sound ask
  | join id => exact join_sound sound id
  | cancel id => exact cancel_sound sound id
  | drop id => exact drop_sound sound id
  | sleep time => exact sleep_sound sound time
  | remove key => exact sound.step (.remove key) trivial nofun rfl
  | purge => exact sound.step .purge trivial nofun rfl

theorem steps_sound (script : List (Step V)) (sound : Sound session.state.cache) :
    Sound (steps session script).1.state.cache := by
  induction script generalizing session with
  | nil => exact sound
  | cons first rest ih => exact ih (settle_sound (act_sound sound first))

/-- The cache of every scenario is reached by a run. -/
theorem reachable_run (maxEntries : Nat) (script : List (Step V)) :
    Cache.Reachable Lawful (run maxEntries script).2 :=
  (steps_sound script (Sound.empty maxEntries)).reachable

end Caching

end HedgedForecast
