import HedgedForecast.Proofs.Service.Load

/-! # Nothing happens between timers

What a service can do by itself it can do at once, or else not before one of its timers: a state without turns left
stays without turns as long as no timer of its parts is due. So it makes no difference at which other instants one
looks at it.
-/

namespace HedgedForecast

/-- None of the timers becomes due up to the instant. -/
def NoneDue (now instant : Nat) (timers : List Nat) : Prop :=
  ∀ timer ∈ timers, now < timer → instant < timer

theorem Clock.moveTo_now_lt {clock : Clock} {instant timer : Nat} (open_ : clock.now < timer)
    (before : clock.now < timer → instant < timer) : (clock.moveTo instant).now < timer :=
  Nat.max_lt.mpr ⟨open_, before open_⟩

theorem Deadline.verdict_moveTo {α : Type} {deadline : Deadline} {clock : Clock} {instant : Nat} {result : Option α}
    (still : deadline.verdict clock result = none)
    (before : clock.now < deadline.instant → instant < deadline.instant) :
    deadline.verdict (clock.moveTo instant) result = none := by
  obtain ⟨uncancelled, inTime, unfinished⟩ := Deadline.verdict_eq_none_iff.mp still
  exact Deadline.verdict_eq_none_iff.mpr ⟨uncancelled, Clock.moveTo_now_lt inTime before, unfinished⟩

namespace Cache

variable {V : Type} {cache : Cache V} {instant number : Nat}

theorem turnFlight?_moveTo {work : Option (WorkEnd V)} (still : cache.turnFlight? number work = none)
    (none : NoneDue cache.clock.now instant cache.timers) :
    { cache with clock := cache.clock.moveTo instant }.turnFlight? number work = .none := by
  unfold turnFlight? at still ⊢
  cases present : cache.flights[number]? with
  | none => rfl
  | some flight =>
    simp only [present] at still ⊢
    cases phase : flight.phase with
    | queued => simp [phase] at still
    | working deadline =>
      simp only [phase, Option.map_eq_none_iff] at still ⊢
      have timer : deadline.instant ∈ cache.timers := mem_timers.mpr (.inl ⟨number, flight, deadline, present, phase, rfl⟩)
      exact Deadline.verdict_moveTo still (none _ timer)
    | landed result => rfl
    | lost => rfl

theorem turnCall?_moveTo (still : cache.turnCall? number = none)
    (none : NoneDue cache.clock.now instant cache.timers) :
    { cache with clock := cache.clock.moveTo instant }.turnCall? number = .none := by
  unfold turnCall? at still ⊢
  cases present : cache.calls[number]? with
  | none => rfl
  | some call =>
    simp only [present] at still ⊢
    cases phase : call.phase with
    | cold flight =>
      simp only [phase, Option.map_eq_none_iff] at still ⊢
      have timer := mem_timers.mpr (.inr ⟨number, call, present, .inl ⟨flight, phase, rfl⟩⟩)
      exact Deadline.verdict_moveTo still (none _ timer)
    | stale flight soft fallback =>
      simp only [phase, Option.map_eq_none_iff] at still ⊢
      have timer := mem_timers.mpr (.inr ⟨number, call, present, .inr ⟨flight, soft, fallback, phase, rfl⟩⟩)
      exact Deadline.verdict_moveTo still (none _ timer)
    | returned result instant => rfl
    | dropped => rfl

end Cache

theorem ProviderCall.ending?_moveTo {call : ProviderCall} {clock : Clock} {instant : Nat}
    (still : call.ending? clock = none) (own : clock.now < call.dueAt → instant < call.dueAt)
    (deadline : clock.now < call.deadline.instant → instant < call.deadline.instant) :
    call.ending? (clock.moveTo instant) = none := by
  have same : (if call.dueAt ≤ (clock.moveTo instant).now then call.ending else none) =
      if call.dueAt ≤ clock.now then call.ending else none := by
    by_cases due : call.dueAt ≤ clock.now
    · have later : call.dueAt ≤ (clock.moveTo instant).now := Nat.le_trans due (Nat.le_max_left ..)
      rw [if_pos due, if_pos later]
    · have early := Clock.moveTo_now_lt (Nat.lt_of_not_le due) own
      rw [if_neg due, if_neg (Nat.not_le_of_lt early)]
  unfold ending? at still ⊢
  simp only [same] at still ⊢
  split
  · next ignores =>
    rw [if_pos ignores] at still
    exact still
  · next obeys =>
    rw [if_neg obeys, Option.map_eq_none_iff] at still
    rw [Option.map_eq_none_iff]
    exact Deadline.verdict_moveTo still deadline

theorem Fetch.turn?_moveTo {fetch : Fetch} {clock : Clock} {instant : Nat} (still : fetch.turn? clock = none)
    (deadline : clock.now < fetch.deadline.instant → instant < fetch.deadline.instant)
    (timer : clock.now < fetch.timerAt → instant < fetch.timerAt) : fetch.turn? (clock.moveTo instant) = none := by
  rcases Fetch.turn?_eq_none_iff.mp still with decided | ⟨isOpen, idle, early⟩
  · exact Fetch.turn?_eq_none_iff.mpr (.inl decided)
  · refine Fetch.turn?_eq_none_iff.mpr (.inr ⟨⟨isOpen.uncancelled, ?_⟩, idle, ?_⟩)
    · exact Clock.moveTo_now_lt isOpen.inTime deadline
    · simp only [Fetch.timerDue, Bool.and_eq_false_iff, decide_eq_false_iff_not, Nat.not_le] at early ⊢
      rcases early with settled | open_
      · exact .inl settled
      · exact .inr (Clock.moveTo_now_lt open_ timer)

namespace Hedger

variable {hedger : Hedger} {clock : Clock} {instant number : Nat} {run : FetchRun}

theorem beginLeg?_eq_none_iff {leg : Leg} :
    hedger.beginLeg? clock number run leg = none ↔ leg.call.isSome = true ∨ hedger.providers[leg.index]? = none := by
  unfold beginLeg?
  split
  · next called => simp [called]
  · next uncalled =>
    split
    · next provider there => simp [uncalled, there]
    · next absent => simp [absent]

theorem endLeg?_eq_none_iff {leg : Leg} :
    hedger.endLeg? clock number run leg = none ↔
      ∀ place call, leg.call = some place → hedger.calls[place]? = some call → call.ending? clock = none := by
  unfold endLeg?
  cases leg.call with
  | none => simp
  | some place =>
    constructor
    · rintro still _ call ⟨⟩ there
      cases ending : call.ending? clock with
      | none => rfl
      | some ending => simp [there, ending] at still
    · intro still
      cases there : hedger.calls[place]? with
      | none => simp [there]
      | some call => simp [there, still place call rfl there]

/-- A hedger without turns left has none for any of its fetches and legs. -/
theorem turn?_eq_none_iff :
    hedger.turn? clock = none ↔ ∀ number run, hedger.fetches[number]? = some run →
      (∀ leg ∈ run.fetch.legs,
        hedger.beginLeg? clock number run leg = none ∧ hedger.endLeg? clock number run leg = none) ∧
      run.fetch.turn? clock = none := by
  have one (number : Nat) (run : FetchRun) :
      ((hedger.turnLeg? clock number run).map (·, clock)).orElse (fun _ => hedger.turnFetch? clock number run) = none ↔
        (∀ leg ∈ run.fetch.legs,
          hedger.beginLeg? clock number run leg = none ∧ hedger.endLeg? clock number run leg = none) ∧
        run.fetch.turn? clock = none := by
    simp only [turnLeg?, turnFetch?, Option.orElse_eq_or, Option.or_eq_none_iff, Option.map_eq_none_iff,
      List.findSome?_eq_none_iff]
  unfold turn?
  rw [List.findSome?_eq_none_iff]
  constructor
  · intro still number run present
    have inside := (Array.getElem?_eq_some_iff.mp present).1
    have none := still number (List.mem_range.mpr inside)
    simp only [present] at none
    exact (one number run).mp none
  · intro still number _
    cases present : hedger.fetches[number]? with
    | none => rfl
    | some run => exact (one number run).mpr (still number run present)

/-- While a fetch is undecided, its deadline, its timer and the ends of its calls are timers. -/
theorem mem_timers {timer : Nat} (present : hedger.fetches[number]? = some run) (undecided : run.fetch.result = none)
    (own : timer = run.fetch.deadline.instant ∨ timer = run.fetch.timerAt ∨
      ∃ leg ∈ run.fetch.legs, ∃ place call, leg.call = some place ∧ hedger.calls[place]? = some call ∧
        call.dueAt = timer) : timer ∈ hedger.timers := by
  refine List.mem_flatMap.mpr ⟨run, Array.mem_toList_iff.mpr (Array.mem_of_getElem? present), ?_⟩
  simp only [undecided, Option.isSome_none, Bool.false_eq_true, if_false, List.mem_cons, List.mem_filterMap]
  rcases own with deadline | due | ⟨leg, member, place, call, called, there, due⟩
  · exact .inl deadline
  · exact .inr (.inl due)
  · exact .inr (.inr ⟨leg, member, by simp [called, there, due]⟩)

theorem turn?_moveTo (ledger : hedger.Ledger clock) (still : hedger.turn? clock = none)
    (none : NoneDue clock.now instant hedger.timers) : hedger.turn? (clock.moveTo instant) = .none := by
  refine turn?_eq_none_iff.mpr fun number run present => ?_
  obtain ⟨legs, own⟩ := turn?_eq_none_iff.mp still number run present
  constructor
  · intro leg member
    obtain ⟨begins, ends⟩ := legs leg member
    have undecided := ledger.undecided_of_leg present member
    refine ⟨beginLeg?_eq_none_iff.mpr (beginLeg?_eq_none_iff.mp begins),
      endLeg?_eq_none_iff.mpr fun place call called there => ?_⟩
    obtain ⟨call', there', _, deadline⟩ := ledger.running number leg place ⟨run, present, member, called⟩
    obtain rfl := Option.some.inj (there.symm.trans there')
    have instant := ((ledger.within number run present).legs leg member).2
    have due := mem_timers present undecided (.inr (.inr ⟨leg, member, place, call, called, there, rfl⟩))
    have limit := mem_timers present undecided (.inl rfl)
    rw [← instant, ← deadline] at limit
    exact ProviderCall.ending?_moveTo (endLeg?_eq_none_iff.mp ends place call called there) (none _ due) (none _ limit)
  · cases result : run.fetch.result with
    | some decided => exact Fetch.turn?_eq_none_iff.mpr (.inl (by simp [result]))
    | none =>
      exact Fetch.turn?_moveTo own (none _ (mem_timers present result (.inl rfl)))
        (none _ (mem_timers present result (.inr (.inl rfl))))

end Hedger

namespace Service

variable {service : Service} {instant : Nat}

/-- The next turn of any part but the side channel. -/
def turnCore? (service : Service) : Option Service :=
  service.turnHedger? <|> service.turnFlights? <|> service.turnCalls?

/-- When such a turn may become possible. -/
def coreTimers (service : Service) : List Nat :=
  service.cache.timers ++ service.hedger.timers

theorem turn?_eq (service : Service) : service.turn? = service.turnCore?.or service.turnPublisher? := by
  simp only [turn?, turnCore?, Option.orElse_eq_orElse, Option.orElse_eq_or, Option.or_assoc]

theorem turnFlights?_eq_none_iff :
    service.turnFlights? = none ↔ ∀ number < service.cache.flights.size, service.turnFlight? number = none := by
  simp only [turnFlights?, List.findSome?_eq_none_iff, List.mem_range]

theorem turnCalls?_eq_none_iff :
    service.turnCalls? = none ↔ ∀ number < service.cache.calls.size, service.cache.turnCall? number = none := by
  simp only [turnCalls?, Option.map_eq_none_iff, List.findSome?_eq_none_iff, List.mem_range]

theorem turnFlight?_eq_none_iff {number : Nat} :
    service.turnFlight? number = none ↔
      service.cache.turnFlight? number (service.workOf number) = none ∧ service.beginFetch? number = none := by
  unfold turnFlight?
  cases service.cache.turnFlight? number (service.workOf number) <;> simp

/-- Whether a flight can begin its fetch is no matter of time. -/
theorem beginFetch?_withClock {number : Nat} (none : service.beginFetch? number = none) (clock : Clock) :
    (service.withClock clock).beginFetch? number = .none := by
  unfold beginFetch? at none ⊢
  cases present : service.cache.flights[number]? with
  | none => simp [withClock, present]
  | some flight =>
    cases asked : service.requests[number]? with
    | none => simp [withClock, present, asked]
    | some request =>
      cases phase : flight.phase with
      | working deadline =>
        cases known : service.fetchOf.lookup number with
        | none => simp [present, asked, phase, known] at none
        | some fetch => simp [withClock, present, asked, known]
      | queued | landed | lost => simp [withClock, present, asked, phase]

/-- Without turns left, a service has none before its next timer. -/
theorem Sound.turnCore?_moveTo (sound : service.Sound) (still : service.turnCore? = none)
    (none : NoneDue service.clock.now instant service.coreTimers) :
    (service.withClock (service.clock.moveTo instant)).turnCore? = .none := by
  simp only [turnCore?, Option.orElse_eq_orElse, Option.orElse_eq_or, Option.or_eq_none_iff] at still ⊢
  obtain ⟨hedger, flights, calls⟩ := still
  have cacheNone : NoneDue service.cache.clock.now instant service.cache.timers := fun timer member =>
    none timer (List.mem_append_left _ member)
  have hedgerNone : NoneDue service.clock.now instant service.hedger.timers := fun timer member =>
    none timer (List.mem_append_right _ member)
  refine ⟨?_, ?_, ?_⟩
  · exact Option.map_eq_none_iff.mpr (Hedger.turn?_moveTo sound.ledger (Option.map_eq_none_iff.mp hedger) hedgerNone)
  · refine turnFlights?_eq_none_iff.mpr fun number inside => ?_
    obtain ⟨turn, begins⟩ := turnFlight?_eq_none_iff.mp (turnFlights?_eq_none_iff.mp flights number inside)
    exact turnFlight?_eq_none_iff.mpr ⟨Cache.turnFlight?_moveTo turn cacheNone, beginFetch?_withClock begins _⟩
  · exact turnCalls?_eq_none_iff.mpr fun number inside =>
      Cache.turnCall?_moveTo (turnCalls?_eq_none_iff.mp calls number inside) cacheNone

end Service

end HedgedForecast
