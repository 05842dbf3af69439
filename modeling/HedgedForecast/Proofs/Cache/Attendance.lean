import HedgedForecast.Proofs.Cache.Changes
import HedgedForecast.Proofs.Cache.Failures

/-! # Flights and those who need them

The count of a flight is right at any time, and who is counted still has time and did not give up, or can
take the turn by which the call ends. A flight that needs its callers is stopped when the last of them
leaves, and by nothing else. A flight that needs nobody, because it was started in the background or
because somebody with a stale value no longer waited for it, is not stopped by leaving callers any more.
-/

namespace HedgedForecast

variable {V : Type}

/-- The flight goes on alone if it was started in the background, and it works under its own scope. -/
structure Flight.Regular (flight : Flight V) : Prop where
  background : flight.trigger ≠ .cold → flight.detached = true
  own : ∀ deadline, flight.phase = .working deadline → deadline.token = flight.token

/-- The call waits under a deadline within its own, and with a stale value no longer than its policy says. -/
structure Call.Patient (call : Call V) : Prop where
  within : ∀ flight soft fallback, call.phase = .stale flight soft fallback →
    ∀ scope ∈ call.deadline.token.lineage, scope ∈ soft.token.lineage
  instant : ∀ flight soft fallback, call.phase = .stale flight soft fallback →
    soft.instant = min call.deadline.instant (call.begunAt + call.policy.softTimeout)

namespace Flight

variable {flight later : Flight V}

theorem LaunchedBy.regular {key : String} {policy : Policy} {instant : Nat}
    (launched : flight.LaunchedBy key policy instant) : flight.Regular := by
  refine ⟨launched.background, fun deadline working => ?_⟩
  rw [launched.phase] at working
  contradiction

theorem Regular.rebooked (regular : flight.Regular) (rebooked : later.Rebooked flight) : later.Regular := by
  have same := rebooked.same
  constructor
  · intro background
    rw [same] at background
    exact rebooked.detached (regular.background background)
  · intro deadline working
    rw [same] at working ⊢
    exact regular.own deadline working

theorem Regular.turned {clock : Clock} {work : Option (WorkEnd V)} (regular : flight.Regular)
    (turned : flight.Turned clock work later) : later.Regular := by
  cases turned with
  | started queued own =>
    refine ⟨regular.background, fun deadline working => ?_⟩
    cases working
    exact own
  | @ended _ ending _ working verdict =>
    refine ⟨regular.background, fun deadline still => ?_⟩
    rcases flight.endPhase_cases ending with lost | ⟨result, landed⟩
    · rw [lost] at still
      contradiction
    · rw [landed] at still
      contradiction

end Flight

namespace Cache

variable {cache next : Cache V} {number : Nat} {flight : Flight V}

theorem Reachable.regular {rule : Rule V} (reachable : Reachable rule cache)
    (present : cache.flights[number]? = some flight) : flight.Regular :=
  reachable.forall_flights (fun _ _ _ _ => Flight.LaunchedBy.regular) (fun _ _ => Flight.Regular.rebooked)
    (fun _ _ _ _ => Flight.Regular.turned) number flight present

theorem Reachable.patient {rule : Rule V} (reachable : Reachable rule cache) {call : Call V}
    (present : cache.calls[number]? = some call) : call.Patient := by
  refine reachable.forall_calls ?_ (fun _ _ _ _ => ⟨nofun, nofun⟩) (fun _ _ => ⟨nofun, nofun⟩) number call present
  intro cache next key policy deadline phase opens
  cases opens with
  | fresh => exact ⟨nofun, nofun⟩
  | stale => exact ⟨nofun, nofun⟩
  | cold => exact ⟨nofun, nofun⟩
  | @softly entry flight clock _ _ _ _ _ sameTime =>
    constructor
    · rintro _ _ _ ⟨⟩
      exact fun scope member => List.mem_cons_of_mem _ member
    · rintro _ _ _ ⟨⟩
      simp only [Deadline.tighten, Clock.childToken, sameTime, opening]

/-- A caller who gave up or has no time left can take the turn by which the call ends. -/
theorem heeds {call : Call V} (patient : call.Patient) (present : cache.calls[number]? = some call)
    {other : Nat} (waits : call.flight? = some other)
    (overdue : call.deadline.isCancelled cache.clock = true ∨ call.deadline.instant ≤ cache.clock.now) :
    cache.turnCall? number ≠ none := by
  rw [Ne, turnCall?_eq_none_iff present]
  cases phase : call.phase with
  | cold flight =>
    simp only [answer?, phase, Option.map_eq_none_iff, Deadline.verdict_eq_none_iff]
    rintro ⟨uncancelled, inTime, _⟩
    rcases overdue with cancelled | late
    · rw [uncancelled] at cancelled
      contradiction
    · omega
  | stale flight soft fallback =>
    simp only [answer?, phase, Option.map_eq_none_iff, Deadline.verdict_eq_none_iff]
    rintro ⟨uncancelled, inTime, _⟩
    rcases overdue with cancelled | late
    · obtain ⟨scope, own, member⟩ := (Scopes.isCancelled_iff ..).mp cancelled
      have also : soft.isCancelled cache.clock = true :=
        (Scopes.isCancelled_iff ..).mpr ⟨scope, patient.within flight soft fallback phase scope own, member⟩
      rw [uncancelled] at also
      contradiction
    · have instant := patient.instant flight soft fallback phase
      omega
  | returned result instant => simp [Call.flight?, phase] at waits
  | dropped => simp [Call.flight?, phase] at waits

theorem exists_waiting {other : Nat} (positive : 0 < cache.waiting other) :
    ∃ (number : Nat) (call : Call V), cache.calls[number]? = some call ∧ call.flight? = some other := by
  obtain ⟨call, member, waits⟩ := Array.countP_pos_iff.mp positive
  obtain ⟨number, present⟩ := Array.mem_iff_getElem?.mp member
  exact ⟨number, call, present, by simpa using waits⟩

/-- A flight that needs nobody stays so. -/
theorem detached_step {event : Event V} (step : cache.step? event = some next)
    (present : cache.flights[number]? = some flight) (detached : flight.detached = true) :
    ∃ later, next.flights[number]? = some later ∧ later.detached = true := by
  obtain ⟨later, there, kept | ⟨work, _, turned⟩⟩ := step_flights step present
  · exact ⟨later, there, kept.detached detached⟩
  · refine ⟨later, there, ?_⟩
    cases turned <;> exact detached

/-- A flight that is cancelled by an event had one caller left, who ends or goes away by it. -/
theorem cancelledBy {event : Event V} (accounted : Accounted cache []) (lawful : Lawful cache event)
    (step : cache.step? event = some next) (present : cache.flights[number]? = some flight)
    (before : cache.clock.isCancelled flight.token = false) (after : next.clock.isCancelled flight.token = true) :
    flight.detached = false ∧ ∃ last, (event = .call last ∨ event = .drop last) ∧
      ∀ (other : Nat) (call : Call V), cache.calls[other]? = some call →
        (call.flight? = some number ↔ other = last) := by
  obtain ⟨later, there, follows⟩ := (Extends.step step).flights number flight present
  have counted := (accounted.step lawful step).waiters number later there
  have ended := (accounted.step lawful step).cancelled_iff number later there
  rw [follows.token, after] at ended
  obtain ⟨attached, nobody⟩ := ended.mp rfl
  rw [nobody] at counted
  have only (other : Nat) (call : Call V) (waiting : cache.calls[other]? = some call)
      (waits : call.flight? = some number) : event = .call other ∨ event = .drop other := by
    by_contra neither
    obtain ⟨turn, drop⟩ := not_or.mp neither
    have positive := waiting_pos (step_calls step turn drop waiting) waits
    omega
  have stillAttached : flight.detached = false := by
    by_contra detached
    obtain ⟨later', there', still⟩ := detached_step step present (by simpa using detached)
    obtain rfl := Option.some.inj (there.symm.trans there')
    rw [still] at attached
    contradiction
  have somebody : 0 < cache.waiting number := by
    have open' := accounted.cancelled_iff number flight present
    have books := accounted.waiters number flight present
    rw [before, stillAttached] at open'
    by_contra none
    have zero : flight.waiters = 0 := by simp only [List.count_nil] at books; omega
    exact absurd (open'.mpr ⟨rfl, zero⟩) (by simp)
  obtain ⟨last, call, waiting, waits⟩ := exists_waiting somebody
  have about := only last call waiting waits
  refine ⟨stillAttached, last, about, fun other call' waiting' => ⟨fun waits' => ?_, ?_⟩⟩
  · have about' := only other call' waiting' waits'
    rcases about with rfl | rfl
    · rcases about' with same | same
      · cases same; rfl
      · contradiction
    · rcases about' with same | same
      · contradiction
      · cases same; rfl
  · rintro rfl
    obtain rfl := Option.some.inj (waiting.symm.trans waiting')
    exact waits

/-- A caller who takes a stale value because the soft timeout is over leaves a flight that needs nobody. -/
theorem detached_of_soft {caller : Nat} {call : Call V} {soft : Deadline} {fallback : V}
    (waiting : cache.calls[caller]? = some call) (phase : call.phase = .stale number soft fallback)
    (uncancelled : soft.isCancelled cache.clock = false) (overdue : soft.instant ≤ cache.clock.now)
    (turn : cache.turnCall? caller = some next) (present : cache.flights[number]? = some flight) :
    ∃ later, next.flights[number]? = some later ∧ later.detached = true := by
  have expired : soft.verdict cache.clock (cache.resultOf number) = some .expired := by
    simp [Deadline.verdict, uncancelled, Deadline.isExpired, overdue]
  have ended : next = cache.endStale caller call number fallback (.error (.timeout .request)) := by
    simp only [turnCall?, waiting, phase, expired, Option.map_some, Option.some.injEq] at turn
    exact turn.symm
  have left : next = ((cache.returnCall caller (.ok fallback)).detach number).leave number := by
    rw [ended, endStale_eq]
    rfl
  rw [left, leave_flights, detach_flights]
  have detached := getElem?_modify_self (fun flight : Flight V => { flight with detached := true }) present
  exact ⟨_, getElem?_modify_self _ detached, rfl⟩

theorem detached_run {rule : Rule V} {later : Cache V} (run : Run rule cache later)
    (present : cache.flights[number]? = some flight) (detached : flight.detached = true) :
    ∃ flight', later.flights[number]? = some flight' ∧ flight'.detached = true := by
  induction run with
  | nil => exact ⟨flight, present, detached⟩
  | snoc _ _ step ih =>
    obtain ⟨flight', there, still⟩ := ih
    exact detached_step step there still

/-- How a flight and those who wait for it belong together. -/
structure Attended (cache : Cache V) (number : Nat) (flight : Flight V) : Prop where
  counted : flight.waiters = cache.waiting number
  cancelled_iff : cache.clock.isCancelled flight.token = true ↔
    flight.detached = false ∧ cache.waiting number = 0
  /-- Whoever is counted still has time and did not give up, or can end at once. -/
  heeds : ∀ (caller : Nat) (call : Call V), cache.calls[caller]? = some call → call.flight? = some number →
    call.deadline.isCancelled cache.clock = true ∨ call.deadline.instant ≤ cache.clock.now →
    cache.turnCall? caller ≠ none
  /-- With nobody left the computation of an attached flight is stopped, whatever it has come to. -/
  stopped : flight.detached = false → cache.waiting number = 0 → ∀ deadline, flight.phase = .working deadline →
    ∀ work : Option (WorkEnd V), deadline.verdict cache.clock work = some .cancelled
  needed : cache.Settled → flight.isRunning = true → flight.detached = false → 0 < cache.waiting number
  wanted : 0 < cache.waiting number → cache.clock.isCancelled flight.token = false
  background : flight.trigger ≠ .cold → flight.detached = true
  softened : ∀ (caller : Nat) (call : Call V) (soft : Deadline) (fallback : V) (next : Cache V),
    cache.calls[caller]? = some call → call.phase = .stale number soft fallback →
    soft.isCancelled cache.clock = false → soft.instant ≤ cache.clock.now → cache.turnCall? caller = some next →
    ∃ later, next.flights[number]? = some later ∧ later.detached = true
  /-- A flight that needs nobody is not cancelled any more. -/
  lasting : flight.detached = true → ∀ later, Run Lawful cache later →
    ∃ flight', later.flights[number]? = some flight' ∧ flight'.detached = true ∧
      later.clock.isCancelled flight'.token = false
  /-- Only the last caller's leaving cancels a flight. -/
  cancelledBy : ∀ event next, Lawful cache event → cache.step? event = some next →
    cache.clock.isCancelled flight.token = false → next.clock.isCancelled flight.token = true →
    flight.detached = false ∧ ∃ last, (event = .call last ∨ event = .drop last) ∧
      ∀ (other : Nat) (call : Call V), cache.calls[other]? = some call →
        (call.flight? = some number ↔ other = last)

/-- In every reachable cache flights are attended. -/
theorem attended_of_reachable (reachable : Reachable Lawful cache) (present : cache.flights[number]? = some flight) :
    cache.Attended number flight := by
  have accounted := reachable.accounted
  have regular := reachable.regular present
  have counted : flight.waiters = cache.waiting number := accounted.waiters number flight present
  have cancelled_iff : cache.clock.isCancelled flight.token = true ↔
      flight.detached = false ∧ cache.waiting number = 0 :=
    counted ▸ accounted.cancelled_iff number flight present
  have stopped (attached : flight.detached = false) (nobody : cache.waiting number = 0) (deadline : Deadline)
      (working : flight.phase = .working deadline) (work : Option (WorkEnd V)) :
      deadline.verdict cache.clock work = some .cancelled := by
    have cancelled : deadline.isCancelled cache.clock = true := by
      rw [Deadline.isCancelled, regular.own deadline working]
      exact cancelled_iff.mpr ⟨attached, nobody⟩
    rw [Deadline.verdict, if_pos cancelled]
  constructor
  · exact counted
  · exact cancelled_iff
  · exact fun caller call waiting waits => Cache.heeds (reachable.patient waiting) waiting waits
  · exact stopped
  · intro settled running attached
    have still := settled.flights number
    by_contra none
    have nobody : cache.waiting number = 0 := by omega
    cases phase : flight.phase with
    | queued => simp [turnFlight?, present, phase] at still
    | working deadline => simp [turnFlight?, present, phase, stopped attached nobody deadline phase] at still
    | landed result => simp [Flight.isRunning, phase] at running
    | lost => simp [Flight.isRunning, phase] at running
  · intro somebody
    by_contra cancelled
    have nobody := (cancelled_iff.mp (by simpa using cancelled)).2
    omega
  · exact regular.background
  · exact fun caller call soft fallback next waiting phase uncancelled overdue turn =>
      detached_of_soft waiting phase uncancelled overdue turn present
  · intro detached later run
    obtain ⟨flight', there, still⟩ := detached_run run present detached
    refine ⟨flight', there, still, ?_⟩
    by_contra cancelled
    have books := (reachable.extend run).accounted.cancelled_iff number flight' there
    have attached := (books.mp (by simpa using cancelled)).1
    rw [still] at attached
    contradiction
  · exact fun event next lawful step before after => Cache.cancelledBy accounted lawful step present before after

/-- Two callers wait for a flight, and one of them goes away. -/
def leaving : List (Event Nat) :=
  [.scope none, .begin "Oslo" lenient ⟨5000, ⟨[0]⟩⟩, .flight 0 none, .begin "Oslo" lenient ⟨5000, ⟨[0]⟩⟩, .drop 0]

theorem attended_leaving :
    ∃ cache flight, leaving.foldlM step? (empty 1) = some cache ∧ Reachable Lawful cache ∧
      cache.flights[0]? = some flight ∧ flight.isRunning = true ∧ flight.detached = false ∧ flight.waiters = 1 ∧
      cache.Attended 0 flight := by
  obtain ⟨cache, flight, steps, present, running, attached, one⟩ : ∃ cache flight,
      leaving.foldlM step? (empty 1) = some cache ∧ cache.flights[0]? = some flight ∧ flight.isRunning = true ∧
        flight.detached = false ∧ flight.waiters = 1 :=
    ⟨_, _, rfl, rfl, rfl, rfl, rfl⟩
  have run : Run Lawful (empty 1) cache := .of_events (by simp [leaving, Lawful]) steps
  exact ⟨cache, flight, steps, ⟨1, run⟩, present, running, attached, one, attended_of_reachable ⟨1, run⟩ present⟩

end Cache

end HedgedForecast
