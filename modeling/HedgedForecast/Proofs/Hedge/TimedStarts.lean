import HedgedForecast.Proofs.Hedge.Keeping

/-! # Providers that the timer starts

A fetch asks a provider when it begins, when a provider has failed, and when its timer is due. Only the last of these
adds a leg to a fetch that is under way and has no end of a leg to look at. So what the timer starts can be told from
the fetches before and after an event, and the timer starts nothing before it is due.
-/

namespace HedgedForecast

namespace Fetch

variable {fetch next : Fetch} {clock clock' : Clock}

/-- The timer is due and may start a provider: nobody gave up, there is time left, no leg has ended that the fetch has
not looked at, and a provider is left. -/
structure Due (fetch : Fetch) (clock : Clock) : Prop where
  undecided : fetch.result = none
  isOpen : fetch.Open clock
  idle : fetch.arrivals = []
  primary : fetch.primaryRunning = true
  room : fetch.next < fetch.size
  due : fetch.timerAt ≤ clock.now

/-- A turn that adds a leg although none has ended is that of the timer. -/
theorem Turned.due (turned : fetch.Turned clock next clock') (undecided : fetch.result = none)
    (idle : fetch.arrivals = []) (grown : fetch.legs.length < next.legs.length) : fetch.Due clock := by
  cases turned with
  | fired isOpen _ primary room due _ => exact ⟨undecided, isOpen, idle, primary, room, due⟩
  | replaced _ arrived =>
    rw [idle] at arrived
    contradiction
  | noted => exact absurd grown (Nat.lt_irrefl _)
  | cancelled | expired | decided | exhausted => exact absurd grown (Nat.not_lt_zero _)

/-- A fetch that begins asks the first provider only, as long as the timer is not due at once. -/
theorem begin_alone (clock : Clock) (size : Nat) {threshold : Nat} (waits : 0 < threshold) (deadline : Deadline) :
    let begun := Fetch.begin clock size threshold deadline
    let opened := ((begun.1.turn? begun.2).getD begun).1
    opened.timerAt = clock.now + threshold ∧ opened.legs.length ≤ 1 := by
  intro begun opened
  have timerAt : begun.1.timerAt = clock.now + threshold := by
    cases size <;> rfl
  have now : begun.2.now = clock.now := by
    cases size <;> rfl
  have idle : begun.1.arrivals = [] := by
    cases size <;> rfl
  have one : begun.1.legs.length ≤ 1 := by
    cases size with
    | zero => exact Nat.zero_le 1
    | succ => exact Nat.le_refl 1
  cases turn : begun.1.turn? begun.2 with
  | none =>
    have same : opened = begun.1 := congrArg (fun turned => (turned.getD begun).1) turn
    rw [same]
    exact ⟨timerAt, one⟩
  | some turned =>
    have same : opened = turned.1 := congrArg (fun turned => (turned.getD begun).1) turn
    obtain ⟨undecided, turned⟩ := turned_of_turn? turn
    rw [same]
    refine ⟨turned.frame.2.1.trans timerAt, ?_⟩
    by_contra two
    have due := (turned.due undecided idle (Nat.lt_of_le_of_lt one (Nat.lt_of_not_le two))).due
    rw [timerAt, now] at due
    omega

end Fetch

namespace Hedger

variable {hedger next : Hedger} {clock clock' : Clock} {number : Nat}

/-- Between the two the timer of the fetch has started a provider: one more leg runs than before, or than the first of
a fetch that has just begun, and no end of a leg was looked at. -/
def TimerStarts (hedger next : Hedger) (number : Nat) : Prop :=
  ∃ later, next.fetches[number]? = some later ∧
    match hedger.fetches[number]? with
    | some run => run.fetch.arrivals = [] ∧ run.fetch.legs.length < later.fetch.legs.length
    | none => 1 < later.fetch.legs.length

namespace TimerStarts

/-- The timer starts nothing where no fetch is touched. -/
theorem not_of_same (same : next.fetches = hedger.fetches) : ¬hedger.TimerStarts next number := by
  rintro ⟨later, present, starts⟩
  rw [same] at present
  rw [present] at starts
  exact absurd starts.2 (Nat.lt_irrefl _)

/-- If one fetch goes on, it is that fetch. -/
theorem update (starts : hedger.TimerStarts next number) {place : Nat} {run : FetchRun} {fetch : Fetch}
    (present : hedger.fetches[place]? = some run)
    (fetches : next.fetches = hedger.fetches.modify place fun run' => { run' with fetch }) :
    place = number ∧ run.fetch.arrivals = [] ∧ run.fetch.legs.length < fetch.legs.length := by
  obtain ⟨later, there, starts⟩ := starts
  rw [fetches] at there
  obtain ⟨before, known, ⟨_, rfl⟩ | ⟨rfl, rfl⟩⟩ := getElem?_modify_cases there
  · rw [known] at starts
    exact absurd starts.2 (Nat.lt_irrefl _)
  · obtain rfl := Option.some.inj (present.symm.trans known)
    rw [known] at starts
    exact ⟨rfl, starts⟩

/-- To stop a fetch starts nothing. -/
theorem not_drop (clock : Clock) (place : Nat) : ¬hedger.TimerStarts (hedger.drop clock place).1 number := by
  intro starts
  obtain ⟨same, _⟩ | ⟨run, present, _, same⟩ := drop_eq hedger clock place
  · rw [same] at starts
    exact not_of_same rfl starts
  · rw [same] at starts
    exact absurd (starts.update present (stop_fetches ..)).2.2 (Nat.not_lt_zero _)

/-- A fetch that begins is not started by its timer. -/
theorem not_begin (waits : 0 < hedger.threshold) (clock : Clock) (request : Request) (deadline : Deadline) :
    ¬hedger.TimerStarts (hedger.begin clock request deadline).2.1 number := by
  rintro ⟨later, present, starts⟩
  have alone := Fetch.begin_alone clock hedger.providers.length waits deadline
  rcases getElem?_push_cases present with ⟨_, old⟩ | ⟨rfl, rfl⟩
  · rw [old] at starts
    exact absurd starts.2 (Nat.lt_irrefl _)
  · rw [Array.getElem?_eq_none (Nat.le_refl _)] at starts
    exact absurd alone.2 (Nat.not_le.mpr starts)

end TimerStarts

/-- Where the timer of a fetch starts a provider, it is due. -/
theorem Works.due (works : hedger.Works clock next clock') (starts : hedger.TimerStarts next number) :
    ∃ run, hedger.fetches[number]? = some run ∧ run.fetch.Due clock := by
  obtain ⟨place, run, fetch, present, acts, fetches⟩ := works.acts
  obtain ⟨rfl, idle, grown⟩ := starts.update present fetches
  refine ⟨run, present, ?_⟩
  cases acts with
  | legBegins =>
    rw [Fetch.legBegan, List.length_map] at grown
    exact absurd grown (Nat.lt_irrefl _)
  | legEnds => exact absurd grown (Nat.not_lt.mpr (List.length_filter_le ..))
  | turn turned =>
    obtain ⟨undecided, turned⟩ := Fetch.turned_of_turn? turned
    exact turned.due undecided idle grown

end Hedger

end HedgedForecast
