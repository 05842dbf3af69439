import HedgedForecast.Proofs.Cache.Provenance
import HedgedForecast.Proofs.Cache.SlotUse

/-! # Refreshes of stale values keep their distance

A slot has the date of the last refresh of a stale value in it, whatever became of that refresh and of the value
since. So two refreshes of stale values in one slot are as far apart as the policy of the second one asks for; and
a call that finds a stale value and no flight to join is held back only by a refresh that is too recent.
-/

namespace HedgedForecast.Cache

variable {V : Type} {rule : Rule V} {cache next : Cache V} {slot : Nat} {date : Option Nat}

/-- The flight was launched in the slot to refresh a stale value. -/
structure RefreshOf (cache : Cache V) (slot number : Nat) (flight : Flight V) : Prop where
  present : cache.flights[number]? = some flight
  stale : flight.trigger = .stale
  own : flight.slot = slot

/-- The date is that of the last refresh of a stale value in the slot. -/
structure Dates (cache : Cache V) (slot : Nat) (date : Option Nat) : Prop where
  launched : ∀ instant, date = some instant → instant ≤ cache.clock.now ∧
    ∃ number flight, RefreshOf cache slot number flight ∧ flight.launchedAt = instant
  latest : ∀ number flight, RefreshOf cache slot number flight →
    ∃ instant, date = some instant ∧ flight.launchedAt ≤ instant

/-- Refreshes of stale values in one slot are as far apart as the policy of the second one asks for. -/
structure Spaced (cache : Cache V) : Prop where
  dates : ∀ (slot : Nat) (found : Slot V), cache.slots[slot]? = some found → Dates cache slot found.lastRefresh
  apart : ∀ (slot m n : Nat) (first second : Flight V), m < n → RefreshOf cache slot m first →
    RefreshOf cache slot n second → first.launchedAt + second.policy.throttle ≤ second.launchedAt

theorem RefreshOf.extend {number : Nat} {flight : Flight V} (refresh : RefreshOf cache slot number flight)
    (extended : Extends next cache) : ∃ later, RefreshOf next slot number later ∧ later.Follows flight := by
  obtain ⟨later, there, follows⟩ := extended.flights number flight refresh.present
  exact ⟨later, ⟨there, follows.trigger.trans refresh.stale, follows.slot.trans refresh.own⟩, follows⟩

theorem RefreshOf.back {number : Nat} {flight earlier : Flight V} (refresh : RefreshOf next slot number flight)
    (there : cache.flights[number]? = some earlier) (follows : flight.Follows earlier) :
    RefreshOf cache slot number earlier :=
  ⟨there, follows.trigger.symm.trans refresh.stale, follows.slot.symm.trans refresh.own⟩

/-- A date stays right as long as no other refresh of a stale value is launched in the slot. -/
theorem Dates.keep (dates : Dates cache slot date) (extended : Extends next cache)
    (old : ∀ number flight, RefreshOf next slot number flight →
      ∃ earlier, cache.flights[number]? = some earlier ∧ flight.Follows earlier) : Dates next slot date := by
  constructor
  · intro instant same
    obtain ⟨past, number, flight, refresh, launchedAt⟩ := dates.launched instant same
    obtain ⟨later, refresh', follows⟩ := refresh.extend extended
    exact ⟨Nat.le_trans past extended.now, number, later, refresh', follows.launchedAt.trans launchedAt⟩
  · intro number flight refresh
    obtain ⟨earlier, there, follows⟩ := old number flight refresh
    rw [follows.launchedAt]
    exact dates.latest number earlier (refresh.back there follows)

/-- A refresh that is launched now is the last one. -/
theorem Dates.renew (dates : Dates cache slot date) (extended : Extends next cache) {number : Nat} {flight : Flight V}
    (refresh : RefreshOf next slot number flight) (launchedAt : flight.launchedAt = cache.clock.now)
    (old : ∀ other flight', RefreshOf next slot other flight' → other ≠ number →
      ∃ earlier, cache.flights[other]? = some earlier ∧ flight'.Follows earlier) :
    Dates next slot (some cache.clock.now) := by
  constructor
  · rintro _ ⟨⟩
    exact ⟨extended.now, number, flight, refresh, launchedAt⟩
  · intro other flight' refresh'
    refine ⟨_, rfl, ?_⟩
    by_cases same : other = number
    · subst same
      obtain rfl := Option.some.inj (refresh.present.symm.trans refresh'.present)
      exact Nat.le_of_eq launchedAt
    · obtain ⟨earlier, there, follows⟩ := old other flight' refresh' same
      obtain ⟨instant, dated, before⟩ := dates.latest other earlier (refresh'.back there follows)
      rw [follows.launchedAt]
      exact Nat.le_trans before (dates.launched instant dated).1

/-- A slot is dated anew when a refresh of a stale value is launched in it, which the last one has to allow. -/
theorem Uses.date_cases {policy : Policy} {found later : Slot V} {trigger : Option Trigger}
    (uses : Uses cache policy slot found trigger later) :
    trigger ≠ some .stale ∧ later.lastRefresh = found.lastRefresh ∨
      trigger = some .stale ∧ later.lastRefresh = some cache.clock.now ∧
        ∀ instant, found.lastRefresh = some instant → policy.throttle ≤ cache.clock.now - instant := by
  cases uses with
  | stale _ _ _ _ free => exact .inr ⟨rfl, rfl, free⟩
  | _ => exact .inl ⟨nofun, rfl⟩

/-- An event that launches no refresh of a stale value only has to leave dates alone. -/
theorem Spaced.keep (spaced : Spaced cache) (extended : Extends next cache) {own : Nat} {trigger : Option Trigger}
    (launches : Launches cache next own trigger) (other : trigger ≠ some .stale)
    (dates : ∀ (slot : Nat) (later : Slot V), next.slots[slot]? = some later → Dates cache slot later.lastRefresh) :
    Spaced next := by
  have old (slot number : Nat) (flight : Flight V) (refresh : RefreshOf next slot number flight) :
      ∃ earlier, cache.flights[number]? = some earlier ∧ flight.Follows earlier := by
    rcases launches.flight_cases extended refresh.present with there | ⟨_, _, new⟩
    · exact there
    · rw [refresh.stale] at new
      exact absurd new other
  constructor
  · exact fun slot later present => (dates slot later present).keep extended (old slot)
  · intro slot m n first second before refresh refresh'
    obtain ⟨earlier, there, follows⟩ := old slot m first refresh
    obtain ⟨earlier', there', follows'⟩ := old slot n second refresh'
    rw [follows.launchedAt, follows'.launchedAt, follows'.policy]
    exact spaced.apart slot m n earlier earlier' before (refresh.back there follows) (refresh'.back there' follows')

/-- A slot that is new has no date, for no flight belongs to it yet. -/
theorem Placed.dates_new (placed : Placed cache) : Dates cache cache.slots.size none := by
  refine ⟨nofun, fun number flight refresh => ?_⟩
  obtain ⟨found, present, _⟩ := placed.slot_of_flight number flight refresh.present
  rw [refresh.own, Array.getElem?_size] at present
  contradiction

/-- A refresh of a stale value is launched in a slot where the last one is not too recent. -/
theorem Spaced.renew (spaced : Spaced cache) (extended : Extends next cache) {policy : Policy} {found later : Slot V}
    (present : cache.slots[slot]? = some found)
    (free : ∀ instant, found.lastRefresh = some instant → policy.throttle ≤ cache.clock.now - instant)
    (leaves : Leaves cache next slot (some .stale) later) (date : later.lastRefresh = some cache.clock.now)
    (others : SlotsBut slot cache next)
    (launched : ∀ flight, next.flights[cache.flights.size]? = some flight →
      flight.policy = policy ∧ flight.launchedAt = cache.clock.now) : Spaced next := by
  have dates := spaced.dates slot found present
  have cases {place number : Nat} {flight : Flight V} (refresh : RefreshOf next place number flight) :
      (∃ earlier, RefreshOf cache place number earlier ∧ flight.Follows earlier) ∨
        number = cache.flights.size ∧ place = slot := by
    rcases leaves.launches.flight_cases extended refresh.present with ⟨earlier, there, follows⟩ | ⟨last, own, _⟩
    · exact .inl ⟨earlier, refresh.back there follows, follows⟩
    · exact .inr ⟨last, refresh.own.symm.trans own⟩
  constructor
  · intro place after there
    obtain ⟨rfl, rfl⟩ | ⟨distinct, old⟩ := leaves.slot_cases others there
    · rw [date]
      cases leaves.launches with
      | one size new own reason =>
        refine dates.renew extended ⟨new, reason, own⟩ (launched _ new).2 fun other flight refresh another => ?_
        obtain ⟨earlier, old, follows⟩ | ⟨last, _⟩ := cases refresh
        · exact ⟨earlier, old.present, follows⟩
        · exact absurd last another
    · refine (spaced.dates place after old).keep extended fun number flight refresh => ?_
      obtain ⟨earlier, old, follows⟩ | ⟨_, same⟩ := cases refresh
      · exact ⟨earlier, old.present, follows⟩
      · exact absurd same.symm distinct
  · intro place m n first second before refresh refresh'
    obtain ⟨earlier, old, follows⟩ | ⟨rfl, _⟩ := cases refresh
    · obtain ⟨earlier', old', follows'⟩ | ⟨rfl, rfl⟩ := cases refresh'
      · rw [follows.launchedAt, follows'.launchedAt, follows'.policy]
        exact spaced.apart place m n earlier earlier' before old old'
      · obtain ⟨instant, dated, notLater⟩ := dates.latest m earlier old
        have past := (dates.launched instant dated).1
        have allowed := free instant dated
        obtain ⟨policy', launchedAt⟩ := launched second refresh'.present
        rw [follows.launchedAt, policy', launchedAt]
        omega
    · obtain ⟨bound, _⟩ := Array.getElem?_eq_some_iff.mp refresh'.present
      cases leaves.launches with
      | one size => omega

theorem Spaced.step (spaced : Spaced cache) (reachable : Reachable rule cache) {event : Event V}
    (step : cache.step? event = some next) : Spaced next := by
  have extended := Extends.step step
  cases reachable.reworks step with
  | quiet _ kept =>
    have launches : Launches cache next 0 none := .nothing kept.flights
    exact spaced.keep extended launches nofun fun slot later there =>
      spaced.dates slot later (kept.slots ▸ there)
  | @asked key policy deadline slot found later trigger _ present uses leaves others =>
    rcases uses.date_cases with ⟨other, same⟩ | ⟨rfl, date, free⟩
    · refine spaced.keep extended leaves.launches other fun place after there => ?_
      obtain ⟨rfl, rfl⟩ | ⟨_, old⟩ := leaves.slot_cases others there
      · exact same ▸ spaced.dates slot found present
      · exact spaced.dates place after old
    · refine spaced.renew extended present free leaves date others fun flight new => ?_
      obtain ⟨_, _, _, asked, launched⟩ := step_launched step Array.getElem?_size new
      cases asked
      exact ⟨launched.policy, launched.launchedAt⟩
  | opened absent leaves others =>
    refine spaced.keep extended leaves.launches nofun fun place after there => ?_
    obtain ⟨rfl, rfl⟩ | ⟨_, old⟩ := leaves.slot_cases others there
    · exact reachable.placed.dates_new
    · exact spaced.dates place after old
  | @left number _ flight found _ present leaves others =>
    refine spaced.keep extended leaves.launches nofun fun place after there => ?_
    obtain ⟨rfl, rfl⟩ | ⟨_, old⟩ := leaves.slot_cases others there
    · rw [Slot.without_eq]
      exact spaced.dates flight.slot found present
    · exact spaced.dates place after old
  | @stored number flight found _ _ _ present leaves others =>
    refine spaced.keep extended leaves.launches nofun fun place after there => ?_
    obtain ⟨rfl, rfl⟩ | ⟨_, old⟩ := leaves.slot_cases others there
    · exact spaced.dates flight.slot found present
    · exact spaced.dates place after old

/-- Slots are dated and refreshes spaced, whatever happens. -/
theorem Reachable.spaced (reachable : Reachable rule cache) : Spaced cache := by
  obtain ⟨maxEntries, run⟩ := reachable
  induction run with
  | nil =>
    refine ⟨?_, fun slot m n first second _ refresh => ?_⟩
    · simp [empty]
    · simpa [empty] using refresh.present
  | snoc run _ step ih => exact ih.step ⟨maxEntries, run⟩ step

/-- The call finds a stale value that it may be served, and no flight to join. -/
structure FindsStale (cache : Cache V) (key : String) (policy : Policy) (slot : Nat) (entry : Entry V) : Prop where
  known : cache.keys.lookup key = some slot
  there : cache.entryOf slot = some entry
  expired : entry.expiresAt ≤ cache.clock.now
  failSafe : policy.failSafe = true
  servable : cache.clock.now < entry.servableUntil
  vacant : cache.liveFlight? slot = none

/-- A refresh of a stale value was launched in the slot less than that time ago. -/
def RefreshedWithin (cache : Cache V) (slot time : Nat) : Prop :=
  ∃ number flight, RefreshOf cache slot number flight ∧ cache.clock.now < flight.launchedAt + time

theorem Dates.recent_iff (dates : Dates cache slot date) (time : Nat) :
    (∃ instant, date = some instant ∧ cache.clock.now - instant < time) ↔ RefreshedWithin cache slot time := by
  constructor
  · rintro ⟨instant, dated, recent⟩
    obtain ⟨past, number, flight, refresh, rfl⟩ := dates.launched instant dated
    exact ⟨number, flight, refresh, by omega⟩
  · rintro ⟨number, flight, refresh, recent⟩
    obtain ⟨instant, dated, notLater⟩ := dates.latest number flight refresh
    have past := (dates.launched instant dated).1
    exact ⟨instant, dated, by omega⟩

theorem beginStale_of_throttled (cache : Cache V) (call : Call V) (entry : Entry V)
    (vacant : cache.liveFlight? call.slot = none) (throttled : cache.isThrottled call.slot call.policy = true) :
    (cache.beginStale call entry).2.flights = cache.flights ∧
      (cache.beginStale call entry).2.calls =
        cache.calls.push { call with phase := .returned (.ok entry.value) cache.clock.now } := by
  have held : (cache.count fun stats => { stats with staleHits := stats.staleHits + 1 }).staleFlight? call.key call.slot
      call.policy = (none, cache.count fun stats => { stats with staleHits := stats.staleHits + 1 }) := by
    unfold staleFlight?
    rw [show (cache.count _).liveFlight? call.slot = none from vacant]
    exact if_pos throttled
  unfold beginStale
  simp only [held]
  exact ⟨rfl, rfl⟩

variable {key : String} {policy : Policy} {entry : Entry V}

/-- A call that is held back by the last refresh has the stale value at once and launches nothing. -/
theorem FindsStale.held (finds : FindsStale cache key policy slot entry) (reachable : Reachable rule cache)
    (recent : RefreshedWithin cache slot policy.throttle) (deadline : Deadline) :
    (cache.begin key policy deadline).2.flights = cache.flights ∧
      ∃ call, (cache.begin key policy deadline).2.calls = cache.calls.push call ∧
        call.phase = .returned (.ok entry.value) cache.clock.now := by
  obtain ⟨found, present, _⟩ := reachable.placed.slot_of_key key slot (mem_of_lookup finds.known)
  obtain ⟨clock, flights, calls, _⟩ := touch_frame cache key
  have there : cache.entryFor key = some entry := by
    rw [entryFor, finds.known]
    exact finds.there
  have vacant : (cache.touch key).2.liveFlight? (cache.touch key).1 = none := by
    rw [liveFlight?_touch, flightFor, finds.known]
    exact finds.vacant
  have throttled : (cache.touch key).2.isThrottled (cache.touch key).1 policy = true := by
    rw [isThrottled_iff (touch_slot finds.known present), clock]
    exact ((reachable.spaced.dates slot found present).recent_iff policy.throttle).mpr recent
  obtain ⟨same, added⟩ := beginStale_of_throttled _ (cache.opening key policy deadline) entry vacant throttled
  rw [begin_expired there finds.expired finds.failSafe finds.servable, same, added, flights, calls, clock]
  exact ⟨rfl, _, rfl, rfl⟩

/-- A call that is not held back launches a refresh. -/
theorem FindsStale.free (finds : FindsStale cache key policy slot entry) (reachable : Reachable rule cache)
    (past : ¬ RefreshedWithin cache slot policy.throttle) (deadline : Deadline) :
    (cache.begin key policy deadline).2.flights.size = cache.flights.size + 1 ∧
      ∃ launched, (cache.begin key policy deadline).2.flights[cache.flights.size]? = some launched ∧
        launched.trigger = .stale ∧ launched.slot = slot ∧ launched.LaunchedBy key policy cache.clock.now := by
  obtain ⟨found, present, _⟩ := reachable.placed.slot_of_key key slot (mem_of_lookup finds.known)
  have has : found.entry = some entry := by
    have there := finds.there
    rwa [entryOf, present, Option.bind_some] at there
  have notFresh {other : Entry V} (own : found.entry = some other) : ¬ cache.clock.now < other.expiresAt := by
    obtain rfl := Option.some.inj (has.symm.trans own)
    exact Nat.not_lt.mpr finds.expired
  obtain ⟨trigger, later, uses, leaves⟩ := begin_uses finds.known present policy deadline
  cases uses with
  | hit own fresh => exact absurd fresh (notFresh own)
  | marked own fresh => exact absurd fresh (notFresh own)
  | eager own fresh => exact absurd fresh (notFresh own)
  | joined _ live =>
    rw [finds.vacant] at live
    contradiction
  | throttled _ _ _ _ refreshed recent =>
    have dates := reachable.spaced.dates slot found present
    exact absurd ((dates.recent_iff policy.throttle).mp ⟨_, refreshed, recent⟩) past
  | cold nothing => exact absurd (.inr ⟨finds.failSafe, finds.servable⟩) (nothing entry has)
  | stale =>
    cases leaves.launches with
    | @one launched _ size new own reason =>
      obtain ⟨_, _, asked, by_⟩ := (Alters.begin cache key policy deadline).launched _ launched Array.getElem?_size new
      cases asked
      exact ⟨size, launched, new, reason, own, by_⟩

/-- How far refreshes of stale values are apart, and which calls they hold back. -/
structure Throttled (cache : Cache V) : Prop where
  /-- Whatever becomes of a refresh, the next one in the slot keeps the distance that its own policy asks for. -/
  apart : ∀ (slot m n : Nat) (first second : Flight V), m < n → RefreshOf cache slot m first →
    RefreshOf cache slot n second → first.launchedAt + second.policy.throttle ≤ second.launchedAt
  /-- With one policy for all calls that is one distance. -/
  uniform : ∀ policy, (∀ call ∈ cache.calls, call.policy = policy) → ∀ (slot m n : Nat) (first second : Flight V),
    m < n → RefreshOf cache slot m first → RefreshOf cache slot n second →
    first.launchedAt + policy.throttle ≤ second.launchedAt
  /-- A call that comes too soon after a refresh has the stale value at once and launches nothing. -/
  held : ∀ key policy deadline slot entry, FindsStale cache key policy slot entry →
    RefreshedWithin cache slot policy.throttle →
    (cache.begin key policy deadline).2.flights = cache.flights ∧
      ∃ call, (cache.begin key policy deadline).2.calls = cache.calls.push call ∧
        call.phase = .returned (.ok entry.value) cache.clock.now
  /-- Nothing else holds a call back. -/
  free : ∀ key policy deadline slot entry, FindsStale cache key policy slot entry →
    ¬ RefreshedWithin cache slot policy.throttle →
    (cache.begin key policy deadline).2.flights.size = cache.flights.size + 1 ∧
      ∃ launched, (cache.begin key policy deadline).2.flights[cache.flights.size]? = some launched ∧
        launched.trigger = .stale ∧ launched.slot = slot ∧ launched.LaunchedBy key policy cache.clock.now

theorem throttled_of_reachable (reachable : Reachable rule cache) : Throttled cache := by
  have spaced := reachable.spaced
  refine ⟨spaced.apart, fun policy one slot m n first second before refresh refresh' => ?_, ?_, ?_⟩
  · obtain ⟨call, member, _, same⟩ := (reachable.launchedIn refresh'.present).exists_call
    rw [← one call member, same]
    exact spaced.apart slot m n first second before refresh refresh'
  · exact fun _ _ deadline _ _ finds recent => finds.held reachable recent deadline
  · exact fun _ _ deadline _ _ finds past => finds.free reachable past deadline

/-- A policy under which values are stale at once and are not refreshed more often than every 50 milliseconds. -/
def sparing : Policy :=
  { lenient with throttle := 50 }

/-- The refresh of a stale value fails, the next call is held back, and one that comes later is not. -/
def refreshing : List (Event Nat) :=
  [.scope none, .begin "Oslo" sparing ⟨5000, ⟨[0]⟩⟩, .flight 0 none, .flight 0 (some (.value 7)), .call 0, .pass 10,
    .begin "Oslo" sparing ⟨5000, ⟨[0]⟩⟩, .flight 1 none, .flight 1 (some (.failure .cancelled)), .call 1, .pass 59,
    .begin "Oslo" sparing ⟨5000, ⟨[0]⟩⟩, .pass 60, .begin "Oslo" sparing ⟨5000, ⟨[0]⟩⟩]

def refreshed : Cache Nat := (refreshing.foldlM step? (empty 1)).getD (empty 1)

theorem throttled_refreshed :
    Reachable Lawful refreshed ∧
      refreshed.flights.toList.map (fun flight => (flight.trigger, flight.launchedAt)) =
        [(.cold, 0), (.stale, 10), (.stale, 60)] ∧
      refreshed.calls.size = 4 ∧ Throttled refreshed := by
  have run : Run Lawful (empty 1) refreshed :=
    .of_events (by simp [refreshing, Lawful]) (rfl : refreshing.foldlM step? (empty 1) = some refreshed)
  exact ⟨⟨1, run⟩, by decide, by decide, throttled_of_reachable ⟨1, run⟩⟩

end HedgedForecast.Cache
