import HedgedForecast.Proofs.Cache.Provenance
import HedgedForecast.Proofs.Cache.Retention

/-! # Reads never go backwards

As long as all calls are made under one policy and no key is removed, what a key has stored is never older than
any value that a flight of the key has ever given, although flights hand out their values by themselves and keys
are dropped and come back. So a call that begins after another one has returned a value does not return a value
which was computed earlier: it finds what is stored, or it waits for a flight that is still to land.
-/

namespace HedgedForecast.Cache

variable {V : Type}

/-- All calls are made under one policy, and no key is removed. -/
def Uniform (policy : Policy) : Rule V
  | _, .begin _ other _ => other = policy
  | _, .remove _ => False
  | _, _ => True

/-- What the key has stored is not older than the instant, which is past. -/
structure NotOlder (cache : Cache V) (key : String) (instant : Nat) : Prop where
  past : instant ≤ cache.clock.now
  stored : ∀ entry, cache.entryFor key = some entry → instant ≤ entry.storedAt

/-- A flight of the key landed with the value at the instant. -/
def Computed (cache : Cache V) (key : String) (flight : Nat) (value : V) (instant : Nat) : Prop :=
  ∃ found, cache.flights[flight]? = some found ∧ found.key = key ∧ found.phase = .landed (.ok value) ∧
    found.endedAt = some instant

/-- How waiting ends for the call if it ends now. -/
def ending? (cache : Cache V) (call : Call V) : Option (GuardEnd (Except Failure V)) :=
  match call.phase with
  | .cold flight => call.deadline.verdict cache.clock (cache.resultOf flight)
  | .stale flight soft _ => soft.verdict cache.clock (cache.resultOf flight)
  | _ => none

/-- A call on the key that begins in one cache returns the value, which the flight computed, with the event that
leads to the other cache. -/
inductive Reads (rule : Rule V) (key : String) (start : Cache V) : Nat → V → Cache V → Prop
  /-- The call finds the value and returns it at once. -/
  | atOnce {policy : Policy} {deadline : Deadline} {entry : Entry V} {call : Call V}
      (allowed : rule start (.begin key policy deadline)) (found : start.entryFor key = some entry)
      (present : (start.begin key policy deadline).2.calls[start.calls.size]? = some call)
      (returned : call.phase = .returned (.ok entry.value) start.clock.now) :
      Reads rule key start entry.flight entry.value (start.begin key policy deadline).2
  /-- The call waits for the flight and is told the value. -/
  | waited {policy : Policy} {deadline : Deadline} {flight : Nat} {value : V} {middle finish : Cache V} {call : Call V}
      (allowed : rule start (.begin key policy deadline)) (run : Run rule (start.begin key policy deadline).2 middle)
      (present : middle.calls[start.calls.size]? = some call) (waits : call.flight? = some flight)
      (told : middle.ending? call = some (.done (.ok value)))
      (turn : middle.turnCall? start.calls.size = some finish) : Reads rule key start flight value finish
  /-- The call finds the value, waits in vain for another one and returns what it has found. -/
  | fellBack {policy : Policy} {deadline soft : Deadline} {flight : Nat} {entry : Entry V} {middle finish : Cache V}
      {call : Call V} {ending : GuardEnd (Except Failure V)} (allowed : rule start (.begin key policy deadline))
      (found : start.entryFor key = some entry) (run : Run rule (start.begin key policy deadline).2 middle)
      (present : middle.calls[start.calls.size]? = some call) (phase : call.phase = .stale flight soft entry.value)
      (ended : middle.ending? call = some ending) (vain : ∀ value, ending ≠ .done (.ok value))
      (answer : middle.answer? call = some (.ok entry.value))
      (turn : middle.turnCall? start.calls.size = some finish) : Reads rule key start entry.flight entry.value finish

section

variable {rule : Rule V} {cache next : Cache V} {key : String} {number : Nat} {event : Event V}

/-- A key has in its slot what it had there before, unless a flight has just stored something else. -/
theorem Placed.entryFor_step (placed : Placed cache) (step : cache.step? event = some next) {entry : Entry V}
    (found : next.entryFor key = some entry) :
    entry.storedAt = cache.clock.now ∨ ∃ before, cache.entryFor key = some before ∧ before.core = entry.core := by
  obtain ⟨slot, known, there⟩ := Option.bind_eq_some_iff.mp found
  have holds : next.content slot = some entry.core := by rw [content, there]; rfl
  rcases step_content step slot with same | ⟨flight, landed, value, _, _, _, _, _, stored⟩
  · right
    rw [same] at holds
    obtain ⟨before, held, core⟩ := Option.map_eq_some_iff.mp holds
    refine ⟨before, ?_, core⟩
    suffices kept : cache.keys.lookup key = some slot by rw [entryFor, kept]; exact held
    by_cases new : Inserts cache event
    · obtain ⟨other, policy, deadline, rfl, absent⟩ := new
      cases step
      rw [begin_keys_of_absent absent, List.lookup_append] at known
      rcases Option.or_eq_some_iff.mp known with old | ⟨_, last⟩
      · exact placed.lookup_of_mem (makeRoom_keys_subset cache (mem_of_lookup old))
      · obtain ⟨rfl, rfl⟩ := Prod.mk.inj (List.mem_singleton.mp (mem_of_lookup last))
        rw [touch_absent_slot absent] at held
        simp [entryOf] at held
    · exact placed.lookup_of_mem ((step_keys step new).subset (mem_of_lookup known))
  · rw [stored] at holds
    exact .inl (congrArg Entry.storedAt (Option.some.inj holds)).symm

theorem NotOlder.step {instant : Nat} (notOlder : NotOlder cache key instant) (placed : Placed cache)
    (step : cache.step? event = some next) : NotOlder next key instant := by
  refine ⟨Nat.le_trans notOlder.past (Extends.step step).now, fun entry found => ?_⟩
  rcases placed.entryFor_step step found with new | ⟨before, there, core⟩
  · exact new ▸ notOlder.past
  · have same : before.core.storedAt = entry.core.storedAt := congrArg Entry.storedAt core
    exact same ▸ notOlder.stored before there

/-- Slots hold only what policies store. -/
theorem Reachable.stores_of_content (reachable : Reachable rule cache) {slot : Nat} {entry : Entry V}
    (holds : cache.content slot = some entry) : entry.policy.storesEntries = true := by
  obtain ⟨maxEntries, run⟩ := reachable
  induction run generalizing entry with
  | nil => simp [content, entryOf, empty] at holds
  | snoc _ _ step ih =>
    rcases step_content step slot with same | ⟨_, flight, value, _, _, _, _, stores, stored⟩
    · exact ih (same ▸ holds)
    · rw [stored] at holds
      cases holds
      exact stores

end

section

variable {policy : Policy} {cache : Cache V} {key : String} {number : Nat} {found : Flight V} {value : V}
  {instant : Nat}

theorem Reachable.policy_of_uniform (reachable : Reachable (Uniform policy) cache)
    (present : cache.flights[number]? = some found) : found.policy = policy := by
  obtain ⟨maxEntries, run⟩ := reachable
  induction run generalizing found with
  | nil => simp [empty] at present
  | @snoc middle target event run allowed step ih =>
    cases there : middle.flights[number]? with
    | none =>
      obtain ⟨key, other, deadline, rfl, launched⟩ := step_launched step there present
      exact launched.policy.trans allowed
    | some earlier =>
      obtain ⟨later, here, follows⟩ := (Extends.step step).flights number earlier there
      obtain rfl := Option.some.inj (present.symm.trans here)
      exact follows.policy.trans (ih there)

/-- If the policy stores nothing, no key ever has anything stored. -/
theorem Reachable.stores_of_entryFor (reachable : Reachable (Uniform policy) cache) {entry : Entry V}
    (there : cache.entryFor key = some entry) : policy.storesEntries = true := by
  obtain ⟨slot, _, holds, _⟩ := reachable.placed.content_of_entryFor there
  obtain ⟨flight, present, _, own, _⟩ := reachable.storedBy holds
  have stores := reachable.stores_of_content holds
  rwa [← own, reachable.policy_of_uniform present] at stores

/-- A flight that lands with a value leaves nothing older behind. -/
theorem Reachable.notOlder_of_landing (reachable : Reachable (Uniform policy) cache) {next : Cache V} {landed : Flight V}
    (turn : cache.turnFlight? number (some (.value value)) = some next) (present : cache.flights[number]? = some found)
    (there : next.flights[number]? = some landed) (done : landed.phase = .landed (.ok value)) :
    NotOlder next found.key cache.clock.now := by
  have step : cache.step? (.flight number (some (.value value))) = some next := turn
  have allowed : Uniform policy cache (.flight number (some (.value value))) := trivial
  refine ⟨(Extends.step step).now, fun entry stored => ?_⟩
  have stores : found.policy.storesEntries = true := by
    rw [reachable.policy_of_uniform present]
    exact (reachable.step allowed step).stores_of_entryFor stored
  rcases reachable.entryFor_stored turn present stores there done with new | removed
  · cases new.symm.trans stored
    exact Nat.le_refl _
  · obtain ⟨_, _, _, _, _, _, absurd, _⟩ := removed
    exact absurd.elim

/-- What a key has stored is not older than any value that a flight of the key has given. -/
theorem Reachable.notOlder (reachable : Reachable (Uniform policy) cache)
    (computed : Computed cache key number value instant) : NotOlder cache key instant := by
  obtain ⟨found, present, rfl, landed, ended⟩ := computed
  obtain ⟨maxEntries, run⟩ := reachable
  induction run generalizing found with
  | nil => simp [empty] at present
  | @snoc middle target event run allowed step ih =>
    have reached : Reachable (Uniform policy) middle := ⟨maxEntries, run⟩
    cases there : middle.flights[number]? with
    | none =>
      obtain ⟨_, _, _, _, launched⟩ := step_launched step there present
      rw [launched.phase] at landed
      contradiction
    | some earlier =>
      obtain ⟨later, here, kept | ⟨work, rfl, turned⟩⟩ := step_flights step there
      · obtain rfl := Option.some.inj (present.symm.trans here)
        rw [kept.same] at landed ended ⊢
        exact (ih earlier there landed ended).step reached.placed step
      · obtain rfl := Option.some.inj (present.symm.trans here)
        cases turned with
        | started => contradiction
        | ended working verdict =>
          obtain rfl := Flight.endPhase_ok landed
          obtain ⟨_, absurd⟩ | ⟨_, _, absurd⟩ | ⟨_, _, result, rfl, same⟩ := Deadline.verdict_cases verdict
          · contradiction
          · contradiction
          · cases same
            cases ended
            have newest := reached.notOlder_of_landing step there present landed
            exact newest

end

section

variable {rule : Rule V} {cache next start finish : Cache V} {key : String} {number flight instant : Nat}
  {event : Event V} {call : Call V} {value : V}

theorem Computed.step (computed : Computed cache key number value instant) (step : cache.step? event = some next) :
    Computed next key number value instant := by
  obtain ⟨found, present, named, landed, ended⟩ := computed
  obtain ⟨later, there, kept⟩ := step_landed step present landed
  rw [kept.same] at there
  exact ⟨_, there, named, landed, ended⟩

theorem Computed.run (computed : Computed cache key number value instant) (run : Run rule cache next) :
    Computed next key number value instant := by
  induction run with
  | nil => exact computed
  | snoc _ _ step ih => exact ih.step step

theorem Reachable.computed_of_entryFor (reachable : Reachable rule cache) {entry : Entry V}
    (there : cache.entryFor key = some entry) : Computed cache key entry.flight entry.value entry.storedAt := by
  obtain ⟨origin, _⟩ := reachable.origin_of_entryFor there
  obtain ⟨found, present, named, _, landed, ended⟩ := origin.landed
  exact ⟨found, present, named, landed, ended⟩

theorem begin_present (start : Cache V) (key : String) (policy : Policy) (deadline : Deadline) :
    ∃ phase, Opens start (start.begin key policy deadline).2 key policy deadline phase ∧
      (start.begin key policy deadline).2.calls[start.calls.size]? =
        some { start.opening key policy deadline with phase } := by
  obtain ⟨phase, _, calls, opens⟩ := begin_opens start key policy deadline
  refine ⟨phase, opens, ?_⟩
  rw [calls]
  exact Array.getElem?_push_size

/-- A call keeps its key and the instant at which it began. -/
theorem Run.call_of_begin {policy : Policy} {deadline : Deadline}
    (run : Run rule (start.begin key policy deadline).2 cache) (present : cache.calls[start.calls.size]? = some call) :
    call.key = key ∧ call.begunAt = start.clock.now := by
  obtain ⟨phase, _, begun⟩ := begin_present start key policy deadline
  obtain ⟨later, there, follows⟩ := (Extends.run run).calls _ _ begun
  obtain rfl := Option.some.inj (present.symm.trans there)
  exact ⟨follows.key, follows.begunAt⟩

/-- A call that is told a value has waited for a flight of its key which landed with it after the call had begun. -/
theorem Reachable.computed_of_told (reachable : Reachable rule cache) (present : cache.calls[number]? = some call)
    (waits : call.flight? = some flight) (told : cache.ending? call = some (.done (.ok value))) :
    ∃ ended, Computed cache call.key flight value ended ∧ call.begunAt ≤ ended := by
  have finished (deadline : Deadline)
      (verdict : deadline.verdict cache.clock (cache.resultOf flight) = some (.done (.ok value)))
      (awaited : Awaited rule cache (call.question number) flight) :
      ∃ ended, Computed cache call.key flight value ended ∧ call.begunAt ≤ ended := by
    obtain ⟨_, absurd⟩ | ⟨_, _, absurd⟩ | ⟨_, _, result, given, same⟩ := Deadline.verdict_cases verdict
    · contradiction
    · contradiction
    · cases same
      obtain ⟨found, there, named, landsAfter⟩ := awaited.after
      have landed := landed_of_resultOf there given
      obtain ⟨ended, closed, notBefore⟩ := landsAfter _ landed
      exact ⟨ended, ⟨found, there, named, landed, closed⟩, notBefore⟩
  cases reachable.stands present with
  | cold phase awaited =>
    simp only [Call.flight?, phase, Option.some.injEq] at waits
    subst waits
    simp only [ending?, phase] at told
    exact finished _ told awaited
  | stale phase awaited _ =>
    simp only [Call.flight?, phase, Option.some.injEq] at waits
    subst waits
    simp only [ending?, phase] at told
    exact finished _ told awaited
  | served phase => simp [Call.flight?, phase] at waits
  | failed phase => simp [Call.flight?, phase] at waits
  | dropped phase => simp [Call.flight?, phase] at waits

/-- A value that a call may be answered with is what its flight tells, or else what it falls back on. -/
theorem ending_of_answer (answered : cache.answer? call = some (.ok value)) :
    ∃ flight ending, call.flight? = some flight ∧ cache.ending? call = some ending ∧
      (ending = .done (.ok value) ∨
        (∀ other, ending ≠ .done (.ok other)) ∧ ∃ soft, call.phase = .stale flight soft value) := by
  cases phase : call.phase with
  | cold flight =>
    simp only [answer?, phase] at answered
    obtain ⟨ending, verdict, told⟩ := Option.map_eq_some_iff.mp answered
    refine ⟨flight, ending, by simp [Call.flight?, phase], by simp only [ending?, phase, verdict], .inl ?_⟩
    cases ending with
    | cancelled => cases told
    | expired => cases told
    | done result =>
      cases result with
      | ok computed => cases told; rfl
      | error failure => cases told
  | stale flight soft fallback =>
    simp only [answer?, phase] at answered
    obtain ⟨ending, verdict, told⟩ := Option.map_eq_some_iff.mp answered
    have fellBack {failure : Failure}
        (told : staleAnswer (call.deadline.isCancelled cache.clock) fallback (.error failure) = .ok value) :
        fallback = value := by
      rw [staleAnswer] at told
      split at told
      · cases told
      · exact Except.ok.inj told
    refine ⟨flight, ending, by simp [Call.flight?, phase], by simp only [ending?, phase, verdict], ?_⟩
    cases ending with
    | cancelled => exact .inr ⟨by rintro other ⟨⟩, soft, by rw [fellBack told]⟩
    | expired => exact .inr ⟨by rintro other ⟨⟩, soft, by rw [fellBack told]⟩
    | done result =>
      cases result with
      | ok computed => cases told; exact .inl rfl
      | error failure => exact .inr ⟨by rintro other ⟨⟩, soft, by rw [fellBack told]⟩
  | returned result instant => simp [answer?, phase] at answered
  | dropped => simp [answer?, phase] at answered

/-- Where a call on the key stands which began in one cache and is now in the other. -/
inductive Course (rule : Rule V) (key : String) (start cache : Cache V) (call : Call V) : Prop
  | read {value : V} {instant flight : Nat} {finish : Cache V} (phase : call.phase = .returned (.ok value) instant)
      (reads : Reads rule key start flight value finish) (run : Run rule finish cache) : Course rule key start cache call
  | waiting {policy : Policy} {deadline : Deadline} (allowed : rule start (.begin key policy deadline))
      (run : Run rule (start.begin key policy deadline).2 cache)
      (fallback : ∀ flight soft value, call.phase = .stale flight soft value →
        ∃ entry, start.entryFor key = some entry ∧ entry.value = value)
      (open_ : ∀ result instant, call.phase ≠ .returned result instant) : Course rule key start cache call
  | gone (without : ∀ value instant, call.phase ≠ .returned (.ok value) instant) (still : call.flight? = none) :
      Course rule key start cache call

namespace Course

theorem snoc (course : Course rule key start cache call) (allowed : rule cache event)
    (step : cache.step? event = some next) : Course rule key start next call := by
  cases course with
  | read phase reads run => exact .read phase reads (.snoc run allowed step)
  | waiting allowed' run fallback open_ => exact .waiting allowed' (.snoc run allowed step) fallback open_
  | gone without still => exact .gone without still

theorem answered (course : Course rule key start cache call) (present : cache.calls[start.calls.size]? = some call)
    {answer : Except Failure V} (answered : cache.answer? call = some answer)
    (turn : cache.turnCall? start.calls.size = some next) :
    Course rule key start next { call with phase := .returned answer cache.clock.now } := by
  cases answer with
  | error failure => exact .gone (fun _ _ => nofun) rfl
  | ok value =>
    obtain ⟨flight, ending, waits, ended, way⟩ := ending_of_answer answered
    cases course with
    | waiting allowed run fallback =>
      rcases way with rfl | ⟨vain, soft, phase⟩
      · exact .read rfl (.waited allowed run present waits ended turn) .nil
      · obtain ⟨entry, found, rfl⟩ := fallback _ _ _ phase
        exact .read rfl (.fellBack allowed found run present phase ended vain answered turn) .nil
    | read phase => simp [Call.flight?, phase] at waits
    | gone _ still =>
      rw [still] at waits
      contradiction

theorem opened {policy : Policy} {deadline : Deadline} (allowed : rule start (.begin key policy deadline))
    {phase : CallPhase V} (opens : Opens start (start.begin key policy deadline).2 key policy deadline phase)
    (present : (start.begin key policy deadline).2.calls[start.calls.size]? =
      some { start.opening key policy deadline with phase }) :
    Course rule key start (start.begin key policy deadline).2 { start.opening key policy deadline with phase } := by
  cases opens with
  | fresh found => exact .read rfl (.atOnce allowed found present rfl) .nil
  | stale found => exact .read rfl (.atOnce allowed found present rfl) .nil
  | softly found =>
    refine .waiting allowed .nil (fun flight soft value phase => ?_) fun _ _ => nofun
    cases phase
    exact ⟨_, found, rfl⟩
  | cold => exact .waiting allowed .nil (fun _ _ _ => nofun) fun _ _ => nofun

end Course

/-- Whatever happens after it has begun, a call takes its course. -/
theorem Run.course {policy : Policy} {deadline : Deadline} (run : Run rule (start.begin key policy deadline).2 cache)
    (allowed : rule start (.begin key policy deadline)) (present : cache.calls[start.calls.size]? = some call) :
    Course rule key start cache call := by
  obtain ⟨phase, opens, begun⟩ := begin_present start key policy deadline
  induction run generalizing call with
  | nil =>
    cases begun.symm.trans present
    exact .opened allowed opens begun
  | @snoc middle target event run allowed' step ih =>
    cases step_cameFrom step present with
    | same there => exact (ih there).snoc allowed' step
    | answered there answered same =>
      rw [same]
      exact (ih there).answered there answered step
    | dropped there same =>
      rw [same]
      exact .gone (fun _ _ => nofun) rfl
    | begun last =>
      obtain ⟨earlier, there, _⟩ := (Extends.run run).calls _ _ begun
      rw [last, Array.getElem?_size] at there
      contradiction

end

section

variable {policy : Policy} {start finish : Cache V} {key : String} {flight : Nat} {value : V}

theorem Reads.run (reads : Reads (Uniform policy) key start flight value finish) : Run (Uniform policy) start finish := by
  have turned {middle : Cache V} {other : Policy} {deadline : Deadline}
      (allowed : Uniform policy start (.begin key other deadline))
      (run : Run (Uniform policy) (start.begin key other deadline).2 middle)
      (turn : middle.turnCall? start.calls.size = some finish) : Run (Uniform policy) start finish := by
    have step : middle.step? (.call start.calls.size) = some finish := turn
    have next : Uniform policy middle (.call start.calls.size) := trivial
    exact .snoc ((Run.single allowed rfl).append run) next step
  cases reads with
  | atOnce allowed => exact .single allowed rfl
  | waited allowed run _ _ _ turn => exact turned allowed run turn
  | fellBack allowed _ run _ _ _ _ _ turn => exact turned allowed run turn

/-- A call returns a value which is at least as new as all that was known when the call began. -/
theorem Reads.recent (reads : Reads (Uniform policy) key start flight value finish)
    (reachable : Reachable (Uniform policy) start) :
    ∃ ended, Computed finish key flight value ended ∧ ∀ instant, NotOlder start key instant → instant ≤ ended := by
  have whole := reads.run
  cases reads with
  | atOnce _ found =>
    exact ⟨_, (reachable.computed_of_entryFor found).run whole, fun _ known => known.stored _ found⟩
  | fellBack _ found =>
    exact ⟨_, (reachable.computed_of_entryFor found).run whole, fun _ known => known.stored _ found⟩
  | @waited _ _ _ _ middle _ _ allowed run present waits told turn =>
    have reached := (reachable.step allowed rfl).extend run
    obtain ⟨named, begun⟩ := run.call_of_begin present
    obtain ⟨ended, computed, notBefore⟩ := reached.computed_of_told present waits told
    have step : middle.step? (.call start.calls.size) = some finish := turn
    refine ⟨ended, (named ▸ computed).step step, fun instant known => ?_⟩
    exact Nat.le_trans known.past (begun ▸ notBefore)

end

/-- From here on, reads never go backwards. -/
structure ReadsOrdered (rule : Rule V) (start : Cache V) : Prop where
  /-- A call that begins here and has returned a value has read it in one of the ways of `Reads`. -/
  read : ∀ (key : String) (policy : Policy) (deadline : Deadline) (cache : Cache V) (call : Call V) (value : V)
    (instant : Nat), rule start (.begin key policy deadline) → Run rule (start.begin key policy deadline).2 cache →
    cache.calls[start.calls.size]? = some call → call.phase = .returned (.ok value) instant →
    ∃ flight finish, Reads rule key start flight value finish ∧ Run rule finish cache
  /-- Once it has returned, calls on the key that begin then do not read a value which was computed earlier. -/
  ordered : ∀ (key : String) (finish later finish' cache : Cache V) (flight flight' : Nat) (value value' : V),
    Reads rule key start flight value finish → Run rule finish later →
    Reads rule key later flight' value' finish' → Run rule finish' cache →
    ∃ ended ended', Computed cache key flight value ended ∧ Computed cache key flight' value' ended' ∧ ended ≤ ended'

theorem readsOrdered_of_reachable {policy : Policy} {start : Cache V} (reachable : Reachable (Uniform policy) start) :
    ReadsOrdered (Uniform policy) start := by
  constructor
  · intro key other deadline cache call value instant allowed run present returned
    cases run.course allowed present with
    | read phase reads rest =>
      cases returned.symm.trans phase
      exact ⟨_, _, reads, rest⟩
    | waiting _ _ _ open_ => exact absurd returned (open_ _ _)
    | gone without => exact absurd returned (without _ _)
  · intro key finish later finish' cache flight flight' value value' first between second rest
    have told : Reachable (Uniform policy) finish := reachable.extend first.run
    obtain ⟨ended, computed, _⟩ := first.recent reachable
    obtain ⟨ended', computed', recent⟩ := second.recent (told.extend between)
    have known : NotOlder later key ended := (told.extend between).notOlder (computed.run between)
    exact ⟨ended, ended', computed.run (between.append (second.run.append rest)), computed'.run rest, recent _ known⟩

/-- A value is stored, and after a while a caller has it computed again. -/
def reread : List (Event Nat) :=
  [.begin "Oslo" lenient ⟨5000, ⟨[0]⟩⟩, .flight 0 none, .flight 0 (some (.value 7)), .call 0, .pass 10,
    .begin "Oslo" lenient ⟨5000, ⟨[0]⟩⟩, .flight 1 none, .flight 1 (some (.value 8)), .call 1]

theorem readsOrdered_reread :
    ∃ start cache : Cache Nat, (empty 1).step? (.scope none) = some start ∧ reread.foldlM step? start = some cache ∧
      cache.calls.toList.map Call.phase = [.returned (.ok 7) 0, .returned (.ok 8) 10] ∧
      Reachable (Uniform lenient) start ∧ ReadsOrdered (Uniform lenient) start := by
  have allowed : Uniform lenient (empty 1 : Cache Nat) (.scope none) := trivial
  have run : Run (Uniform lenient) (empty 1 : Cache Nat) _ := .single allowed rfl
  exact ⟨_, _, rfl, rfl, rfl, ⟨1, run⟩, readsOrdered_of_reachable ⟨1, run⟩⟩

end HedgedForecast.Cache
