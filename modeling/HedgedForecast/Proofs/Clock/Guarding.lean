import HedgedForecast.Clock.Board
import HedgedForecast.Proofs.Cache.Turns
import HedgedForecast.Proofs.Simulation

/-! # What ends guarded work

Guarded work is watched while others cancel scopes, make new ones and let time pass. As long as it is looked at in time
it ends with the first of three things: its scope is cancelled, its instant is reached, or the work has its result. Of
things that are seen together being cancelled comes before the instant, and that before the result; and work that is
too late from the beginning is never asked.
-/

namespace HedgedForecast.Board

variable {α : Type}

/-- Guarded work and what happened to it. -/
structure Watch (α : Type) where
  guarded : Guarded α
  begunAt : Nat
  /-- When its scope was cancelled, if it had not ended before. -/
  cancelledAt : Option Nat
  /-- When it ended. -/
  returnedAt : Option Nat := none

/-- What may happen while work is guarded. -/
inductive Watch.Event where
  /-- The work is looked at. -/
  | look
  /-- A cancellation that is due is carried out. -/
  | due
  | cancel (token : Token)
  | scope (parent : Option Token)
  | pass (instant : Nat)

/-- The clock of guarded work. -/
def Guarded.clock (guarded : Guarded α) : Clock :=
  guarded.board.clock

/-- Guarded work under another clock. -/
def Guarded.withClock (guarded : Guarded α) (clock : Clock) : Guarded α :=
  { guarded with board := { guarded.board with clock } }

/-- Guarded work after an event; what has ended is not looked at again. -/
def Guarded.after? (guarded : Guarded α) : Watch.Event → Option (Guarded α)
  | .look => if guarded.verdict.isSome then none else some guarded.look
  | .due => guarded.board.turn.map fun board => { guarded with board }
  | .cancel token => some (guarded.withClock (guarded.clock.cancel token))
  | .scope none => some (guarded.withClock guarded.clock.freshToken.2)
  | .scope (some parent) => some (guarded.withClock (guarded.clock.childToken parent).2)
  | .pass instant => some (guarded.withClock (guarded.clock.moveTo instant))

namespace Watch

/-- Work that begins under a deadline is watched. -/
def start (board : Board) (deadline : Deadline) (delay : Option Nat) (result : α) : Watch α where
  guarded := board.guarding deadline delay result
  begunAt := board.clock.now
  cancelledAt := if deadline.isCancelled board.clock then some board.clock.now else none

/-- The present instant. -/
def now (watch : Watch α) : Nat :=
  watch.guarded.clock.now

/-- Notes what became of guarded work that had not ended. -/
def note (watch : Watch α) (next : Guarded α) : Watch α :=
  if watch.guarded.verdict.isSome then { watch with guarded := next }
  else { watch with
    guarded := next
    cancelledAt := watch.cancelledAt.or (if next.deadline.isCancelled next.clock then some next.clock.now else none)
    returnedAt := if next.verdict.isSome then some next.clock.now else none }

/-- Time passes only when looking at the work would tell nothing, and not beyond the next instant at which it would. -/
def Prompt (watch : Watch α) : Event → Prop
  | .pass instant => watch.guarded.verdict = none → watch.guarded.look.verdict = none ∧
      instant ≤ watch.guarded.deadline.instant ∧ ∀ due ∈ watch.guarded.work.due, instant ≤ due
  | _ => True

/-- Events lead from one state to the other, and the work is looked at in time. -/
inductive Run (source : Watch α) : Watch α → Prop
  | nil : Run source source
  | snoc {middle : Watch α} {event : Event} {next : Guarded α} (run : Run source middle) (prompt : middle.Prompt event)
      (step : middle.guarded.after? event = some next) : Run source (middle.note next)

/-- What may end guarded work, and when. -/
structure Times (α : Type) where
  begunAt : Nat
  cancelledAt : Option Nat
  expiresAt : Nat
  due : Option Nat
  result : α

/-- What may end the work as far as it has happened or is known. -/
def times (watch : Watch α) : Times α :=
  ⟨watch.begunAt, watch.cancelledAt, watch.guarded.deadline.instant, watch.guarded.work.due, watch.guarded.work.result⟩

/-- Something that ends the work, with its instant and its place among things that are seen together. -/
inductive Times.Occurs (times : Times α) : Nat → Nat → GuardEnd α → Prop
  | cancelled {instant : Nat} (cancelled : times.cancelledAt = some instant) : Occurs times instant 0 .cancelled
  | expired : Occurs times (max times.begunAt times.expiresAt) 1 .expired
  | done {instant : Nat} (due : times.due = some instant) :
      Occurs times (max times.begunAt instant) 2 (.done times.result)

/-- What ends the work before anything else that would. -/
structure Times.First (times : Times α) (instant order : Nat) (verdict : GuardEnd α) : Prop where
  occurs : times.Occurs instant order verdict
  least : ∀ instant' order' verdict', times.Occurs instant' order' verdict' →
    instant < instant' ∨ instant = instant' ∧ order ≤ order'

/-- Work that is looked at in time ends with what comes first. -/
structure Timely (watch : Watch α) : Prop where
  begun : watch.begunAt ≤ watch.now
  ahead : watch.guarded.verdict = none → watch.now ≤ max watch.begunAt watch.guarded.deadline.instant ∧
    ∀ due ∈ watch.guarded.work.due, watch.now ≤ max watch.begunAt due
  /-- That the scope was cancelled is seen before time passes. -/
  cancelled : watch.guarded.verdict = none → watch.cancelledAt =
    if watch.guarded.deadline.isCancelled watch.guarded.clock then some watch.now else none
  decided : ∀ verdict, watch.guarded.verdict = some verdict →
    ∃ instant order, watch.returnedAt = some instant ∧ watch.times.First instant order verdict

end Watch

/-- How work ends that begins on a board under a deadline, takes that time by itself, if it ends at all, and has that
result. -/
structure Decided (board : Board) (deadline : Deadline) (delay : Option Nat) (result : α) : Prop where
  /-- What may end it is its cancellation, its deadline, and its own end. -/
  times : ∀ watch, Watch.Run (.start board deadline delay result) watch → watch.times =
    ⟨board.clock.now, watch.cancelledAt, deadline.instant, delay.map (board.clock.now + ·), result⟩
  /-- As long as it has not ended, cancelling its scope or one around it counts as its cancellation, and nothing else
  does. -/
  cancelled : ∀ watch, Watch.Run (.start board deadline delay result) watch → watch.guarded.verdict = none →
    ∀ token : Token,
      (watch.note (watch.guarded.withClock (watch.guarded.clock.cancel token))).cancelledAt.isSome = true ↔
        watch.cancelledAt.isSome = true ∨ ∃ number ∈ token.lineage.head?, number ∈ deadline.token.lineage
  /-- It ends with what comes first, at its instant. -/
  first : ∀ watch, Watch.Run (.start board deadline delay result) watch →
    ∀ verdict, watch.guarded.verdict = some verdict →
      ∃ instant order, watch.returnedAt = some instant ∧ watch.times.First instant order verdict
  /-- Until then time does not pass anything that would end it. -/
  awaited : ∀ watch, Watch.Run (.start board deadline delay result) watch → watch.guarded.verdict = none →
    ∀ instant order verdict, watch.times.Occurs instant order verdict → watch.now ≤ instant
  /-- The work is not asked if its scope was cancelled or its instant reached when it began. -/
  unasked : deadline.isCancelled board.clock = true ∨ deadline.instant ≤ board.clock.now →
    ∀ watch, Watch.Run (.start board deadline delay result) watch → watch.guarded.work.asked = false
  /-- A board brings it to its end. -/
  ends : ∃ watch verdict, Watch.Run (.start board deadline delay result) watch ∧
    watch.guarded.verdict = some verdict ∧ watch.returnedAt = some watch.now ∧
    board.guard deadline delay result = (watch.guarded.board, some verdict)

section Looking

variable {guarded next : Guarded α}

theorem look_verdict (guarded : Guarded α) : guarded.look.verdict =
    guarded.deadline.verdict guarded.clock (TimedWork.ask guarded.clock.now guarded.work).1 :=
  Deadline.poll_fst guarded.clock guarded.deadline (TimedWork.ask guarded.clock.now) guarded.work

theorem look_work (guarded : Guarded α) :
    guarded.look.work.due = guarded.work.due ∧ guarded.look.work.result = guarded.work.result := by
  unfold Guarded.look Deadline.poll
  simp only
  split
  · exact ⟨rfl, rfl⟩
  · split <;> exact ⟨rfl, rfl⟩

/-- Work that is too late is not asked, and ends. -/
theorem look_of_over (past : guarded.deadline.isCancelled guarded.clock = true ∨
    guarded.deadline.instant ≤ guarded.clock.now) :
    guarded.look.work = guarded.work ∧ guarded.look.verdict.isSome = true := by
  unfold Guarded.look Deadline.poll
  simp only [Guarded.clock] at past
  simp only
  split
  · exact ⟨rfl, rfl⟩
  · next uncancelled =>
    rw [if_pos (show guarded.deadline.isExpired guarded.board.clock = true from
      decide_eq_true (past.resolve_left uncancelled))]
    exact ⟨rfl, rfl⟩

theorem ask_eq_none_iff {work : TimedWork α} {now : Nat} :
    (TimedWork.ask now work).1 = none ↔ ∀ due ∈ work.due, now < due := by
  unfold TimedWork.ask
  cases work.due with
  | none => simp
  | some due => simp

theorem ask_eq_some {work : TimedWork α} {now : Nat} {result : α} (told : (TimedWork.ask now work).1 = some result) :
    result = work.result ∧ ∃ due, work.due = some due ∧ due ≤ now := by
  unfold TimedWork.ask at told
  cases own : work.due with
  | none => simp [own] at told
  | some due =>
    simp only [own, Option.any_some, decide_eq_true_eq] at told
    split at told
    · next past => exact ⟨(Option.some.inj told).symm, due, rfl, past⟩
    · contradiction

/-- Looking tells nothing as long as none of the three things is there. -/
theorem look_eq_none_iff : guarded.look.verdict = none ↔ guarded.deadline.isCancelled guarded.clock = false ∧
    guarded.clock.now < guarded.deadline.instant ∧ ∀ due ∈ guarded.work.due, guarded.clock.now < due := by
  rw [look_verdict, Deadline.verdict_eq_none_iff, ask_eq_none_iff]

theorem turn_clock {board after : Board} (turn : board.turn = some after) :
    ∃ token, after.clock = board.clock.cancel token := by
  obtain ⟨⟨token, rest⟩, _, rfl⟩ := Option.map_eq_some_iff.mp turn
  exact ⟨token, rfl⟩

/-- Others cancel scopes and make new ones, but the work stays what it is. -/
structure Disturbed (guarded next : Guarded α) : Prop where
  deadline : next.deadline = guarded.deadline
  work : next.work = guarded.work
  verdict : next.verdict = guarded.verdict
  now : next.clock.now = guarded.clock.now
  cancelled : guarded.deadline.isCancelled guarded.clock = true → guarded.deadline.isCancelled next.clock = true

/-- An event is a look, a disturbance or a move of time. -/
theorem after?_cases {event : Watch.Event} (step : guarded.after? event = some next) :
    guarded.verdict = none ∧ next = guarded.look ∨ Disturbed guarded next ∨
      ∃ instant, event = .pass instant ∧ next = guarded.withClock (guarded.clock.moveTo instant) := by
  cases event with
  | look =>
    simp only [Guarded.after?] at step
    split at step
    · contradiction
    · next undecided => exact .inl ⟨by simpa using undecided, (Option.some.inj step).symm⟩
  | due =>
    obtain ⟨board, turn, rfl⟩ := Option.map_eq_some_iff.mp step
    obtain ⟨token, clock⟩ := turn_clock turn
    refine .inr (.inl ⟨rfl, rfl, rfl, ?_, fun cancelled => ?_⟩)
    · exact (congrArg Clock.now clock :)
    · rw [Guarded.clock, clock]
      exact Clock.isCancelled_cancel_of_isCancelled cancelled
  | cancel token =>
    cases step
    exact .inr (.inl ⟨rfl, rfl, rfl, rfl, Clock.isCancelled_cancel_of_isCancelled⟩)
  | scope parent =>
    cases parent with
    | none => cases step; exact .inr (.inl ⟨rfl, rfl, rfl, rfl, id⟩)
    | some parent => cases step; exact .inr (.inl ⟨rfl, rfl, rfl, rfl, id⟩)
  | pass instant => exact .inr (.inr ⟨instant, rfl, (Option.some.inj step).symm⟩)

end Looking

namespace Watch

variable {board : Board} {deadline : Deadline} {delay : Option Nat} {result : α} {watch : Watch α}

theorem note_of_undecided (undecided : watch.guarded.verdict = none) (next : Guarded α) :
    watch.note next = { watch with
      guarded := next
      cancelledAt := watch.cancelledAt.or (if next.deadline.isCancelled next.clock then some next.clock.now else none)
      returnedAt := if next.verdict.isSome then some next.clock.now else none } := by
  rw [note, undecided]
  rfl

theorem note_of_decided (decided : watch.guarded.verdict.isSome = true) (next : Guarded α) :
    watch.note next = { watch with guarded := next } := by
  rw [note, if_pos decided]

namespace Timely

theorem start (board : Board) (deadline : Deadline) (delay : Option Nat) (result : α) :
    Timely (Watch.start board deadline delay result) := by
  refine ⟨Nat.le_refl _, fun _ => ⟨Nat.le_max_left .., fun _ _ => Nat.le_max_left ..⟩, fun _ => rfl, nofun⟩

/-- What would end work that has not ended happens now or later. -/
theorem le_of_occurs (timely : watch.Timely) (undecided : watch.guarded.verdict = none) {instant order : Nat}
    {verdict : GuardEnd α} (occurs : watch.times.Occurs instant order verdict) : watch.now ≤ instant := by
  cases occurs with
  | cancelled cancelled =>
    have seen := timely.cancelled undecided
    rw [show watch.cancelledAt = some instant from cancelled] at seen
    split at seen
    · exact Nat.le_of_eq (Option.some.inj seen).symm
    · contradiction
  | expired => exact (timely.ahead undecided).1
  | done due => exact (timely.ahead undecided).2 _ due

/-- What is seen when the work ends comes first. -/
theorem first (timely : watch.Timely) (undecided : watch.guarded.verdict = none) {verdict : GuardEnd α}
    (told : watch.guarded.look.verdict = some verdict) : ∃ order, watch.times.First watch.now order verdict := by
  have begun := timely.begun
  have ahead := timely.ahead undecided
  have seen := timely.cancelled undecided
  have least {instant order : Nat} {verdict' : GuardEnd α} (occurs : watch.times.Occurs instant order verdict') :=
    timely.le_of_occurs undecided occurs
  rw [look_verdict] at told
  rcases Deadline.verdict_cases told with ⟨cancelled, rfl⟩ | ⟨uncancelled, past, rfl⟩ |
    ⟨uncancelled, early, own, own', rfl⟩
  · rw [if_pos cancelled] at seen
    refine ⟨0, .cancelled seen, fun instant order verdict' occurs => ?_⟩
    have := least occurs
    omega
  · rw [if_neg (Bool.eq_false_iff.mp uncancelled)] at seen
    have same : watch.now = max watch.begunAt watch.guarded.deadline.instant :=
      Nat.le_antisymm ahead.1 (Nat.max_le.mpr ⟨begun, past⟩)
    refine ⟨1, same ▸ .expired, fun instant order verdict' occurs => ?_⟩
    have := least occurs
    cases occurs with
    | cancelled cancelled => rw [show watch.cancelledAt = some instant from cancelled] at seen; contradiction
    | expired => omega
    | done => omega
  · rw [if_neg (Bool.eq_false_iff.mp uncancelled)] at seen
    obtain ⟨rfl, due, known, past⟩ := ask_eq_some own'
    have same : watch.now = max watch.begunAt due :=
      Nat.le_antisymm (ahead.2 due known) (Nat.max_le.mpr ⟨begun, past⟩)
    refine ⟨2, same ▸ .done known, fun instant order verdict' occurs => ?_⟩
    have := least occurs
    cases occurs with
    | cancelled cancelled => rw [show watch.cancelledAt = some instant from cancelled] at seen; contradiction
    | expired => exact .inl (Nat.lt_of_lt_of_le early (Nat.le_max_right ..))
    | done => omega

theorem look (timely : watch.Timely) (undecided : watch.guarded.verdict = none) :
    (watch.note watch.guarded.look).Timely := by
  obtain ⟨due, own⟩ := look_work watch.guarded
  have seen := timely.cancelled undecided
  have kept : watch.cancelledAt.or (if watch.guarded.deadline.isCancelled watch.guarded.clock then
      some watch.now else none) = watch.cancelledAt := by
    rw [seen]
    split <;> rfl
  have same : (watch.note watch.guarded.look).times = watch.times := by
    rw [note_of_undecided undecided, times, times, due, own]
    exact congrArg (Times.mk _ · _ _ _) kept
  constructor
  · rw [note_of_undecided undecided]
    exact timely.begun
  · intro _
    rw [note_of_undecided undecided]
    simp only [due]
    exact timely.ahead undecided
  · intro _
    rw [note_of_undecided undecided]
    exact kept.trans seen
  · intro verdict told
    rw [same]
    rw [note_of_undecided undecided] at told ⊢
    obtain ⟨order, first⟩ := timely.first undecided told
    exact ⟨watch.now, order, if_pos (Option.isSome_iff_exists.mpr ⟨verdict, told⟩), first⟩

theorem disturb (timely : watch.Timely) {next : Guarded α} (disturbed : Disturbed watch.guarded next) :
    (watch.note next).Timely := by
  obtain ⟨deadline, work, verdict, now, cancelled⟩ := disturbed
  cases decided : watch.guarded.verdict with
  | some _ =>
    rw [note_of_decided (by rw [decided]; rfl)]
    refine ⟨?_, ?_, ?_, ?_⟩
    · simp only [Watch.now, now]
      exact timely.begun
    · exact fun undecided => by rw [verdict, decided] at undecided; contradiction
    · exact fun undecided => by rw [verdict, decided] at undecided; contradiction
    · rw [times, deadline, work, verdict]
      exact timely.decided
  | none =>
    have seen := timely.cancelled decided
    rw [note_of_undecided decided]
    refine ⟨?_, fun _ => ?_, fun _ => ?_, fun own told => ?_⟩
    · simp only [Watch.now, now]
      exact timely.begun
    · simp only [Watch.now, now, deadline, work]
      exact timely.ahead decided
    · simp only [seen, deadline, Watch.now, now]
      cases before : watch.guarded.deadline.isCancelled watch.guarded.clock with
      | true => rw [cancelled before]; rfl
      | false => rfl
    · rw [verdict, decided] at told
      contradiction

theorem pass (timely : watch.Timely) {instant : Nat} (prompt : watch.Prompt (.pass instant)) :
    (watch.note (watch.guarded.withClock (watch.guarded.clock.moveTo instant))).Timely := by
  have later : watch.now ≤ max watch.now instant := Nat.le_max_left ..
  cases decided : watch.guarded.verdict with
  | some _ =>
    rw [note_of_decided (by rw [decided]; rfl)]
    refine ⟨Nat.le_trans timely.begun later, ?_, ?_, timely.decided⟩
    · exact fun undecided => by rw [show watch.guarded.verdict = none from undecided] at decided; contradiction
    · exact fun undecided => by rw [show watch.guarded.verdict = none from undecided] at decided; contradiction
  | none =>
    obtain ⟨quiet, early, early'⟩ := prompt decided
    obtain ⟨uncancelled, expires, due⟩ := look_eq_none_iff.mp quiet
    have seen := timely.cancelled decided
    rw [if_neg (Bool.eq_false_iff.mp uncancelled)] at seen
    have still : (watch.guarded.withClock (watch.guarded.clock.moveTo instant)).deadline.isCancelled
        (watch.guarded.withClock (watch.guarded.clock.moveTo instant)).clock = false := uncancelled
    rw [note_of_undecided decided]
    refine ⟨Nat.le_trans timely.begun later, fun _ => ⟨?_, fun own known => ?_⟩, fun _ => ?_, fun own told => ?_⟩
    · exact Nat.le_trans (Nat.max_le.mpr ⟨Nat.le_of_lt expires, early⟩) (Nat.le_max_right ..)
    · exact Nat.le_trans (Nat.max_le.mpr ⟨Nat.le_of_lt (due own known), early' own known⟩) (Nat.le_max_right ..)
    · simp only [seen, still]
      rfl
    · rw [show (watch.guarded.withClock (watch.guarded.clock.moveTo instant)).verdict = none from decided] at told
      contradiction

theorem step (timely : watch.Timely) {event : Event} {next : Guarded α} (prompt : watch.Prompt event)
    (step : watch.guarded.after? event = some next) : (watch.note next).Timely := by
  rcases after?_cases step with ⟨undecided, rfl⟩ | disturbed | ⟨instant, rfl, rfl⟩
  · exact timely.look undecided
  · exact timely.disturb disturbed
  · exact timely.pass prompt

theorem run {source : Watch α} (timely : source.Timely) (run : Run source watch) : watch.Timely := by
  induction run with
  | nil => exact timely
  | snoc _ prompt step ih => exact ih.step prompt step

end Timely

theorem note_guarded (watch : Watch α) (next : Guarded α) : (watch.note next).guarded = next := by
  unfold note
  split <;> rfl

/-- The work is about the deadline and what it was to begin with. -/
structure About (watch : Watch α) (board : Board) (deadline : Deadline) (delay : Option Nat) (result : α) : Prop where
  begunAt : watch.begunAt = board.clock.now
  deadline : watch.guarded.deadline = deadline
  due : watch.guarded.work.due = delay.map (board.clock.now + ·)
  result : watch.guarded.work.result = result

theorem About.step (about : watch.About board deadline delay result) {event : Event} {next : Guarded α}
    (step : watch.guarded.after? event = some next) : (watch.note next).About board deadline delay result := by
  have begun : (watch.note next).begunAt = watch.begunAt := by
    unfold note
    split <;> rfl
  obtain ⟨deadline', due, own⟩ : next.deadline = watch.guarded.deadline ∧ next.work.due = watch.guarded.work.due ∧
      next.work.result = watch.guarded.work.result := by
    rcases after?_cases step with ⟨undecided, rfl⟩ | disturbed | ⟨instant, rfl, rfl⟩
    · exact ⟨rfl, look_work watch.guarded⟩
    · exact ⟨disturbed.deadline, by rw [disturbed.work], by rw [disturbed.work]⟩
    · exact ⟨rfl, rfl, rfl⟩
  refine ⟨begun.trans about.begunAt, ?_, ?_, ?_⟩ <;> rw [note_guarded]
  · exact deadline'.trans about.deadline
  · exact due.trans about.due
  · exact own.trans about.result

theorem about_of_run (run : Run (.start board deadline delay result) watch) :
    watch.About board deadline delay result := by
  induction run with
  | nil => exact ⟨rfl, rfl, rfl, rfl⟩
  | snoc _ _ step ih => exact ih.step step

/-- A cancellation is noted if it reaches the scope of the work. -/
theorem cancelledAt_cancel (timely : watch.Timely) (undecided : watch.guarded.verdict = none) (token : Token) :
    (watch.note (watch.guarded.withClock (watch.guarded.clock.cancel token))).cancelledAt.isSome = true ↔
      watch.cancelledAt.isSome = true ∨
        ∃ number ∈ token.lineage.head?, number ∈ watch.guarded.deadline.token.lineage := by
  have seen : watch.cancelledAt.isSome = true ↔ watch.guarded.deadline.isCancelled watch.guarded.clock = true := by
    rw [timely.cancelled undecided]
    split <;> simp_all
  have noted : (watch.note (watch.guarded.withClock (watch.guarded.clock.cancel token))).cancelledAt =
      watch.cancelledAt.or (if watch.guarded.deadline.isCancelled (watch.guarded.clock.cancel token) then
        some watch.now else none) := by
    rw [note_of_undecided undecided]
    rfl
  have reaches : watch.guarded.deadline.isCancelled (watch.guarded.clock.cancel token) = true ↔ _ :=
    Clock.isCancelled_cancel_iff
  rw [noted, Option.isSome_or, Bool.or_eq_true, seen, Option.isSome_ite, reaches]
  exact ⟨fun either => either.elim .inl id, fun either => .inr either⟩

/-- The work has not been asked, and cannot be any more. -/
structure TooLate (watch : Watch α) : Prop where
  unasked : watch.guarded.work.asked = false
  past : watch.guarded.verdict = none → watch.guarded.deadline.isCancelled watch.guarded.clock = true ∨
    watch.guarded.deadline.instant ≤ watch.guarded.clock.now

theorem TooLate.step (late : watch.TooLate) {event : Event} {next : Guarded α}
    (step : watch.guarded.after? event = some next) : (watch.note next).TooLate := by
  refine ⟨?_, ?_⟩ <;> rw [note_guarded]
  · rcases after?_cases step with ⟨undecided, rfl⟩ | disturbed | ⟨instant, rfl, rfl⟩
    · rw [(look_of_over (late.past undecided)).1]
      exact late.unasked
    · rw [disturbed.work]
      exact late.unasked
    · exact late.unasked
  · rcases after?_cases step with ⟨undecided, rfl⟩ | disturbed | ⟨instant, rfl, rfl⟩
    · intro absurd
      have decided := (look_of_over (late.past undecided)).2
      rw [absurd] at decided
      contradiction
    · intro undecided
      rw [disturbed.deadline, disturbed.now]
      exact (late.past (disturbed.verdict ▸ undecided)).imp_left disturbed.cancelled
    · exact fun undecided => (late.past undecided).imp_right (Nat.le_trans · (Nat.le_max_left ..))

theorem TooLate.run {source : Watch α} (late : source.TooLate) (run : Run source watch) : watch.TooLate := by
  induction run with
  | nil => exact late
  | snoc _ _ step ih => exact ih.step step

end Watch

namespace Guarded

variable {guarded next : Guarded α}

/-- What is still to happen at the present instant. -/
def rank (guarded : Guarded α) : Nat :=
  guarded.board.dueCancellations.length + if guarded.verdict.isSome then 0 else 1

theorem takeDue?_length {now : Nat} {due rest : List (Nat × Token)} {token : Token}
    (taken : takeDue? now due = some (token, rest)) : due.length = rest.length + 1 := by
  induction due generalizing rest with
  | nil => contradiction
  | cons first due ih =>
    unfold takeDue? at taken
    split at taken
    · cases taken
      rfl
    · obtain ⟨⟨found, others⟩, taken', same⟩ := Option.map_eq_some_iff.mp taken
      cases same
      rw [List.length_cons, ih taken', List.length_cons]

/-- A turn carries out a cancellation, or the work ends. -/
theorem turn_cases (turn : (simulation α).turn guarded = some next) : guarded.verdict = none ∧
    ((∃ board, guarded.board.turn = some board ∧ next = { guarded with board }) ∨
      guarded.board.turn = none ∧ next = guarded.look ∧ guarded.look.verdict.isSome = true) := by
  simp only [simulation] at turn
  split at turn
  · contradiction
  · next undecided =>
    refine ⟨by simpa using undecided, ?_⟩
    split at turn
    · next board due => exact .inl ⟨board, due, (Option.some.inj turn).symm⟩
    · next still =>
      split at turn
      · next told => exact .inr ⟨still, (Option.some.inj turn).symm, told⟩
      · contradiction

theorem ranked (α : Type) : (simulation α).Ranked (fun _ => True) rank where
  turned guarded next _ turn := by
    refine ⟨trivial, ?_⟩
    obtain ⟨undecided, ⟨board, turned, rfl⟩ | ⟨_, rfl, told⟩⟩ := turn_cases turn
    · obtain ⟨⟨token, rest⟩, taken, rfl⟩ := Option.map_eq_some_iff.mp turned
      simp only [rank, undecided, takeDue?_length taken]
      omega
    · have same : guarded.look.board = guarded.board := rfl
      simp [rank, same, told, undecided]
  moved _ _ _ := ⟨trivial, rfl⟩

theorem takeDue?_eq_none_iff {now : Nat} {due : List (Nat × Token)} :
    takeDue? now due = none ↔ ∀ later ∈ due, now < later.1 := by
  induction due with
  | nil => simp [takeDue?]
  | cons first due ih =>
    unfold takeDue?
    split
    · next past => simpa using fun early : now < first.1 => absurd past (Nat.not_le.mpr early)
    · next early => simp [ih, Nat.lt_of_not_le early]

theorem turn_eq_none_iff : (simulation α).turn guarded = none ↔ guarded.verdict.isSome = true ∨
    (∀ later ∈ guarded.board.dueCancellations, guarded.clock.now < later.1) ∧ guarded.look.verdict = none := by
  have idle : guarded.board.turn = none ↔ ∀ later ∈ guarded.board.dueCancellations, guarded.clock.now < later.1 :=
    Option.map_eq_none_iff.trans takeDue?_eq_none_iff
  simp only [simulation, ← idle]
  cases guarded.verdict with
  | some _ => simp
  | none => cases guarded.board.turn <;> cases guarded.look.verdict <;> simp

/-- As long as the work has not ended the next instant at which something is due comes. -/
theorem goes (α : Type) : (simulation α).Goes (fun _ => True) (·.verdict.isNone) := by
  intro guarded _ settled undecided
  have undecided : guarded.verdict = none := by simpa using undecided
  obtain ⟨idle, quiet⟩ : (∀ later ∈ guarded.board.dueCancellations, guarded.clock.now < later.1) ∧
      guarded.look.verdict = none := by
    simpa [undecided] using turn_eq_none_iff.mp (Option.isNone_iff_eq_none.mp settled)
  obtain ⟨_, early, due⟩ := look_eq_none_iff.mp quiet
  have expires : guarded.deadline.instant ∈ guarded.deadline.instant :: guarded.work.due.toList ++
      guarded.board.dueCancellations.map (·.1) := List.mem_append_left _ List.mem_cons_self
  obtain ⟨instant, timer, _⟩ := earliestAfter_of_mem expires early
  refine ⟨instant, timer, ?_⟩
  obtain ⟨⟨member, ahead⟩, _⟩ := earliestAfter_eq_some_iff.mp timer
  have moved : ((simulation α).moveTo instant guarded).clock.now = instant := Nat.max_eq_right (Nat.le_of_lt ahead)
  rw [Simulation.isSettled, Bool.eq_false_iff, ne_eq, Option.isNone_iff_eq_none, turn_eq_none_iff, not_or, not_and]
  refine ⟨?_, fun idle' quiet' => ?_⟩
  · rw [show ((simulation α).moveTo instant guarded).verdict = none from undecided]
    exact Bool.false_ne_true
  obtain ⟨_, early', due'⟩ := look_eq_none_iff.mp quiet'
  rw [moved] at early' due' idle'
  rcases List.mem_append.mp member with own | cancels
  · rcases List.mem_cons.mp own with rfl | finishes
    · exact Nat.lt_irrefl _ early'
    · exact Nat.lt_irrefl _ (due' instant (Option.mem_toList.mp finishes))
  · obtain ⟨later, there, rfl⟩ := List.mem_map.mp cancels
    exact Nat.lt_irrefl _ (idle' later there)

/-- What a board makes of guarded work is a run that is looked at in time, and stops when the work ends. -/
def Reached (start : Watch α) (guarded : Guarded α) : Prop :=
  ∃ watch, Watch.Run start watch ∧ watch.guarded = guarded ∧
    (guarded.verdict.isSome = true → watch.returnedAt = some watch.now)

theorem Reached.look {start : Watch α} (reached : Reached start guarded) (undecided : guarded.verdict = none) :
    Reached start guarded.look := by
  obtain ⟨watch, run, rfl, _⟩ := reached
  have step : watch.guarded.after? .look = some watch.guarded.look := by
    rw [after?, undecided]
    rfl
  have prompt : watch.Prompt .look := trivial
  refine ⟨_, run.snoc prompt step, watch.note_guarded _, fun told => ?_⟩
  rw [Watch.note_of_undecided undecided]
  exact if_pos told

theorem Reached.turn {start : Watch α} (reached : Reached start guarded)
    (turn : (simulation α).turn guarded = some next) : Reached start next := by
  obtain ⟨undecided, ⟨board, turned, rfl⟩ | ⟨_, rfl, _⟩⟩ := turn_cases turn
  · obtain ⟨watch, run, rfl, _⟩ := reached
    have step : watch.guarded.after? .due = some { watch.guarded with board } := by
      rw [after?, turned]
      rfl
    have prompt : watch.Prompt .due := trivial
    refine ⟨_, run.snoc prompt step, watch.note_guarded _, fun told => ?_⟩
    rw [show ({ watch.guarded with board } : Guarded α).verdict = none from undecided] at told
    contradiction
  · exact reached.look undecided

theorem Reached.moveTo {start : Watch α} {instant : Nat} (reached : Reached start guarded)
    (settled : (simulation α).isSettled guarded = true) (undecided : guarded.verdict.isNone = true)
    (timer : (simulation α).nextTimer guarded = some instant) :
    Reached start ((simulation α).moveTo instant guarded) := by
  obtain ⟨watch, run, rfl, _⟩ := reached
  have undecided : watch.guarded.verdict = none := by simpa using undecided
  obtain ⟨_, quiet⟩ : (∀ later ∈ watch.guarded.board.dueCancellations, watch.guarded.clock.now < later.1) ∧
      watch.guarded.look.verdict = none := by
    simpa [undecided] using turn_eq_none_iff.mp (Option.isNone_iff_eq_none.mp settled)
  obtain ⟨_, early, due⟩ := look_eq_none_iff.mp quiet
  obtain ⟨_, least⟩ := earliestAfter_eq_some_iff.mp timer
  have prompt : watch.Prompt (.pass instant) := by
    refine fun _ => ⟨quiet, least _ (List.mem_append_left _ List.mem_cons_self) early, fun own known => ?_⟩
    exact least own (List.mem_append_left _ (List.mem_cons_of_mem _ (Option.mem_toList.mpr known))) (due own known)
  refine ⟨_, run.snoc prompt rfl, watch.note_guarded _, fun told => ?_⟩
  rw [show ((simulation α).moveTo instant watch.guarded).verdict = none from undecided] at told
  contradiction

/-- Guarded work that has not ended is brought to its end. -/
theorem exists_run (start : Watch α) (undecided : start.guarded.verdict = none) :
    start.guarded.run.verdict.isSome = true ∧ Reached start start.guarded.run := by
  have looked : Reached start start.guarded.look := by
    have here : Reached start start.guarded :=
      ⟨start, .nil, rfl, fun told => by rw [undecided] at told; contradiction⟩
    exact here.look undecided
  have enough : rank start.guarded.look < start.guarded.board.dueCancellations.length + 3 := by
    have same : start.guarded.look.board = start.guarded.board := rfl
    unfold rank
    rw [same]
    split <;> omega
  constructor
  · have ended := (ranked α).runWhile_ends (goes α) trivial enough (.inl enough)
    simpa [run] using ended
  · exact (ranked α).runWhile_kept (fun _ _ => Reached.turn) (fun _ _ => Reached.moveTo) trivial (Nat.le_of_lt enough)
      looked

end Guarded

/-- Guarded work ends with the first of its cancellation, its instant and its own end, and when it began too late it is
never asked. -/
theorem decided_guarding (board : Board) (deadline : Deadline) (delay : Option Nat) (result : α) :
    Decided board deadline delay result where
  times watch run := by
    obtain ⟨begun, deadline, due, own⟩ := Watch.about_of_run run
    rw [Watch.times, begun, deadline, due, own]
  cancelled watch run undecided token :=
    (Watch.about_of_run run).deadline ▸ Watch.cancelledAt_cancel ((Watch.Timely.start ..).run run) undecided token
  first watch run := ((Watch.Timely.start ..).run run).decided
  awaited watch run undecided _ _ _ occurs := ((Watch.Timely.start ..).run run).le_of_occurs undecided occurs
  unasked past watch run := by
    have late : (Watch.start board deadline delay result).TooLate := ⟨rfl, fun _ => past⟩
    exact (late.run run).unasked
  ends := by
    obtain ⟨ended, watch, run, same, returned⟩ :=
      Guarded.exists_run (Watch.start board deadline delay result) rfl
    obtain ⟨verdict, told⟩ := Option.isSome_iff_exists.mp ended
    refine ⟨watch, verdict, run, same ▸ told, returned ended, ?_⟩
    rw [same]
    exact congrArg (Prod.mk _) told

end HedgedForecast.Board
