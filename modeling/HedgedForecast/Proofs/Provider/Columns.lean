import HedgedForecast.Provider.OpenMeteo

/-! # Columns of different lengths

The columns of an answer may end early, go on behind the last date and have gaps anywhere. A date has its day exactly if
a maximum and a minimum stand at its own place, and the day holds nothing from another place. One date without them
leaves no days at all, and the first such date is named.
-/

namespace HedgedForecast.OpenMeteo

namespace Columns

/-- Both temperatures stand at the place. -/
structure HasTemperatures (columns : Columns) (place : Nat) : Prop where
  maximum : ∃ maximum, columns.maxima[place]? = some (some maximum)
  minimum : ∃ minimum, columns.minima[place]? = some (some minimum)

/-- The day holds what the columns have at the place, and what is made up for the columns that have nothing there. -/
structure IsDayAt (columns : Columns) (place : Nat) (day : ForecastDay) : Prop where
  date : columns.dates[place]? = some day.date
  maximum : columns.maxima[place]? = some (some day.maximum)
  minimum : columns.minima[place]? = some (some day.minimum)
  mean : ∀ mean, columns.means[place]? = some (some mean) → day.average = mean
  /-- Without a mean the average lies in the middle. -/
  middle : (∀ mean, columns.means[place]? ≠ some (some mean)) → day.average = (day.maximum + day.minimum) / 2.0
  coded : ∀ code, columns.codes[place]? = some (some code) → day.condition = (Condition.ofCode code).description
  /-- Without a code it is clear. -/
  uncoded : (∀ code, columns.codes[place]? ≠ some (some code)) → day.condition = Condition.clear.description

/-- The columns have the same dates, and the same entries at the places of the dates. -/
structure Agrees (columns other : Columns) : Prop where
  dates : columns.dates = other.dates
  codes : ∀ place < other.dates.length, columns.codes[place]? = other.codes[place]?
  maxima : ∀ place < other.dates.length, columns.maxima[place]? = other.maxima[place]?
  minima : ∀ place < other.dates.length, columns.minima[place]? = other.minima[place]?
  means : ∀ place < other.dates.length, columns.means[place]? = other.means[place]?

end Columns

section Place

variable {α : Type} {column : List (Option α)} {columns : Columns} {place : Nat} {date : Date} {day : ForecastDay}
  {failure : Failure}

theorem at?_eq_some_iff {value : α} : at? column place = some value ↔ column[place]? = some (some value) := by
  rw [at?, Option.join_eq_some_iff]

/-- Nothing stands at a place behind the end of the column, nor in a gap. -/
theorem at?_eq_none_iff : at? column place = none ↔ ∀ value, column[place]? ≠ some (some value) := by
  simp only [Option.eq_none_iff_forall_ne_some, ne_eq, at?_eq_some_iff]

/-- What a column has at a place is taken, and something else is made up where it has nothing. -/
theorem eq_getD_at?_iff {value made : α} : value = (at? column place).getD made ↔
    (∀ found, column[place]? = some (some found) → value = found) ∧
      ((∀ found, column[place]? ≠ some (some found)) → value = made) := by
  rw [← at?_eq_none_iff]
  simp only [← at?_eq_some_iff]
  cases at? column place <;> simp

theorem dayAt_eq_ok_iff (stands : columns.dates[place]? = some date) :
    dayAt columns place date = .ok day ↔ columns.IsDayAt place day := by
  have average := @eq_getD_at?_iff _ columns.means place day.average ((day.maximum + day.minimum) / 2.0)
  constructor
  · intro made
    unfold dayAt at made
    split at made
    · next maximum minimum high low =>
      cases made
      refine ⟨stands, at?_eq_some_iff.mp high, at?_eq_some_iff.mp low, (average.mp rfl).1, (average.mp rfl).2, ?_, ?_⟩
      · intro code found
        simp only [at?_eq_some_iff.mpr found, Option.map_some, Option.getD_some]
      · intro none
        simp only [at?_eq_none_iff.mpr none, Option.map_none, Option.getD_none]
    · contradiction
  · rintro ⟨own, high, low, mean, middle, coded, uncoded⟩
    obtain rfl : date = day.date := Option.some.inj (stands.symm.trans own)
    have condition :
        day.condition = (((at? columns.codes place).map Condition.ofCode).getD .clear).description := by
      cases code : at? columns.codes place with
      | none => exact uncoded (at?_eq_none_iff.mp code)
      | some code => exact coded _ (at?_eq_some_iff.mp ‹_›)
    simp only [dayAt, at?_eq_some_iff.mpr high, at?_eq_some_iff.mpr low, ← condition, ← average.mpr ⟨mean, middle⟩]

theorem exists_dayAt (has : columns.HasTemperatures place) (date : Date) :
    ∃ day, dayAt columns place date = .ok day := by
  obtain ⟨⟨maximum, high⟩, minimum, low⟩ := has
  rw [dayAt, at?_eq_some_iff.mpr high, at?_eq_some_iff.mpr low]
  exact ⟨_, rfl⟩

theorem dayAt_of_not_hasTemperatures (lacks : ¬columns.HasTemperatures place) (date : Date) :
    dayAt columns place date = .error (.providerFailed name s!"missing temperatures for {date}") := by
  unfold dayAt
  split
  · next high low => exact absurd ⟨⟨_, at?_eq_some_iff.mp high⟩, _, at?_eq_some_iff.mp low⟩ lacks
  · rfl

theorem dayAt_eq_error_iff : dayAt columns place date = .error failure ↔
    ¬columns.HasTemperatures place ∧ failure = .providerFailed name s!"missing temperatures for {date}" := by
  by_cases has : columns.HasTemperatures place
  · obtain ⟨day, made⟩ := exists_dayAt has date
    exact iff_of_false (by simp [made]) (not_and_of_not_left _ (not_not_intro has))
  · rw [dayAt_of_not_hasTemperatures has, Except.error.injEq]
    exact ⟨fun same => ⟨has, same.symm⟩, fun ⟨_, same⟩ => same.symm⟩

theorem hasTemperatures_of_dayAt (made : dayAt columns place date = .ok day) : columns.HasTemperatures place := by
  refine Classical.byContradiction fun lacks => ?_
  rw [dayAt_of_not_hasTemperatures lacks] at made
  contradiction

theorem dayAt_congr {other : Columns} (codes : columns.codes[place]? = other.codes[place]?)
    (maxima : columns.maxima[place]? = other.maxima[place]?) (minima : columns.minima[place]? = other.minima[place]?)
    (means : columns.means[place]? = other.means[place]?) : dayAt columns place = dayAt other place := by
  funext date
  simp only [dayAt, at?, codes, maxima, minima, means]

end Place

section Dates

variable {columns other : Columns} {place : Nat} {date : Date} {dates : List Date} {days : List ForecastDay}
  {failure : Failure}

theorem daysFrom_cons_eq_ok_iff : daysFrom columns place (date :: dates) = .ok days ↔
    ∃ day others, dayAt columns place date = .ok day ∧ daysFrom columns (place + 1) dates = .ok others ∧
      days = day :: others := by
  rw [daysFrom]
  cases dayAt columns place date with
  | error failure => simp
  | ok day => cases daysFrom columns (place + 1) dates <;> simp [Except.map, eq_comm]

theorem daysFrom_cons_eq_error_iff : daysFrom columns place (date :: dates) = .error failure ↔
    dayAt columns place date = .error failure ∨
      columns.HasTemperatures place ∧ daysFrom columns (place + 1) dates = .error failure := by
  rw [daysFrom]
  cases made : dayAt columns place date with
  | error own => simp [(dayAt_eq_error_iff.mp made).1]
  | ok day => cases daysFrom columns (place + 1) dates <;> simp [Except.map, hasTemperatures_of_dayAt made]

/-- The days of dates in a row are those of each date, from the first to the last. -/
theorem daysFrom_eq_ok_iff : daysFrom columns place dates = .ok days ↔ days.length = dates.length ∧
    ∀ position date, dates[position]? = some date →
      ∃ day, days[position]? = some day ∧ dayAt columns (place + position) date = .ok day := by
  induction dates generalizing place days with
  | nil => cases days <;> simp [daysFrom]
  | cons date rest ih =>
    rw [daysFrom_cons_eq_ok_iff]
    constructor
    · rintro ⟨day, others, made, told, rfl⟩
      obtain ⟨length, each⟩ := ih.mp told
      refine ⟨by rw [List.length_cons, List.length_cons, length], fun position other stands => ?_⟩
      cases position with
      | zero =>
        obtain rfl := Option.some.inj stands
        exact ⟨day, rfl, made⟩
      | succ position =>
        obtain ⟨own, found, told⟩ := each position other stands
        exact ⟨own, found, by rwa [Nat.add_right_comm] at told⟩
    · rintro ⟨length, each⟩
      obtain ⟨day, found, made⟩ := each 0 date rfl
      cases days with
      | nil => contradiction
      | cons first others =>
        obtain rfl := Option.some.inj found
        refine ⟨first, others, made, ih.mpr ⟨by simpa using length, fun position other stands => ?_⟩, rfl⟩
        obtain ⟨own, found, told⟩ := each (position + 1) other stands
        exact ⟨own, found, by rwa [Nat.add_right_comm]⟩

/-- A failure is that of the first date that has no day. -/
theorem daysFrom_eq_error_iff : daysFrom columns place dates = .error failure ↔
    ∃ position date, dates[position]? = some date ∧ dayAt columns (place + position) date = .error failure ∧
      ∀ earlier < position, columns.HasTemperatures (place + earlier) := by
  induction dates generalizing place with
  | nil => simp [daysFrom]
  | cons date rest ih =>
    rw [daysFrom_cons_eq_error_iff, ih]
    constructor
    · rintro (failed | ⟨has, position, other, stands, failed, before⟩)
      · exact ⟨0, date, rfl, failed, nofun⟩
      · refine ⟨position + 1, other, stands, by rwa [Nat.add_right_comm] at failed, fun earlier less => ?_⟩
        cases earlier with
        | zero => exact has
        | succ earlier =>
          have has := before earlier (Nat.lt_of_succ_lt_succ less)
          rwa [Nat.add_right_comm] at has
    · rintro ⟨position, other, stands, failed, before⟩
      cases position with
      | zero =>
        obtain rfl := Option.some.inj stands
        exact .inl failed
      | succ position =>
        refine .inr ⟨before 0 position.succ_pos, position, other, stands, by rwa [Nat.add_right_comm],
          fun earlier less => ?_⟩
        have has := before (earlier + 1) (Nat.succ_lt_succ less)
        rwa [Nat.add_right_comm]

theorem daysFrom_congr
    (same : ∀ position < dates.length, dayAt columns (place + position) = dayAt other (place + position)) :
    daysFrom columns place dates = daysFrom other place dates := by
  induction dates generalizing place with
  | nil => rfl
  | cons date rest ih =>
    have first : dayAt columns place = dayAt other place := same 0 (Nat.succ_pos _)
    have behind : daysFrom columns (place + 1) rest = daysFrom other (place + 1) rest := by
      refine ih fun position inside => ?_
      rw [Nat.add_right_comm]
      exact same (position + 1) (Nat.succ_lt_succ inside)
    rw [daysFrom, daysFrom, first, behind]

end Dates

/-- What is made of columns, whatever their lengths and wherever their gaps. -/
structure Columns.Aligned (columns : Columns) : Prop where
  /-- There are days exactly if both temperatures stand at the place of every date. -/
  complete_iff : (∃ days, daysOf columns = .ok days) ↔ ∀ place < columns.dates.length, columns.HasTemperatures place
  /-- They are one day for each date, in the order of the dates, each from its own place. -/
  days_iff : ∀ days, daysOf columns = .ok days ↔ days.length = columns.dates.length ∧
    ∀ place < columns.dates.length, ∃ day, days[place]? = some day ∧ columns.IsDayAt place day
  /-- Otherwise the first date without both temperatures is named. -/
  refused_iff : ∀ failure, daysOf columns = .error failure ↔ ∃ place date, columns.dates[place]? = some date ∧
    ¬columns.HasTemperatures place ∧ (∀ earlier < place, columns.HasTemperatures earlier) ∧
      failure = .providerFailed "open_meteo" s!"missing temperatures for {date}"
  /-- What stands behind the last date makes no difference. -/
  surplus : ∀ other, columns.Agrees other → daysOf other = daysOf columns

section Answer

variable {columns other : Columns} {place : Nat} {day : ForecastDay} {days : List ForecastDay} {failure : Failure}

theorem daysOf_eq_ok_iff : daysOf columns = .ok days ↔ days.length = columns.dates.length ∧
    ∀ place < columns.dates.length, ∃ day, days[place]? = some day ∧ columns.IsDayAt place day := by
  rw [daysOf, daysFrom_eq_ok_iff]
  refine and_congr_right fun _ => ⟨fun each place inside => ?_, fun each place date stands => ?_⟩
  · have stands := List.getElem?_eq_getElem inside
    obtain ⟨day, found, made⟩ := each place _ stands
    rw [Nat.zero_add, dayAt_eq_ok_iff stands] at made
    exact ⟨day, found, made⟩
  · obtain ⟨inside, _⟩ := List.getElem?_eq_some_iff.mp stands
    obtain ⟨day, found, isDay⟩ := each place inside
    exact ⟨day, found, by rwa [Nat.zero_add, dayAt_eq_ok_iff stands]⟩

theorem daysOf_eq_error_iff : daysOf columns = .error failure ↔ ∃ place date, columns.dates[place]? = some date ∧
    ¬columns.HasTemperatures place ∧ (∀ earlier < place, columns.HasTemperatures earlier) ∧
      failure = .providerFailed "open_meteo" s!"missing temperatures for {date}" := by
  simp only [daysOf, daysFrom_eq_error_iff, dayAt_eq_error_iff, Nat.zero_add]
  constructor
  · rintro ⟨place, date, stands, ⟨lacks, named⟩, before⟩
    exact ⟨place, date, stands, lacks, before, named⟩
  · rintro ⟨place, date, stands, lacks, before, named⟩
    exact ⟨place, date, stands, ⟨lacks, named⟩, before⟩

theorem exists_daysOf_iff :
    (∃ days, daysOf columns = .ok days) ↔ ∀ place < columns.dates.length, columns.HasTemperatures place := by
  constructor
  · rintro ⟨days, told⟩ place inside
    obtain ⟨day, _, isDay⟩ := (daysOf_eq_ok_iff.mp told).2 place inside
    exact ⟨⟨_, isDay.maximum⟩, _, isDay.minimum⟩
  · intro complete
    cases told : daysOf columns with
    | ok days => exact ⟨days, rfl⟩
    | error failure =>
      obtain ⟨place, date, stands, lacks, _⟩ := daysOf_eq_error_iff.mp told
      exact absurd (complete place (List.getElem?_eq_some_iff.mp stands).1) lacks

theorem daysOf_eq_of_agrees (agrees : columns.Agrees other) : daysOf columns = daysOf other := by
  rw [daysOf, daysOf, agrees.dates]
  refine daysFrom_congr fun position inside => ?_
  rw [Nat.zero_add]
  exact dayAt_congr (agrees.codes _ inside) (agrees.maxima _ inside) (agrees.minima _ inside) (agrees.means _ inside)

end Answer

/-- Whatever the columns are, no value moves to the day of another date. -/
theorem aligned_daysOf (columns : Columns) : columns.Aligned where
  complete_iff := exists_daysOf_iff
  days_iff _ := daysOf_eq_ok_iff
  refused_iff _ := daysOf_eq_error_iff
  surplus _ agrees := (daysOf_eq_of_agrees agrees).symm

/-- Two dates, the second of which has neither a code nor a mean, and a third temperature that belongs to no date. -/
example : (daysOf {
    dates := [⟨2026, 5, 1, by decide, by decide, by decide⟩, ⟨2026, 5, 2, by decide, by decide, by decide⟩]
    codes := [some 61], maxima := [some 14.0, some 16.0, some 99.0], minima := [some 6.0, some 8.0]
    means := [some 10.2, none] }).toOption = some [
      ⟨⟨2026, 5, 1, by decide, by decide, by decide⟩, 6.0, 14.0, 10.2, "Rain"⟩,
      ⟨⟨2026, 5, 2, by decide, by decide, by decide⟩, 8.0, 16.0, 12.0, "Clear"⟩] := by
  decide +kernel

end HedgedForecast.OpenMeteo
