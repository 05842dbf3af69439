import HedgedForecast.Day
import Mathlib.Data.Finset.Card
import Mathlib.Data.List.Nodup
import Mathlib.Tactic.ByContra

/-! # The days that are kept

Of the days that a provider returns, in whatever order, those with the earliest dates are kept, as many as were
asked for, and of several days with one date the first. The sort is stable, and a day is dropped only right behind
another one with its date, so both leave the first day with a date the first.
-/

namespace HedgedForecast

namespace Date

variable {a b c : Date}

/-- Dates are ordered by their years, then by their months, then by their days. -/
theorem lt_iff :
    a < b ↔ a.year < b.year ∨ a.year = b.year ∧ (a.month < b.month ∨ a.month = b.month ∧ a.day < b.day) := by
  have short (date : Date) : date.day < 32 := by
    have most : daysInMonth date.year date.month ≤ 31 := by
      unfold daysInMonth
      split_ifs <;> decide
    have := date.day_bounds
    omega
  have := short a
  have := short b
  have := a.month_bounds
  have := b.month_bounds
  change (a.year * 16 + a.month) * 32 + a.day < (b.year * 16 + b.month) * 32 + b.day ↔ _
  omega

theorem lt_irrefl (a : Date) : ¬a < a :=
  Int.lt_irrefl a.rank

theorem lt_trans (first : a < b) (second : b < c) : a < c :=
  Int.lt_trans first second

theorem lt_of_le_of_ne (notAfter : a ≤ b) (different : a ≠ b) : a < b := by
  by_contra notBefore
  have same : a.rank = b.rank := Int.le_antisymm notAfter (Int.not_lt.mp notBefore)
  have notAfter : ¬b < a := fun after => absurd same (Int.ne_of_gt after)
  rw [lt_iff] at notBefore notAfter
  cases a
  cases b
  simp only [ne_eq, mk.injEq] at different notBefore notAfter
  omega

end Date

namespace Forecast

variable {day chosen : ForecastDay} {days other out : List ForecastDay} {date last : Date} {wanted : Nat}

/-- The days are in the order of their dates, and no date occurs twice. -/
def Ascending (days : List ForecastDay) : Prop :=
  days.Pairwise fun first second => first.date < second.date

/-- The first day with a date. -/
def firstOn? (days : List ForecastDay) (date : Date) : Option ForecastDay :=
  days.find? fun day => day.date == date

/-- How many dates occur. -/
def distinctDates (days : List ForecastDay) : Nat :=
  (days.map ForecastDay.date).toFinset.card

theorem exists_firstOn?_iff : (∃ day, firstOn? days date = some day) ↔ date ∈ days.map ForecastDay.date := by
  simp [firstOn?, ← Option.isSome_iff_exists]

theorem date_of_firstOn? (found : firstOn? days date = some day) : day.date = date := by
  simpa using List.find?_some found

theorem mem_of_firstOn? (found : firstOn? days date = some day) : day ∈ days :=
  List.mem_of_find?_eq_some found

/-- Where no date occurs twice, every day is the first one with its date. -/
theorem firstOn?_eq_some_iff (different : (days.map ForecastDay.date).Nodup) :
    firstOn? days date = some day ↔ day ∈ days ∧ day.date = date := by
  constructor
  · exact fun found => ⟨mem_of_firstOn? found, date_of_firstOn? found⟩
  · rintro ⟨member, rfl⟩
    obtain ⟨found, first⟩ := exists_firstOn?_iff.mpr (List.mem_map_of_mem member)
    rw [first, List.inj_on_of_nodup_map different (mem_of_firstOn? first) member (date_of_firstOn? first)]

theorem Ascending.nodup (ascending : Ascending days) : (days.map ForecastDay.date).Nodup := by
  refine List.pairwise_map.mpr (ascending.imp fun before => ?_)
  intro same
  rw [same] at before
  exact Date.lt_irrefl _ before

theorem byDate_trans (a b c : ForecastDay) (first : decide (a.date ≤ b.date) = true)
    (second : decide (b.date ≤ c.date) = true) : decide (a.date ≤ c.date) = true := by
  rw [decide_eq_true_eq] at first second ⊢
  exact Int.le_trans first second

theorem byDate_total (a b : ForecastDay) : (decide (a.date ≤ b.date) || decide (b.date ≤ a.date)) = true := by
  rw [Bool.or_eq_true, decide_eq_true_eq, decide_eq_true_eq]
  exact Int.le_total a.date.rank b.date.rank

theorem sortByDate_perm (days : List ForecastDay) : (sortByDate days).Perm days :=
  List.mergeSort_perm days _

theorem sorted_sortByDate (days : List ForecastDay) :
    (sortByDate days).Pairwise fun first second => first.date ≤ second.date :=
  (List.pairwise_mergeSort byDate_trans byDate_total days).imp of_decide_eq_true

/-- Days with one date keep their order. -/
theorem filter_sortByDate (days : List ForecastDay) (date : Date) :
    (sortByDate days).filter (fun day => day.date == date) = days.filter fun day => day.date == date := by
  have inOrder : (days.filter fun day => day.date == date).Pairwise
      fun first second => decide (first.date ≤ second.date) := by
    refine List.pairwise_of_forall_mem_list fun first member second member' => ?_
    rw [List.mem_filter, beq_iff_eq] at member member'
    rw [member.2, member'.2]
    exact decide_eq_true (Int.le_refl _)
  have kept := (List.sublist_mergeSort byDate_trans byDate_total inOrder List.filter_sublist).filter
    fun day => day.date == date
  simp only [List.filter_filter, Bool.and_self] at kept
  exact (kept.eq_of_length ((sortByDate_perm days).filter _).length_eq.symm).symm

theorem firstOn?_sortByDate (days : List ForecastDay) (date : Date) :
    firstOn? (sortByDate days) date = firstOn? days date := by
  rw [firstOn?, firstOn?, ← List.head?_filter, ← List.head?_filter, filter_sortByDate]

/-- The first day with a date is not dropped, unless the last one before it has that date. -/
theorem firstOn?_dropRepeats (new : date ≠ last) (days : List ForecastDay) :
    firstOn? (dropRepeats last days) date = firstOn? days date := by
  unfold firstOn?
  induction days generalizing last with
  | nil => rfl
  | cons day rest ih =>
    rw [dropRepeats]
    split
    · next same =>
      rw [ih new, List.find?_cons_of_neg (by simpa [same] using new.symm)]
    · by_cases here : day.date = date
      · rw [List.find?_cons_of_pos (by simpa using here), List.find?_cons_of_pos (by simpa using here)]
      · rw [List.find?_cons_of_neg (by simpa using here), List.find?_cons_of_neg (by simpa using here),
          ih (Ne.symm here)]

theorem firstOn?_firstOfEachDate (days : List ForecastDay) (date : Date) :
    firstOn? (firstOfEachDate days) date = firstOn? days date := by
  unfold firstOn?
  cases days with
  | nil => rfl
  | cons day rest =>
    rw [firstOfEachDate]
    by_cases here : day.date = date
    · rw [List.find?_cons_of_pos (by simpa using here), List.find?_cons_of_pos (by simpa using here)]
    · rw [List.find?_cons_of_neg (by simpa using here), List.find?_cons_of_neg (by simpa using here)]
      exact firstOn?_dropRepeats (Ne.symm here) rest

/-- Of days in order, those that are left come after one another. -/
theorem ascending_dropRepeats {first : ForecastDay}
    (sorted : (first :: days).Pairwise fun first second => first.date ≤ second.date) :
    Ascending (first :: dropRepeats first.date days) := by
  induction days generalizing first with
  | nil => exact List.pairwise_singleton ..
  | cons day rest ih =>
    obtain ⟨least, sorted⟩ := List.pairwise_cons.mp sorted
    rw [dropRepeats]
    split
    · next same =>
      rw [← same]
      have ascending := ih sorted
      exact List.pairwise_cons.mpr ⟨fun later member => same ▸ (List.pairwise_cons.mp ascending).1 later member,
        (List.pairwise_cons.mp ascending).2⟩
    · next different =>
      have before : first.date < day.date := Date.lt_of_le_of_ne (least day List.mem_cons_self) (Ne.symm different)
      have ascending := ih sorted
      refine List.pairwise_cons.mpr ⟨fun later member => ?_, ascending⟩
      rcases List.mem_cons.mp member with rfl | member
      · exact before
      · exact Date.lt_trans before ((List.pairwise_cons.mp ascending).1 later member)

theorem ascending_firstOfEachDate (sorted : days.Pairwise fun first second => first.date ≤ second.date) :
    Ascending (firstOfEachDate days) := by
  cases days with
  | nil => exact .nil
  | cons day rest => exact ascending_dropRepeats sorted

/-- One day for each date that occurs, the first one, in order. -/
def onePerDate (days : List ForecastDay) : List ForecastDay :=
  firstOfEachDate (sortByDate days)

theorem ascending_onePerDate (days : List ForecastDay) : Ascending (onePerDate days) :=
  ascending_firstOfEachDate (sorted_sortByDate days)

theorem firstOn?_onePerDate (days : List ForecastDay) (date : Date) :
    firstOn? (onePerDate days) date = firstOn? days date := by
  rw [onePerDate, firstOn?_firstOfEachDate, firstOn?_sortByDate]

theorem mem_onePerDate : day ∈ onePerDate days ↔ firstOn? days day.date = some day := by
  rw [← firstOn?_onePerDate, firstOn?_eq_some_iff (ascending_onePerDate days).nodup]
  exact ⟨fun member => ⟨member, rfl⟩, And.left⟩

theorem length_onePerDate (days : List ForecastDay) : (onePerDate days).length = distinctDates days := by
  have same : (days.map ForecastDay.date).toFinset = ((onePerDate days).map ForecastDay.date).toFinset := by
    ext date
    rw [List.mem_toFinset, List.mem_toFinset, ← exists_firstOn?_iff, ← exists_firstOn?_iff]
    simp only [firstOn?_onePerDate]
  rw [distinctDates, same, List.toFinset_card_of_nodup (ascending_onePerDate days).nodup, List.length_map]

theorem normalise_eq (provider : String) (wanted : Nat) (days : List ForecastDay) :
    normalise provider wanted days =
      if distinctDates days < wanted then
        .error (.providerFailed provider s!"returned {distinctDates days} of {wanted} requested days")
      else .ok ((onePerDate days).take wanted) := by
  rw [← length_onePerDate]
  rfl

/-- What is kept of days: as many as wanted, in order, those with the earliest dates, and of each date the first. -/
structure Kept (wanted : Nat) (days out : List ForecastDay) : Prop where
  length : out.length = wanted
  ascending : Ascending out
  /-- A date that occurs but is not kept comes after all dates that are. -/
  earliest : ∀ date ∈ days.map ForecastDay.date, date ∉ out.map ForecastDay.date → ∀ chosen ∈ out, chosen.date < date
  first : ∀ chosen ∈ out, firstOn? days chosen.date = some chosen

/-- Of days in order, those that leave out only what comes after them stand at the beginning. -/
theorem prefix_of_earliest (ascending : Ascending days) (ascending' : Ascending out) (part : out ⊆ days)
    (earliest : ∀ day ∈ days, day ∉ out → ∀ chosen ∈ out, chosen.date < day.date) : out <+: days := by
  induction days generalizing out with
  | nil => exact List.subset_nil.mp part ▸ List.prefix_refl []
  | cons day rest ih =>
    obtain ⟨later, rests⟩ := List.pairwise_cons.mp ascending
    cases out with
    | nil => exact List.nil_prefix
    | cons chosen out =>
      obtain ⟨later', rests'⟩ := List.pairwise_cons.mp ascending'
      obtain rfl | behind := List.mem_cons.mp (part List.mem_cons_self)
      · refine List.cons_prefix_cons.mpr ⟨rfl, ih rests rests' ?_ ?_⟩
        · intro other kept
          refine List.mem_of_ne_of_mem ?_ (part (List.mem_cons_of_mem _ kept))
          rintro rfl
          exact Date.lt_irrefl _ (later' other kept)
        · intro other member left other' kept
          have different : other ≠ chosen := by
            rintro rfl
            exact Date.lt_irrefl _ (later other member)
          exact earliest other (List.mem_cons_of_mem _ member) (List.not_mem_cons_of_ne_of_not_mem different left)
            other' (List.mem_cons_of_mem _ kept)
      · have before := later chosen behind
        have left : day ∉ chosen :: out := by
          rintro (_ | ⟨_, member⟩)
          · exact Date.lt_irrefl _ before
          · exact Date.lt_irrefl _ (Date.lt_trans before (later' day member))
        have after := earliest day List.mem_cons_self left chosen List.mem_cons_self
        exact absurd (Date.lt_trans after before) (Date.lt_irrefl _)

theorem Kept.prefix_onePerDate (kept : Kept wanted days out) : out <+: onePerDate days := by
  refine prefix_of_earliest (ascending_onePerDate days) kept.ascending ?_ ?_
  · exact fun chosen member => mem_onePerDate.mpr (kept.first chosen member)
  · intro day member left
    have first := mem_onePerDate.mp member
    refine kept.earliest day.date (exists_firstOn?_iff.mp ⟨day, first⟩) fun there => left ?_
    obtain ⟨chosen, member, same⟩ := List.mem_map.mp there
    have first' := kept.first chosen member
    rw [same, first] at first'
    exact Option.some.inj first' ▸ member

theorem kept_take (enough : wanted ≤ distinctDates days) : Kept wanted days ((onePerDate days).take wanted) := by
  have ascending := ascending_onePerDate days
  constructor
  · rw [List.length_take, length_onePerDate, Nat.min_eq_left enough]
  · exact ascending.sublist (List.take_sublist ..)
  · intro date occurs left chosen kept
    obtain ⟨day, first⟩ := exists_firstOn?_iff.mpr occurs
    obtain rfl := date_of_firstOn? first
    have member := mem_onePerDate.mpr first
    rw [← List.take_append_drop wanted (onePerDate days)] at ascending member
    rcases List.mem_append.mp member with taken | dropped
    · exact absurd (List.mem_map_of_mem taken) left
    · exact (List.pairwise_append.mp ascending).2.2 chosen kept day dropped
  · exact fun chosen kept => mem_onePerDate.mp (List.mem_of_mem_take kept)

theorem normalise_eq_ok_iff {provider : String} : normalise provider wanted days = .ok out ↔ Kept wanted days out := by
  rw [normalise_eq]
  constructor
  · intro made
    split at made
    · contradiction
    · next enough =>
      cases made
      exact kept_take (Nat.not_lt.mp enough)
  · intro kept
    have part := kept.prefix_onePerDate
    have enough : wanted ≤ distinctDates days := by
      rw [← kept.length, ← length_onePerDate]
      exact part.length_le
    rw [if_neg (Nat.not_lt.mpr enough), List.prefix_iff_eq_take.mp part, kept.length]

/-- Days in order without repeated dates are all kept. -/
theorem Ascending.kept (ascending : Ascending days) : Kept days.length days days := by
  refine ⟨rfl, ascending, fun date occurs left => absurd occurs left, fun chosen member => ?_⟩
  exact (firstOn?_eq_some_iff ascending.nodup).mpr ⟨member, rfl⟩

/-- Of different dates it does not matter in which order they come. -/
theorem Kept.of_perm (kept : Kept wanted days out) (different : (days.map ForecastDay.date).Nodup)
    (same : other.Perm days) : Kept wanted other out := by
  have dates := same.map ForecastDay.date
  refine ⟨kept.length, kept.ascending, fun date occurs => kept.earliest date (dates.subset occurs), ?_⟩
  intro chosen member
  have first := kept.first chosen member
  rw [firstOn?_eq_some_iff different] at first
  exact (firstOn?_eq_some_iff (dates.nodup_iff.mpr different)).mpr ⟨same.symm.subset first.1, first.2⟩

theorem distinctDates_perm (same : other.Perm days) : distinctDates other = distinctDates days :=
  congrArg Finset.card (List.toFinset_eq_of_perm _ _ (same.map ForecastDay.date))

/-- What becomes of the days that a provider returns. -/
structure KeepsEarliest (provider : String) (wanted : Nat) (days : List ForecastDay) : Prop where
  /-- There are days to give exactly if there are enough dates. -/
  enough_iff : (∃ out, normalise provider wanted days = .ok out) ↔ wanted ≤ distinctDates days
  /-- They are those with the earliest dates, and nothing else is. -/
  kept_iff : ∀ out, normalise provider wanted days = .ok out ↔ Kept wanted days out
  /-- Otherwise the provider has failed, and it is said how many dates there were. -/
  refused : distinctDates days < wanted → normalise provider wanted days =
    .error (.providerFailed provider s!"returned {distinctDates days} of {wanted} requested days")
  /-- Nothing is left to do with days that were kept. -/
  fixed : ∀ out, normalise provider wanted days = .ok out → normalise provider wanted out = .ok out
  /-- If no date is repeated, the order of the days does not matter. -/
  unordered : (days.map ForecastDay.date).Nodup → ∀ other, other.Perm days →
    normalise provider wanted other = normalise provider wanted days

/-- Of any list of days the wanted number of days with the earliest dates is kept, or the provider has failed. -/
theorem keepsEarliest_normalise (provider : String) (wanted : Nat) (days : List ForecastDay) :
    KeepsEarliest provider wanted days := by
  have refused (days : List ForecastDay) (few : distinctDates days < wanted) : normalise provider wanted days =
      .error (.providerFailed provider s!"returned {distinctDates days} of {wanted} requested days") := by
    rw [normalise_eq, if_pos few]
  have given (days : List ForecastDay) (enough : wanted ≤ distinctDates days) :
      ∃ out, normalise provider wanted days = .ok out := ⟨_, normalise_eq_ok_iff.mpr (kept_take enough)⟩
  refine ⟨⟨fun ⟨out, made⟩ => ?_, given days⟩, fun out => normalise_eq_ok_iff, refused days, fun out made => ?_,
    fun different other same => ?_⟩
  · by_contra few
    rw [refused days (Nat.not_le.mp few)] at made
    contradiction
  · obtain ⟨length, ascending, _⟩ := normalise_eq_ok_iff.mp made
    exact normalise_eq_ok_iff.mpr (length ▸ ascending.kept)
  · rcases Nat.lt_or_ge (distinctDates days) wanted with few | enough
    · rw [refused days few, refused other (distinctDates_perm same ▸ few), distinctDates_perm same]
    · obtain ⟨out, made⟩ := given days enough
      rw [made, normalise_eq_ok_iff]
      exact (normalise_eq_ok_iff.mp made).of_perm different same

end Forecast

end HedgedForecast
