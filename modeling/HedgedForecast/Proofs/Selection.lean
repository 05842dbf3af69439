import HedgedForecast.Proofs.Arrays

/-! # Some items of an array on their own

An array may hold items that count among others that do not. Another array may hold just those that count, in
the same order and perhaps with differences that a relation allows. The place of an item there is its rank, the
number of items that count before it. Ranks stay when items are added or changed, as long as none begins or
ceases to count.
-/

namespace HedgedForecast

variable {α β : Type} {counts : α → Bool} {items items' : Array α} {others : Array β} {place place' other : Nat}

/-- How many items that count come before a place. -/
def rank (counts : α → Bool) (items : Array α) (place : Nat) : Nat :=
  (List.range place).countP fun earlier => items[earlier]?.any counts

/-- An item that counts is at the place, and it has the rank. -/
structure Points (counts : α → Bool) (items : Array α) (place other : Nat) : Prop where
  counted : items[place]?.any counts = true
  rank : rank counts items place = other

theorem rank_succ (counts : α → Bool) (items : Array α) (place : Nat) :
    rank counts items (place + 1) = rank counts items place + if items[place]?.any counts then 1 else 0 := by
  simp [rank, List.range_succ, List.countP_append, List.countP_singleton]

theorem rank_mono (counts : α → Bool) (items : Array α) (le : place ≤ place') :
    rank counts items place ≤ rank counts items place' := by
  induction le with
  | refl => exact Nat.le_refl _
  | step _ ih =>
    rw [rank_succ]
    exact Nat.le_add_right_of_le ih

theorem rank_lt (counted : items[place]?.any counts = true) (lt : place < place') :
    rank counts items place < rank counts items place' := by
  have later := rank_mono counts items (Nat.succ_le_of_lt lt)
  rw [Nat.succ_eq_add_one, rank_succ, if_pos counted] at later
  exact later

theorem rank_congr (same : ∀ earlier < place, items'[earlier]?.any counts = items[earlier]?.any counts) :
    rank counts items' place = rank counts items place := by
  refine List.countP_congr fun earlier member => ?_
  rw [same earlier (List.mem_range.mp member)]

theorem rank_beyond (counts : α → Bool) (ended : items.size ≤ place) (le : place ≤ place') :
    rank counts items place' = rank counts items place := by
  induction le with
  | refl => rfl
  | @step later le ih =>
    have none : items[later]? = none := Array.getElem?_eq_none (Nat.le_trans ended le)
    rw [rank_succ, none, ih]
    rfl

/-- Some item that counts has the rank, if there are more than so many. -/
theorem exists_points (counts : α → Bool) (items : Array α) :
    ∀ place, other < rank counts items place → ∃ earlier < place, Points counts items earlier other := by
  intro place
  induction place with
  | zero => exact fun below => absurd below (Nat.not_lt_zero _)
  | succ place ih =>
    intro below
    rw [rank_succ] at below
    by_cases before : other < rank counts items place
    · obtain ⟨earlier, lt, points⟩ := ih before
      exact ⟨earlier, Nat.lt_succ_of_lt lt, points⟩
    · split at below
      · next counted => exact ⟨place, Nat.lt_succ_self _, counted, by omega⟩
      · exact absurd below before

namespace Points

theorem of_present {item : α} (present : items[place]? = some item) (counted : counts item = true) :
    Points counts items place (HedgedForecast.rank counts items place) :=
  ⟨by rw [present]; exact counted, rfl⟩

theorem present (points : Points counts items place other) :
    ∃ item, items[place]? = some item ∧ counts item = true :=
  (Option.any_eq_true ..).mp points.counted

/-- Different items have different ranks. -/
theorem unique (points : Points counts items place other) (points' : Points counts items place' other) :
    place = place' := by
  have ranks := points.rank.trans points'.rank.symm
  rcases Nat.lt_trichotomy place place' with lt | same | gt
  · exact absurd ranks (Nat.ne_of_lt (rank_lt points.counted lt))
  · exact same
  · exact absurd ranks.symm (Nat.ne_of_lt (rank_lt points'.counted gt))

theorem eq_iff {other' : Nat} (points : Points counts items place other) (points' : Points counts items place' other') :
    other = other' ↔ place = place' := by
  constructor
  · rintro rfl
    exact points.unique points'
  · rintro rfl
    exact points.rank.symm.trans points'.rank

theorem push (points : Points counts items place other) (new : α) : Points counts (items.push new) place other := by
  obtain ⟨item, present, counted⟩ := points.present
  obtain ⟨bound, _⟩ := Array.getElem?_eq_some_iff.mp present
  refine ⟨by rw [getElem?_push_of_some new present]; exact counted, ?_⟩
  rw [← points.rank]
  refine rank_congr fun earlier before => ?_
  rw [Array.getElem?_push, if_neg (by omega)]

theorem push_self {new : α} (counted : counts new = true) :
    Points counts (items.push new) items.size (HedgedForecast.rank counts items items.size) := by
  refine ⟨by rw [Array.getElem?_push_size]; exact counted, rank_congr fun earlier before => ?_⟩
  rw [Array.getElem?_push, if_neg (Nat.ne_of_lt before)]

end Points

/-- Changing items makes no difference to ranks if none begins or ceases to count. -/
theorem any_modify {change : α → α} (same : ∀ item, counts (change item) = counts item) (index place : Nat) :
    (items.modify index change)[place]?.any counts = items[place]?.any counts := by
  rw [Array.getElem?_modify]
  split
  · cases items[place]? with
    | none => rfl
    | some item => exact same item
  · rfl

theorem rank_modify {change : α → α} (same : ∀ item, counts (change item) = counts item) (index place : Nat) :
    rank counts (items.modify index change) place = rank counts items place :=
  rank_congr fun _ _ => any_modify same ..

theorem Points.modify (points : Points counts items place other) {change : α → α}
    (same : ∀ item, counts (change item) = counts item) (index : Nat) :
    Points counts (items.modify index change) place other :=
  ⟨(any_modify same ..).trans points.counted, (rank_modify same ..).trans points.rank⟩

/-- The arrays have the same items that count, in the same places. -/
def Unchanged (counts : α → Bool) (items items' : Array α) : Prop :=
  ∀ place : Nat, items'[place]?.filter counts = items[place]?.filter counts

namespace Unchanged

theorem refl : Unchanged counts items items :=
  fun _ => rfl

theorem trans {last : Array α} (first : Unchanged counts items items') (second : Unchanged counts items' last) :
    Unchanged counts items last :=
  fun place => (second place).trans (first place)

theorem push {new : α} (discounted : counts new = false) : Unchanged counts items (items.push new) := by
  intro place
  rw [Array.getElem?_push]
  split
  · next last => simp [last, Option.filter, discounted]
  · rfl

theorem modify {change : α → α} {index : Nat}
    (discounted : ∀ item, items[index]? = some item → counts item = false ∧ counts (change item) = false) :
    Unchanged counts items (items.modify index change) := by
  intro place
  rw [Array.getElem?_modify]
  split
  · next same =>
    subst same
    cases present : items[index]? with
    | none => rfl
    | some item =>
      obtain ⟨before, after⟩ := discounted item present
      simp [Option.filter, before, after]
  · rfl

/-- Fewer items that count have changed less. -/
theorem weaken {fewer : α → Bool} (unchanged : Unchanged counts items items')
    (weaker : ∀ item, fewer item = true → counts item = true) : Unchanged fewer items items' := by
  intro place
  have within (found : Option α) : found.filter fewer = (found.filter counts).filter fewer := by
    cases found with
    | none => rfl
    | some item =>
      by_cases few : fewer item = true
      · simp [Option.filter, few, weaker item few]
      · cases kept : counts item <;> simp [Option.filter, few, kept]
  rw [within, unchanged place, ← within]

theorem any (unchanged : Unchanged counts items items') (place : Nat) :
    items'[place]?.any counts = items[place]?.any counts := by
  have same := congrArg Option.isSome (unchanged place)
  simpa only [Option.isSome_filter] using same

theorem rank (unchanged : Unchanged counts items items') (place : Nat) :
    rank counts items' place = rank counts items place :=
  rank_congr fun earlier _ => unchanged.any earlier

theorem points (unchanged : Unchanged counts items items') (points : Points counts items place other) :
    Points counts items' place other :=
  ⟨(unchanged.any place).trans points.counted, (unchanged.rank place).trans points.rank⟩

theorem present_iff (unchanged : Unchanged counts items items') {item : α} (counted : counts item = true) :
    items'[place]? = some item ↔ items[place]? = some item := by
  have same : ∀ found : Option α, found = some item ↔ found.filter counts = some item := by
    intro found
    simp only [Option.filter_eq_some_iff, counted, and_true]
  rw [same, unchanged place, ← same]

end Unchanged

/-- The other array holds just the items that count, in their order. -/
structure Matches (counts : α → Bool) (related : α → β → Prop) (items : Array α) (others : Array β) : Prop where
  size : others.size = rank counts items items.size
  pair : ∀ (place : Nat) (item : α), items[place]? = some item → counts item = true →
    ∃ other, others[rank counts items place]? = some other ∧ related item other

namespace Matches

variable {related related' : α → β → Prop}

theorem found (matched : Matches counts related items others) (points : Points counts items place other) :
    ∃ item found, items[place]? = some item ∧ counts item = true ∧ others[other]? = some found ∧
      related item found := by
  obtain ⟨item, present, counted⟩ := points.present
  obtain ⟨found, there, pair⟩ := matched.pair place item present counted
  exact ⟨item, found, present, counted, points.rank ▸ there, pair⟩

/-- Nothing else is in the other array. -/
theorem back (matched : Matches counts related items others) {found : β} (there : others[other]? = some found) :
    ∃ (place : Nat) (item : α), items[place]? = some item ∧ counts item = true ∧ related item found := by
  obtain ⟨bound, _⟩ := Array.getElem?_eq_some_iff.mp there
  rw [matched.size] at bound
  obtain ⟨place, _, points⟩ := exists_points counts items items.size bound
  obtain ⟨item, found', present, counted, there', pair⟩ := matched.found points
  obtain rfl := Option.some.inj (there.symm.trans there')
  exact ⟨place, item, present, counted, pair⟩

theorem mono (matched : Matches counts related items others)
    (weaker : ∀ item found, item ∈ items → counts item = true → related item found → related' item found) :
    Matches counts related' items others := by
  refine ⟨matched.size, fun place item present counted => ?_⟩
  obtain ⟨found, there, pair⟩ := matched.pair place item present counted
  exact ⟨found, there, weaker item found (Array.mem_of_getElem? present) counted pair⟩

theorem congr (matched : Matches counts related items others) (unchanged : Unchanged counts items items') :
    Matches counts related items' others := by
  constructor
  · have total (array : Array α) (longer : array.size ≤ max items.size items'.size) :
        rank counts array (max items.size items'.size) = rank counts array array.size :=
      rank_beyond counts (Nat.le_refl _) longer
    rw [matched.size, ← total items (Nat.le_max_left ..), ← total items' (Nat.le_max_right ..)]
    exact (unchanged.rank _).symm
  · intro place item present counted
    rw [unchanged.rank]
    exact matched.pair place item ((unchanged.present_iff counted).mp present) counted

theorem push (matched : Matches counts related items others) {new : α} {new' : β} (counted : counts new = true)
    (pair : related new new') : Matches counts related (items.push new) (others.push new') := by
  have last : Points counts (items.push new) items.size others.size := matched.size ▸ .push_self counted
  constructor
  · rw [Array.size_push, Array.size_push, rank_succ, last.rank, if_pos last.counted]
  · intro place item present counts'
    rcases getElem?_push_cases present with ⟨_, old⟩ | ⟨rfl, rfl⟩
    · obtain ⟨found, there, pair⟩ := matched.pair place item old counts'
      rw [((Points.of_present old counts').push new).rank]
      exact ⟨found, getElem?_push_of_some new' there, pair⟩
    · rw [last.rank]
      exact ⟨new', Array.getElem?_push_size, pair⟩

theorem modify (matched : Matches counts related items others) (points : Points counts items place other)
    {change : α → α} {change' : β → β} (same : ∀ item, counts (change item) = counts item)
    (pair : ∀ item found, items[place]? = some item → others[other]? = some found → related item found →
      related (change item) (change' found)) :
    Matches counts related (items.modify place change) (others.modify other change') := by
  constructor
  · rw [Array.size_modify, Array.size_modify, rank_modify same, matched.size]
  · intro index item' present counted
    rw [rank_modify same]
    obtain ⟨item, there, ⟨distinct, rfl⟩ | ⟨rfl, rfl⟩⟩ := getElem?_modify_cases present
    · obtain ⟨found, old, kept⟩ := matched.pair index item' there counted
      have apart : other ≠ rank counts items index := by
        rintro rfl
        exact distinct (points.unique (.of_present there counted))
      exact ⟨found, (getElem?_modify_of_ne others change' apart).trans old, kept⟩
    · obtain ⟨found, old, kept⟩ := matched.pair place item there ((same item).symm.trans counted)
      rw [points.rank] at old ⊢
      exact ⟨change' found, getElem?_modify_self change' old, pair item found there old kept⟩

end Matches

end HedgedForecast
