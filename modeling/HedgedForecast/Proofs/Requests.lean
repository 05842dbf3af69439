import HedgedForecast.Request
import Mathlib.Data.List.Basic

/-! # The keys of requests

Two requests have the same cache key exactly if they ask for the same city, but for the case of its letters, in the
same country and for the same number of days. The city may hold any characters: the key is read from its end, where
the days and the country code stand, and neither of these holds a colon.
-/

namespace HedgedForecast

/-- Texts are told apart at their last mark. -/
theorem eq_of_append_mark {α : Type} {mark : α} {front front' back back' : List α} (clear : mark ∉ back)
    (clear' : mark ∉ back') (same : front ++ mark :: back = front' ++ mark :: back') :
    front = front' ∧ back = back' := by
  obtain ⟨rest, longer, ends⟩ | ⟨rest, longer, ends⟩ := List.append_eq_append_iff.mp same
  · cases rest with
    | nil =>
      rw [List.append_nil] at longer
      exact ⟨longer.symm, (List.cons.inj ends).2⟩
    | cons first rest =>
      obtain ⟨_, tail⟩ := List.cons.inj ends
      rw [tail] at clear
      exact absurd (List.mem_append_right _ List.mem_cons_self) clear
  · cases rest with
    | nil =>
      rw [List.append_nil] at longer
      exact ⟨longer, (List.cons.inj ends).2.symm⟩
    | cons first rest =>
      obtain ⟨_, tail⟩ := List.cons.inj ends
      rw [tail] at clear'
      exact absurd (List.mem_append_right _ List.mem_cons_self) clear'

theorem Country.colon_not_mem (country : Country) : ':' ∉ country.toChars := by
  have upper {letter : Char} (isUpper : letter.isUpper = true) : ':' ≠ letter := by
    rintro rfl
    exact absurd isUpper (by decide)
  simp only [toChars, List.mem_cons, List.not_mem_nil, or_false, not_or]
  exact ⟨upper country.first_upper, upper country.second_upper⟩

namespace Request

variable {request other : Request}

theorem days_lt (request : Request) : request.days < 15 :=
  Nat.lt_succ_of_le request.days_bounds.2

theorem colon_not_mem_days (request : Request) : ':' ∉ (toString request.days).toList := by
  have clear : ∀ days < 15, ':' ∉ (toString days).toList := by decide
  exact clear _ request.days_lt

theorem days_injective (same : (toString request.days).toList = (toString other.days).toList) :
    request.days = other.days := by
  have different : ∀ days < 15, ∀ days' < 15, (toString days).toList = (toString days').toList → days = days' := by
    decide
  exact different _ request.days_lt _ other.days_lt same

theorem toList_cacheKey (request : Request) : request.cacheKey.toList =
    ("forecast:".toList ++ (Text.upper request.city).toList ++ ':' :: request.country.toChars) ++
      ':' :: (toString request.days).toList := by
  simp [cacheKey, Country.code]

/-- The requests ask for the same forecast. -/
structure Alike (request other : Request) : Prop where
  city : Text.upper request.city = Text.upper other.city
  country : request.country = other.country
  days : request.days = other.days

/-- Keys neither collide nor split. -/
theorem cacheKey_eq_iff : request.cacheKey = other.cacheKey ↔ request.Alike other := by
  constructor
  · intro same
    have same := congrArg String.toList same
    rw [toList_cacheKey, toList_cacheKey] at same
    obtain ⟨front, days⟩ := eq_of_append_mark (colon_not_mem_days _) (colon_not_mem_days _) same
    obtain ⟨city, country⟩ := eq_of_append_mark (Country.colon_not_mem _) (Country.colon_not_mem _) front
    refine ⟨String.toList_injective (List.append_cancel_left city), Country.toChars_injective country, ?_⟩
    exact days_injective days
  · rintro ⟨city, country, days⟩
    rw [cacheKey, cacheKey, city, country, days]

variable {city city' country country' : String} {days days' : Nat}

/-- What is asked for stands in the request as it was given, but for blanks and the case of the country. -/
theorem parse_eq_ok_iff : parse city country days = .ok request ↔
    request.city = Text.trim city ∧ Country.parse? country = some request.country ∧ request.days = days := by
  unfold parse make
  cases read : Country.parse? country with
  | none => simp
  | some found =>
    simp only
    constructor
    · intro made
      split_ifs at made
      cases made
      exact ⟨rfl, rfl, rfl⟩
    · rintro ⟨trimmed, same, rfl⟩
      obtain rfl := Option.some.inj same
      rw [dif_neg (trimmed ▸ request.city_ne_empty), dif_pos request.days_bounds]
      simp only [← trimmed]

/-- Two accepted requests have the same key exactly if they name the same country, ask for the same number of days,
and their cities, without the blanks around them, have the same capital form. -/
theorem cacheKey_eq_iff_of_parse (asked : parse city country days = .ok request)
    (asked' : parse city' country' days' = .ok other) :
    request.cacheKey = other.cacheKey ↔
      request.country = other.country ∧ days = days' ∧ Text.upper (Text.trim city) = Text.upper (Text.trim city') := by
  obtain ⟨trimmed, _, rfl⟩ := parse_eq_ok_iff.mp asked
  obtain ⟨trimmed', _, rfl⟩ := parse_eq_ok_iff.mp asked'
  rw [← trimmed, ← trimmed', cacheKey_eq_iff]
  exact ⟨fun alike => ⟨alike.country, alike.days, alike.city⟩, fun ⟨country, days, city⟩ => ⟨city, country, days⟩⟩

/-- A request for a city that looks like the end of a key. -/
def lookalike : Request where
  city := "straße:cz:2"
  country := ⟨'A', 'T', rfl, rfl⟩
  days := 4
  city_ne_empty := by decide
  days_bounds := by decide

/-- The same city in capitals, in the same country. -/
def shouted : Request := { lookalike with city := "STRASSE:CZ:2", city_ne_empty := by decide }

/-- The city that a reader who cuts a key too early would find. -/
def shortened : Request where
  city := "straße"
  country := ⟨'C', 'Z', rfl, rfl⟩
  days := 2
  city_ne_empty := by decide
  days_bounds := by decide

theorem cacheKey_eq_iff_of_parse_lookalike :
    parse "straße:cz:2" "at" 4 = .ok lookalike ∧ parse " STRASSE:CZ:2 " "AT" 4 = .ok shouted ∧
      parse "straße" "cz" 2 = .ok shortened ∧ lookalike.cacheKey = shouted.cacheKey ∧
      lookalike.cacheKey ≠ shortened.cacheKey := by
  have trimmed {city blank : String} (same : city.toList = (Text.trim blank).toList) : city = Text.trim blank :=
    String.toList_injective same
  have asked : parse "straße:cz:2" "at" 4 = .ok lookalike :=
    parse_eq_ok_iff.mpr ⟨trimmed (by rw [Text.toList_trim]; decide), by decide, rfl⟩
  have asked' : parse " STRASSE:CZ:2 " "AT" 4 = .ok shouted :=
    parse_eq_ok_iff.mpr ⟨trimmed (by rw [Text.toList_trim]; decide), by decide, rfl⟩
  have asked'' : parse "straße" "cz" 2 = .ok shortened :=
    parse_eq_ok_iff.mpr ⟨trimmed (by rw [Text.toList_trim]; decide), by decide, rfl⟩
  have capitals : Text.upper (Text.trim "straße:cz:2") = Text.upper (Text.trim " STRASSE:CZ:2 ") := by
    apply String.toList_injective
    simp only [Text.toList_upper, Text.toList_trim]
    decide
  refine ⟨asked, asked', asked'', (cacheKey_eq_iff_of_parse asked asked').mpr ⟨rfl, rfl, capitals⟩, ?_⟩
  rw [ne_eq, cacheKey_eq_iff_of_parse asked asked'']
  exact fun same => absurd same.2.1 (by decide)

end Request

end HedgedForecast
