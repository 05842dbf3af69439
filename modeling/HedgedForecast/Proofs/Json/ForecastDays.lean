import HedgedForecast.Day
import HedgedForecast.Proofs.Dates
import HedgedForecast.Proofs.Json.Survival
import Mathlib.Data.List.Perm.Basic

/-! # Forecast days in the interchange notation

A day is decoded from the text of its fields, in whatever order these stand and whatever other fields stand between
them. Dates and texts are always read back; a temperature is, if it survives being written.
-/

namespace HedgedForecast

/-- A field is found under its name, if no other has it. -/
theorem lookup_eq_some {entries : List (String × Data)} (distinct : (entries.map Prod.fst).Nodup) {name : String}
    {data : Data} (member : (name, data) ∈ entries) : entries.lookup name = some data := by
  obtain ⟨before, after, rfl⟩ := List.append_of_mem member
  refine List.lookup_eq_some_iff.mpr ⟨before, after, rfl, fun entry inside => ?_⟩
  rw [List.map_append, List.map_cons, List.nodup_middle, List.nodup_cons] at distinct
  have other : name ≠ entry.1 := fun same =>
    distinct.1 (List.mem_append_left _ (List.mem_map.mpr ⟨entry, inside, same.symm⟩))
  simpa using other

namespace ForecastDay

/-- The fields of a day. -/
def fields (day : ForecastDay) : List (String × Data) :=
  [("date", .text (toString day.date)), ("min_temp_c", .float day.minimum), ("max_temp_c", .float day.maximum),
    ("avg_temp_c", .float day.average), ("condition_text", .text day.condition)]

/-- The temperatures of a day. -/
def temperatures (day : ForecastDay) : List Float :=
  [day.minimum, day.maximum, day.average]

/-- The fields of the record with names of a day's fields are those of the day, in any order. -/
def IsRecordOf (record : List (String × Data)) (day : ForecastDay) : Prop :=
  (record.filter fun (name, _) => fieldNames.contains name).Perm day.fields

theorem isRecordOf_fields (day : ForecastDay) : IsRecordOf day.fields day :=
  .refl _

/-- Neither the order of fields nor other fields matter. -/
theorem ofData?_record {record : List (String × Data)} {day : ForecastDay} (isRecord : IsRecordOf record day) :
    ofData? (.record record) = some day := by
  generalize known : (record.filter fun (name, _) => fieldNames.contains name) = values
  have distinct : (values.map Prod.fst).Nodup := by
    have names : (day.fields.map Prod.fst).Nodup := show fieldNames.Nodup by decide
    exact known ▸ (isRecord.map Prod.fst).nodup_iff.mpr names
  have required {α : Type} {name : String} (data : Data) (decode : Data → Option α)
      (member : (name, data) ∈ day.fields) : (Fields.mk values false).required? name decode = decode data := by
    have inside : (name, data) ∈ values := known ▸ isRecord.mem_iff.mpr member
    rw [Fields.required?, Fields.find?, lookup_eq_some distinct inside, Option.bind_some]
  have date : (Fields.mk values false).required? "date" dateOfData? = some day.date :=
    (required (.text (toString day.date)) _ (by simp [fields])).trans (Date.parse?_toString day.date)
  have minimum : (Fields.mk values false).required? "min_temp_c" Data.asFloat? = some day.minimum :=
    required (.float day.minimum) _ (by simp [fields])
  have maximum : (Fields.mk values false).required? "max_temp_c" Data.asFloat? = some day.maximum :=
    required (.float day.maximum) _ (by simp [fields])
  have average : (Fields.mk values false).required? "avg_temp_c" Data.asFloat? = some day.average :=
    required (.float day.average) _ (by simp [fields])
  have condition : (Fields.mk values false).required? "condition_text" Data.asText? = some day.condition :=
    required (.text day.condition) _ (by simp [fields])
  simp only [ofData?, Data.fields?, known, if_pos distinct, date, minimum, maximum, average, condition,
    Option.bind_eq_bind, Option.bind_some]
  rfl

/-- A day whose temperatures survive is read field by field. -/
theorem reads_fields {day : ForecastDay} (survive : ∀ temperature ∈ day.temperatures, Json.Survives temperature) :
    List.Forall₂ Json.ReadsNamed day.fields day.fields := by
  have text (s : String) : Json.Reads (.text s) (.text s) := .of_compact (Json.readsAs_text s) fun _ => rfl
  have temperature {x : Float} (member : x ∈ day.temperatures) : Json.Reads (.float x) (.float x) :=
    (survive x member).reads
  exact .cons ⟨rfl, text _⟩ <| .cons ⟨rfl, temperature (by simp [temperatures])⟩ <|
    .cons ⟨rfl, temperature (by simp [temperatures])⟩ <| .cons ⟨rfl, temperature (by simp [temperatures])⟩ <|
    .cons ⟨rfl, text _⟩ .nil

/-- A record of a day is read as a record of this day. -/
theorem exists_reads_record {record : List (String × Data)} {day : ForecastDay} (isRecord : IsRecordOf record day)
    (survive : ∀ temperature ∈ day.temperatures, Json.Survives temperature) :
    ∃ results, Json.Reads (.record record) (.record results) ∧ IsRecordOf results day := by
  obtain ⟨results, reads⟩ := Json.exists_reads_fields record
  have known : List.Forall₂ Json.ReadsNamed (record.filter fun (name, _) => fieldNames.contains name)
      (results.filter fun (name, _) => fieldNames.contains name) := by
    refine List.rel_filter (fun field result reads => ?_) reads
    show fieldNames.contains field.1 = true ↔ fieldNames.contains result.1 = true
    rw [reads.1]
  have own := reads_fields survive
  exact ⟨results, Json.reads_record reads, List.rel_perm_imp Json.rightUnique_readsNamed known own isRecord⟩

/-- A day is decoded from every document of a record with its fields, in any order and among any others. -/
theorem ofData?_document {day : ForecastDay} (survive : ∀ temperature ∈ day.temperatures, Json.Survives temperature)
    {record : List (String × Data)} (isRecord : IsRecordOf record day) {document : String}
    (isDocument : Json.IsDocument document (.record record)) : (Json.read? document).bind ofData? = some day := by
  obtain ⟨results, reads, isRecord'⟩ := exists_reads_record isRecord survive
  rw [reads.read? isDocument, Option.bind_some, ofData?_record isRecord']

/-- A day is decoded from whatever holds its fields. -/
structure IsDecoded (day : ForecastDay) : Prop where
  /-- From its own encoding. -/
  encoding : (Json.read? (Json.write day.toData)).bind ofData? = some day
  /-- From the text of a record with its fields, in any order and among any others, compact or indented. -/
  document : ∀ {record : List (String × Data)} {document : String}, IsRecordOf record day →
    Json.IsDocument document (.record record) → (Json.read? document).bind ofData? = some day
  /-- From any other text with such a record. -/
  layout : ∀ {record : List (String × Data)} {document : String}, IsRecordOf record day →
    Json.read? document = some (.record record) → (Json.read? document).bind ofData? = some day

/-- Every day is decoded, whatever its date and its text, if its temperatures survive. -/
theorem isDecoded_of_survive {day : ForecastDay}
    (survive : ∀ temperature ∈ day.temperatures, Json.Survives temperature) : IsDecoded day where
  encoding := ofData?_document survive day.isRecordOf_fields (Json.isDocument_write _)
  document isRecord := ofData?_document survive isRecord
  layout isRecord read := by rw [read, Option.bind_some, ofData?_record isRecord]

/-- A day before the year zero, with a text that has to be escaped. -/
def bygone : ForecastDay where
  date := ⟨-44, 3, 15, by decide, by decide, by decide⟩
  minimum := -0.5
  maximum := 21.75
  average := 10.625
  condition := "\"fair\"\t\x00\\ \u0001 é 🌤"

theorem survives_bygone : ∀ temperature ∈ bygone.temperatures, Json.Survives temperature := by
  have short : ∀ temperature ∈ bygone.temperatures, Json.isShort temperature = true := by decide +kernel
  exact fun temperature member => Json.survives_of_isShort (short temperature member)

/-- Read back from its encoding, and from indented text with its fields reversed and one that no day has. -/
theorem isDecoded_bygone : (∀ temperature ∈ bygone.temperatures, Json.Survives temperature) ∧
    IsRecordOf (("wind_kph", .int 12) :: bygone.fields.reverse) bygone ∧
    (Json.read? (Json.write bygone.toData)).bind ofData? = some bygone ∧
    (Json.read? (Json.writeIndented 0 (.record (("wind_kph", .int 12) :: bygone.fields.reverse)) ++ "\n")).bind
      ofData? = some bygone := by
  have isRecord : IsRecordOf (("wind_kph", .int 12) :: bygone.fields.reverse) bygone := List.reverse_perm bygone.fields
  have decoded := isDecoded_of_survive survives_bygone
  exact ⟨survives_bygone, isRecord, decoded.encoding, decoded.document isRecord (Json.isDocument_writeIndented _)⟩

/-- The days that are printed are read back. -/
theorem asList?_printed {days : List ForecastDay}
    (survive : ∀ day ∈ days, ∀ temperature ∈ day.temperatures, Json.Survives temperature) :
    (Json.read? (Json.writeIndented 0 (.list (days.map toData)) ++ "\n")).bind (Data.asList? ofData?) = some days := by
  have each : List.Forall₂ Json.Reads (days.map toData) (days.map toData) :=
    List.forall₂_map_left_iff.mpr <| List.forall₂_map_right_iff.mpr <|
      List.forall₂_same.mpr fun day member => Json.reads_record (reads_fields (survive day member))
  rw [(Json.reads_list each).read? (Json.isDocument_writeIndented _), Option.bind_some, Data.asList?, List.mapM_map]
  have decode : ofData? ∘ toData = pure := funext fun day => ofData?_record day.isRecordOf_fields
  rw [decode, List.mapM_pure, List.map_id']
  rfl

end ForecastDay

end HedgedForecast
