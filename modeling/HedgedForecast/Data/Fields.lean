import HedgedForecast.Data.Basic

/-! # Decoding records

A record is decoded from the fields that it names. They stand in a record under their names, each
at most once and beside any others, or in a list in the order of their declaration. The two forms
differ in one point: a missing optional field is nothing in a record and an error in a list, while
a field with a default may be missing in both.
-/

namespace HedgedForecast

/-- The fields of a record that were present. -/
structure Fields where
  values : List (String × Data)
  /-- Whether they came by position. -/
  positional : Bool

namespace Data

/-- Whether lists may hold more items than the record has fields. -/
inductive Surplus where
  | refused
  | ignored
  deriving DecidableEq, Repr

/-- The named fields of a record or list. -/
def fields? (names : List String) (surplus : Surplus) : Data → Option Fields
  | record fields =>
    let known := fields.filter fun (name, _) => names.contains name
    if (known.map (·.1)).Nodup then some ⟨known, false⟩ else none
  | list items =>
    if items.length ≤ names.length || surplus == .ignored then some ⟨names.zip items, true⟩
    else none
  | _ => none

end Data

namespace Fields

variable {α : Type}

/-- The data of a field, if it was present. -/
def find? (fields : Fields) (name : String) : Option Data :=
  fields.values.lookup name

/-- A field that has to be present. -/
def required? (fields : Fields) (name : String) (decode : Data → Option α) : Option α :=
  (fields.find? name).bind decode

/-- A field that may be null, and may be missing when fields are named. -/
def optional? (fields : Fields) (name : String) (decode : Data → Option α) : Option (Option α) :=
  match fields.find? name with
  | some data => data.asOption? decode
  | none => if fields.positional then none else some none

/-- A field with a default. -/
def withDefault? (fields : Fields) (name : String) (default : α) (decode : Data → Option α) :
    Option α :=
  match fields.find? name with
  | some data => decode data
  | none => some default

end Fields

end HedgedForecast
