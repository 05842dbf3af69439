/-! # Structured data

What a text in a data notation stands for, whatever the notation: scalars, lists and records whose
fields keep the order in which they were written. Whole numbers and doubles are kept apart, since
a field for one of them need not accept the other.
-/

namespace HedgedForecast

/-- A value as read from a data notation or about to be written in one. -/
inductive Data where
  | null
  | bool (value : Bool)
  | int (value : Int)
  | float (value : Float)
  | text (value : String)
  | list (items : List Data)
  | record (fields : List (String × Data))
  /-- A leaf that is well formed but stands for no value, such as a number beyond all doubles. -/
  | unreadable
  deriving Inhabited, Repr

namespace Data

/-- The value of a field; of two fields with one name the later counts. -/
def field? (name : String) : Data → Option Data
  | record fields => (fields.reverse.find? (·.1 == name)).map (·.2)
  | _ => none

/-- A text. -/
def asText? : Data → Option String
  | text value => some value
  | _ => none

/-- A truth value. -/
def asBool? : Data → Option Bool
  | bool value => some value
  | _ => none

/-- A whole number between two bounds, both included. -/
def asInt? (low high : Int) : Data → Option Int
  | int value => if low ≤ value && value ≤ high then some value else none
  | _ => none

/-- A natural number of at most the given width in bits. -/
def asNat? (bits : Nat) : Data → Option Nat
  | int value => if 0 ≤ value && value < Int.pow 2 bits then some value.toNat else none
  | _ => none

/-- A double; whole numbers are taken for the nearest one. -/
def asFloat? : Data → Option Float
  | float value => some value
  | int value => some (Float.ofInt value)
  | _ => none

/-- A list whose items all decode. -/
def asList? {α : Type} (item : Data → Option α) : Data → Option (List α)
  | list items => items.mapM item
  | _ => none

/-- Nothing for null, otherwise a value that decodes. -/
def asOption? {α : Type} (item : Data → Option α) : Data → Option (Option α)
  | null => some none
  | data => (item data).map some

end Data

end HedgedForecast
