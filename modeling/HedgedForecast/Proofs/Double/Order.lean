import HedgedForecast.Proofs.Double.Bits

/-! # The order of doubles

Doubles are compared by their signs, exponents and mantissas. Of two numbers one is at most the other; what is not a
number is neither at most another double nor less than it, nor the other way around.
-/

namespace HedgedForecast.Double

open Float.Model

variable {first second : Float}

theorem le_iff : first ≤ second ↔ first.toModel.unpack.le second.toModel.unpack = true := by
  show (decide (first.toModel ≤ second.toModel) = true) ↔ _
  rw [decide_eq_true_iff]
  rfl

theorem lt_iff : first < second ↔ first.toModel.unpack.lt second.toModel.unpack = true := by
  show (decide (first.toModel < second.toModel) = true) ↔ _
  rw [decide_eq_true_iff]
  rfl

theorem isNaN_iff : first.isNaN = true ↔ first.toModel.unpack = .notANumber := by
  show first.toModel.unpack.isNaN = true ↔ _
  cases first.toModel.unpack <;> simp [UnpackedFloat.isNaN]

theorem compare_swap (x y : UnpackedFloat) : y.compare x = (x.compare y).map Ordering.swap := by
  have signs (s t : UnpackedFloat.Sign) : compare t s = (compare s t).swap := by
    cases s <;> cases t <;> rfl
  have parts (m n : Nat) (d e : Int) :
      (compare e d).then (compare n m) = ((compare d e).then (compare m n)).swap := by
    rw [Ordering.swap_then, Nat.compare_swap, Int.compare_swap]
  cases x with
  | notANumber => cases y <;> rfl
  | infinity s =>
    cases y with
    | infinity t => exact congrArg some (signs s t)
    | _ => cases s <;> rfl
  | zero s =>
    cases y with
    | infinity t => cases t <;> rfl
    | finite t => cases t <;> rfl
    | _ => rfl
  | finite s m d =>
    cases y with
    | infinity t => cases s <;> cases t <;> rfl
    | notANumber => cases s <;> rfl
    | zero t => cases s <;> rfl
    | finite t n e =>
      cases s with
      | positive =>
        cases t with
        | positive => exact congrArg some (parts m n d e)
        | negative => rfl
      | negative =>
        cases t with
        | positive => rfl
        | negative => exact congrArg (fun order => some order.swap) (parts m n d e)

theorem compare_eq_none_iff {x y : UnpackedFloat} : x.compare y = none ↔ x = .notANumber ∨ y = .notANumber := by
  cases x with
  | notANumber => simp [UnpackedFloat.compare]
  | infinity s => cases s <;> cases y <;> simp [UnpackedFloat.compare]
  | zero s =>
    cases y with
    | infinity t => cases t <;> simp [UnpackedFloat.compare]
    | finite t => cases t <;> simp [UnpackedFloat.compare]
    | _ => simp [UnpackedFloat.compare]
  | finite s =>
    cases y with
    | infinity t => cases s <;> cases t <;> simp [UnpackedFloat.compare]
    | finite t => cases s <;> cases t <;> simp [UnpackedFloat.compare]
    | _ => cases s <;> simp [UnpackedFloat.compare]

theorem not_le_of_lt (less : first < second) : ¬second ≤ first := by
  intro atMost
  rw [lt_iff, UnpackedFloat.lt, beq_iff_eq] at less
  rw [le_iff, UnpackedFloat.le, compare_swap, less] at atMost
  contradiction

/-- Numbers can be compared. -/
theorem lt_of_not_le (number : first.isNaN = false) (number' : second.isNaN = false) (above : ¬second ≤ first) :
    first < second := by
  rw [← Bool.not_eq_true, isNaN_iff] at number number'
  rw [lt_iff, UnpackedFloat.lt, beq_iff_eq]
  rw [le_iff, UnpackedFloat.le, compare_swap] at above
  cases order : first.toModel.unpack.compare second.toModel.unpack with
  | none => exact absurd (compare_eq_none_iff.mp order) (not_or.mpr ⟨number, number'⟩)
  | some order' => cases order' <;> simp_all

theorem not_le_of_isNaN (unordered : first.isNaN = true) : ¬first ≤ second ∧ ¬second ≤ first := by
  have none := isNaN_iff.mp unordered
  constructor
  · rw [le_iff, UnpackedFloat.le, compare_eq_none_iff.mpr (.inl none)]
    nofun
  · rw [le_iff, UnpackedFloat.le, compare_eq_none_iff.mpr (.inr none)]
    nofun

theorem isNaN_of_lt (less : first < second) : first.isNaN = false ∧ second.isNaN = false := by
  rw [lt_iff, UnpackedFloat.lt, beq_iff_eq] at less
  simp only [← Bool.not_eq_true, isNaN_iff, ← not_or]
  intro unordered
  rw [compare_eq_none_iff.mpr unordered] at less
  contradiction

theorem unpack_zero : (0.0 : Float).toModel.unpack = .zero .positive := by
  rw [show (0.0 : Float) = packed (.zero .positive) by decide +kernel]
  exact unpack_packed trivial

theorem unpack_one : (1.0 : Float).toModel.unpack = .finite .positive (2 ^ 52) (-52) (by decide) := by
  rw [show (1.0 : Float) = packed (.finite .positive (2 ^ 52) (-52) (by decide)) by decide +kernel]
  exact unpack_packed_finite ⟨by decide, by decide, by decide, by decide, .inl (le_refl _)⟩ .positive

/-- A number above zero and below one has at most the exponent of one. -/
theorem exists_of_between {value : Float} (number : value.isNaN = false) (above : ¬value ≤ 0.0)
    (below : ¬1.0 ≤ value) :
    ∃ mantissa exponent positive, value.toModel.unpack = .finite .positive mantissa exponent positive ∧
      exponent ≤ -52 := by
  rw [← Bool.not_eq_true, isNaN_iff] at number
  rw [le_iff, unpack_zero] at above
  rw [le_iff, unpack_one] at below
  cases unpacked : value.toModel.unpack with
  | notANumber => exact absurd unpacked number
  | infinity sign =>
    rw [unpacked] at above below
    cases sign <;> exact absurd rfl ‹_›
  | zero sign =>
    rw [unpacked] at above
    exact absurd rfl above
  | finite sign mantissa exponent positive =>
    rw [unpacked] at above below
    cases sign with
    | negative => exact absurd rfl above
    | positive =>
      refine ⟨mantissa, exponent, positive, rfl, ?_⟩
      by_contra more
      have less : compare (-52) exponent = .lt := Int.compare_eq_lt.mpr (by omega)
      simp [UnpackedFloat.le, UnpackedFloat.compare, less] at below

end HedgedForecast.Double
