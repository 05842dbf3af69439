import HedgedForecast.Decimal.Shortest
import HedgedForecast.Proofs.Double.Rounding

/-! # The bits of a double

A double is a sign, an exponent and a mantissa side by side. Unpacking reads a number from the three parts, and packing
finds the parts of a number again: the numbers that come from parts are those whose mantissa is as long as a double's, or
shorter at the least exponent. What is printed of a double is read off the same parts.
-/

namespace HedgedForecast.Double

open Float.Model Float.Model.UnpackedFloat

section Parts

variable (bits : BitVec Format.binary64.numBits)

theorem toNat_unpackMantissa : (unpackMantissa bits).toNat = bits.toNat % 2 ^ 52 := by
  simp [unpackMantissa, BitVec.extractLsb_toNat]

theorem toNat_unpackExponent : (unpackExponent bits).toNat = bits.toNat / 2 ^ 52 % 2 ^ 11 := by
  simp [unpackExponent, BitVec.extractLsb_toNat, Nat.shiftRight_eq_div_pow]

theorem toNat_unpackSign : (unpackSign bits).toNat = bits.toNat / 2 ^ 63 := by
  have bound : bits.toNat < 2 ^ 64 := bits.isLt
  simp [unpackSign, BitVec.extractLsb_toNat, Nat.shiftRight_eq_div_pow]
  omega

end Parts

/-- The double of three parts. -/
def ofParts (sign : Sign) (exponent : BitVec 11) (mantissa : BitVec 52) : UnpackedFloat :=
  if exponent = -1#11 then (if mantissa = 0#52 then .infinity sign else .notANumber)
  else if exponent = 0#11 then
    if none : mantissa = 0#52 then .zero sign
    else .finite sign mantissa.toNat (-1074) (Nat.pos_of_ne_zero fun zero => none (BitVec.eq_of_toNat_eq zero))
  else .finite sign (2 ^ 52 + mantissa.toNat) (exponent.toNat - 1075) (Nat.add_pos_left (by decide) _)

/-- The mantissa of a normal double has one more bit in front. -/
theorem toNat_implicit (mantissa : BitVec 52) : (1#1 ++ mantissa).toNat = 2 ^ 52 + mantissa.toNat := by
  rw [BitVec.toNat_append, ← Nat.shiftLeft_add_eq_or_of_lt mantissa.isLt]
  rfl

theorem unpack_eq (bits : BitVec Format.binary64.numBits) : UnpackedFloat.unpack Format.binary64 bits =
    ofParts (Sign.ofBitVec (unpackSign bits)) (unpackExponent bits) (unpackMantissa bits) := by
  by_cases full : unpackExponent bits = -1#11
  · rw [UnpackedFloat.unpack, if_pos full, ofParts, if_pos full]
  · rw [UnpackedFloat.unpack, if_neg full, ofParts, if_neg full]
    by_cases empty : unpackExponent bits = 0#11
    · rw [if_pos empty, if_pos empty]
      by_cases none : unpackMantissa bits = 0#52
      · rw [dif_pos none, dif_pos none]
      · rw [dif_neg none, dif_neg none, UnpackedFloat.finite.injEq, empty]
        exact ⟨rfl, rfl, rfl⟩
    · rw [if_neg empty, if_neg empty, UnpackedFloat.finite.injEq]
      exact ⟨rfl, toNat_implicit _, rfl⟩

theorem unpack_packComponents (sign : Sign) (exponent : BitVec 11) (mantissa : BitVec 52) :
    UnpackedFloat.unpack Format.binary64 (packComponents Format.binary64 sign exponent mantissa) =
      ofParts sign exponent mantissa := by
  rw [unpack_eq, unpackSign_packComponents, unpackExponent_packComponents, unpackMantissa_packComponents,
    Sign.ofBitVec_toBitVec]

theorem pack_ofParts {sign : Sign} {exponent : BitVec 11} {mantissa : BitVec 52}
    (number : exponent = -1#11 → mantissa = 0#52) :
    UnpackedFloat.pack Format.binary64 (ofParts sign exponent mantissa) =
      packComponents Format.binary64 sign exponent mantissa := by
  have fits := exponent.isLt
  have fits' := mantissa.isLt
  unfold ofParts
  split_ifs with full none empty none
  · rw [full, none]
    rfl
  · exact absurd (number full) none
  · rw [empty, none]
    rfl
  · have some : 0 < mantissa.toNat := Nat.pos_of_ne_zero fun zero => none (BitVec.eq_of_toNat_eq zero)
    have low : mantissa.toNat.log2 < 52 := (Nat.log2_lt some.ne').mpr fits'
    have short : mantissa.toNat.log2 + 1 ≠ Format.binary64.mantissaBits := by
      have width : Format.binary64.mantissaBits = 53 := rfl
      omega
    rw [UnpackedFloat.pack, if_neg (by decide), if_neg short, BitVec.ofNat_toNat, empty]
    rfl
  · have least : exponent.toNat ≠ 0 := fun zero => empty (BitVec.eq_of_toNat_eq zero)
    have most : exponent.toNat ≠ 2047 := fun all => full (BitVec.eq_of_toNat_eq all)
    have bits : (2 ^ 52 + mantissa.toNat).log2 = 52 := (Nat.log2_eq_iff (by omega)).mpr ⟨by omega, by omega⟩
    have biased : ((exponent.toNat : ℤ) - 1075 + Format.binary64.exponentBias +
        Format.binary64.mantissaBitsWithoutImplicit).toNat = exponent.toNat := by
      show ((exponent.toNat : ℤ) - 1075 + 1023 + 52).toNat = exponent.toNat
      omega
    simp only [UnpackedFloat.pack, biased, bits]
    rw [if_neg (show ¬2 ^ 11 ≤ exponent.toNat + 1 by omega), if_pos (by rfl), BitVec.ofNat_toNat]
    congr 1
    apply BitVec.eq_of_toNat_eq
    rw [BitVec.toNat_ofNat]
    show (2 ^ 52 + mantissa.toNat) % 2 ^ 52 = mantissa.toNat
    omega

/-- What mantissa and exponent an unpacked double can have. -/
def IsCanonical : UnpackedFloat → Prop
  | .finite _ mantissa exponent _ => IsDouble mantissa exponent
  | .infinity _ | .notANumber | .zero _ => True

theorem isCanonical_ofParts (sign : Sign) (exponent : BitVec 11) (mantissa : BitVec 52) :
    IsCanonical (ofParts sign exponent mantissa) := by
  have fits := exponent.isLt
  have fits' := mantissa.isLt
  unfold ofParts
  split_ifs with full none empty none
  · trivial
  · trivial
  · trivial
  · have some : 0 < mantissa.toNat := Nat.pos_of_ne_zero fun zero => none (BitVec.eq_of_toNat_eq zero)
    exact ⟨some, by omega, by omega, by omega, .inr rfl⟩
  · have least : exponent.toNat ≠ 0 := fun zero => empty (BitVec.eq_of_toNat_eq zero)
    have most : exponent.toNat ≠ 2047 := fun all => full (BitVec.eq_of_toNat_eq all)
    exact ⟨by omega, by omega, by omega, by omega, .inl (by omega)⟩

theorem exists_ofParts {value : UnpackedFloat} (canonical : IsCanonical value) (number : value ≠ .notANumber) :
    ∃ sign exponent mantissa, (exponent = -1#11 → mantissa = 0#52) ∧ value = ofParts sign exponent mantissa := by
  cases value with
  | infinity sign => exact ⟨sign, -1#11, 0#52, fun _ => rfl, rfl⟩
  | notANumber => exact absurd rfl number
  | zero sign => exact ⟨sign, 0#11, 0#52, fun _ => rfl, rfl⟩
  | finite sign mantissa exponent positive =>
    obtain ⟨_, small, least, most, full⟩ := canonical
    by_cases normal : 2 ^ 52 ≤ mantissa
    · have field : (BitVec.ofNat 11 (exponent + 1075).toNat).toNat = (exponent + 1075).toNat := by
        rw [BitVec.toNat_ofNat]
        omega
      have fraction : (BitVec.ofNat 52 (mantissa - 2 ^ 52)).toNat = mantissa - 2 ^ 52 := by
        rw [BitVec.toNat_ofNat]
        omega
      have number : BitVec.ofNat 11 (exponent + 1075).toNat ≠ -1#11 := by
        intro all
        have := congrArg BitVec.toNat all
        rw [field] at this
        have ones : (-1#11).toNat = 2047 := rfl
        omega
      have nonzero : BitVec.ofNat 11 (exponent + 1075).toNat ≠ 0#11 := by
        intro none
        have := congrArg BitVec.toNat none
        rw [field] at this
        have zeros : (0#11).toNat = 0 := rfl
        omega
      refine ⟨sign, _, BitVec.ofNat 52 (mantissa - 2 ^ 52), fun all => absurd all number, ?_⟩
      rw [ofParts, if_neg number, if_neg nonzero]
      simp only [UnpackedFloat.finite.injEq, true_and, fraction, field]
      omega
    · have fraction : (BitVec.ofNat 52 mantissa).toNat = mantissa := by
        rw [BitVec.toNat_ofNat]
        omega
      have some : BitVec.ofNat 52 mantissa ≠ 0#52 := by
        intro none
        have := congrArg BitVec.toNat none
        rw [fraction] at this
        exact absurd this positive.ne'
      refine ⟨sign, 0#11, BitVec.ofNat 52 mantissa, fun all => absurd all (by decide), ?_⟩
      rw [ofParts, if_neg (by decide), if_pos rfl, dif_neg some]
      simp only [UnpackedFloat.finite.injEq, true_and, fraction]
      exact full.resolve_left normal

theorem isCanonical_unpack (bits : BitVec Format.binary64.numBits) :
    IsCanonical (UnpackedFloat.unpack Format.binary64 bits) :=
  unpack_eq bits ▸ isCanonical_ofParts ..

theorem unpack_pack {value : UnpackedFloat} (canonical : IsCanonical value) :
    UnpackedFloat.unpack Format.binary64 (UnpackedFloat.pack Format.binary64 value) = value := by
  by_cases number : value = .notANumber
  · subst number
    exact unpack_packedNaN
  · obtain ⟨sign, exponent, mantissa, finite, rfl⟩ := exists_ofParts canonical number
    rw [pack_ofParts finite, unpack_packComponents]

/-- The double of an unpacked one. -/
def packed (value : UnpackedFloat) : Float :=
  .ofModel (.pack value)

theorem packed_unpack (value : Float) : packed value.toModel.unpack = value := by
  obtain ⟨⟨⟨bits⟩, valid⟩⟩ := value
  have same := pack_unpack_of_valid valid
  simp only [packed, Float.Model.pack, Float.Model.unpack, same]

theorem unpack_packed {value : UnpackedFloat} (canonical : IsCanonical value) : (packed value).toModel.unpack = value :=
  unpack_pack canonical

theorem unpack_packed_finite {mantissa : ℕ} {exponent : ℤ} (double : IsDouble mantissa exponent) (sign : Sign) :
    (packed (.finite sign mantissa exponent double.positive)).toModel.unpack =
      .finite sign mantissa exponent double.positive :=
  unpack_packed (show IsCanonical (.finite ..) from double)

theorem isDouble_of_unpack {value : Float} {sign : Sign} {mantissa : ℕ} {exponent : ℤ} {positive : 0 < mantissa}
    (unpacked : value.toModel.unpack = .finite sign mantissa exponent positive) : IsDouble mantissa exponent := by
  have canonical : IsCanonical value.toModel.unpack := isCanonical_unpack _
  rw [unpacked] at canonical
  exact canonical

/-- Whether a sign is a minus. -/
def isMinus : Sign → Bool
  | .negative => true
  | .positive => false

/-- What is read off an unpacked double. -/
def reading : UnpackedFloat → Decimal.Reading
  | .notANumber => .nan
  | .infinity sign => .infinite (isMinus sign)
  | .zero sign => .finite (isMinus sign) 0 (-1074) false
  | .finite sign mantissa exponent _ => .finite (isMinus sign) mantissa exponent (isLowest mantissa exponent)

theorem isMinus_unpackSign (bits : BitVec Format.binary64.numBits) :
    isMinus (Sign.ofBitVec (unpackSign bits)) = (bits.toNat / 2 ^ 63 == 1) := by
  rw [← toNat_unpackSign]
  generalize unpackSign bits = sign
  revert sign
  decide

theorem reading_ofParts (sign : Sign) (exponent : BitVec 11) (mantissa : BitVec 52) :
    reading (ofParts sign exponent mantissa) =
      if exponent.toNat == 2047 then (if mantissa.toNat == 0 then .infinite (isMinus sign) else .nan)
      else if exponent.toNat == 0 then .finite (isMinus sign) mantissa.toNat (-1074) false
      else .finite (isMinus sign) (mantissa.toNat + 2 ^ 52) (exponent.toNat - 1075)
        (mantissa.toNat == 0 && 1 < exponent.toNat) := by
  have full : exponent = -1#11 ↔ exponent.toNat = 2047 := BitVec.toNat_inj.symm
  have empty : exponent = 0#11 ↔ exponent.toNat = 0 := BitVec.toNat_inj.symm
  have none : mantissa = 0#52 ↔ mantissa.toNat = 0 := BitVec.toNat_inj.symm
  simp only [ofParts, full, empty, none, beq_iff_eq]
  split_ifs with all zero zero' zero''
  · rfl
  · rfl
  · rw [zero'']
    rfl
  · simp [reading, isLowest]
  · have first : (2 ^ 52 + mantissa.toNat == 2 ^ 52) = (mantissa.toNat == 0) :=
      Bool.eq_iff_iff.mpr (by simp only [beq_iff_eq]; omega)
    have above : decide (-1074 < (exponent.toNat : ℤ) - 1075) = decide (1 < exponent.toNat) :=
      decide_eq_decide.mpr (by omega)
    rw [reading, isLowest, first, above, Nat.add_comm]

/-- Bits are decoded the same way here and there. -/
theorem read_eq (value : Float) : Decimal.read value = reading value.toModel.unpack := by
  obtain ⟨⟨⟨bits⟩, valid⟩⟩ := value
  have unpacked := unpack_eq bits
  rw [Float.Model.unpack, unpacked, reading_ofParts, isMinus_unpackSign, toNat_unpackExponent, toNat_unpackMantissa]
  rfl

end HedgedForecast.Double
