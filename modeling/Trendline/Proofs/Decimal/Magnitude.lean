import Trendline.Proofs.Decimal.Shortest
import Trendline.Proofs.Double.TotalOrder

/-!
What the bits of a double stand for and what it is unpacked into are the same.
-/

namespace Trendline.Decimal

open Double
open Float.Model Float.Model.UnpackedFloat

/-- What a double stands for, by its parts. -/
def magnitudeOf : UnpackedFloat → Magnitude
  | .zero _ => .zero
  | .infinity _ => .infinite
  | .notANumber => .notANumber
  | .finite _ m e _ => .finite ⟨m, e, m = 2 ^ 52 && -1074 < e⟩

theorem magnitude_eq (x : Float) : magnitude x = magnitudeOf x.toModel.unpack := by
  obtain ⟨⟨⟨b⟩, valid⟩⟩ := x
  have bias : (Format.binary64.exponentBias : Int) + (52 : Nat) = 1075 := rfl
  have bound : (@unpackMantissa Format.binary64 b).toNat < 2 ^ 52 :=
    (@unpackMantissa Format.binary64 b).isLt
  have whole := toNat_one_append (@unpackMantissa Format.binary64 b)
  have top : (@unpackExponent Format.binary64 b).toNat = 2047
      ↔ @unpackExponent Format.binary64 b = -1#11 := by
    rw [← BitVec.toNat_inj]
    rfl
  have bottom : (@unpackExponent Format.binary64 b).toNat = 0
      ↔ @unpackExponent Format.binary64 b = 0#11 := by
    rw [← BitVec.toNat_inj]
    rfl
  have none : (@unpackMantissa Format.binary64 b).toNat = 0
      ↔ @unpackMantissa Format.binary64 b = 0#52 := by
    rw [← BitVec.toNat_inj]
    rfl
  have read : magnitude (Float.ofModel ⟨⟨b⟩, valid⟩) =
      let power := (@unpackExponent Format.binary64 b).toNat
      let fraction := (@unpackMantissa Format.binary64 b).toNat
      if power = 2047 then
        if fraction = 0 then .infinite else .notANumber
      else if power = 0 then
        if fraction = 0 then .zero else .finite ⟨fraction, -1074, false⟩
      else
        .finite ⟨fraction + fractionCount, (power : Int) - 1075, fraction = 0 && power ≠ 1⟩ := by
    have fraction : (@unpackMantissa Format.binary64 b).toNat
        = b.toNat % halfWordCount % fractionCount := by
      rw [toNat_unpackMantissa]
      simp only [halfWordCount, fractionCount]
      omega
    rw [toNat_unpackExponent b, fraction]
    rfl
  change magnitude _ = magnitudeOf (UnpackedFloat.unpack Format.binary64 b)
  rw [read, UnpackedFloat.unpack]
  dsimp only
  rw [bias]
  simp only [top, bottom, none]
  split_ifs with infinite empty subnormal empty
  · rfl
  · rfl
  · rfl
  · rw [subnormal, magnitudeOf]
    simp
  · rw [← bottom] at subnormal
    rw [magnitudeOf, Magnitude.finite.injEq, Binary.mk.injEq, whole]
    refine ⟨Nat.add_comm _ _, rfl, ?_⟩
    rw [Bool.eq_iff_iff, Bool.and_eq_true, Bool.and_eq_true]
    simp only [← none, decide_eq_true_eq]
    omega

/-- The sign bit is set in the numbers that rank below zero. -/
theorem isNegative_iff (x : Float) : isNegative x = true ↔ rankOf x.toModel.unpack < 0 := by
  rw [← doubleRank_eq, isNegative, decide_eq_true_eq, Scalar.doubleRank]
  split_ifs with positive <;> omega

/-- The sign of a number as it is unpacked. -/
def signOf (x : Float) : Sign :=
  if isNegative x then .negative else .positive

theorem signOf_eq {x : Float} {s : Sign} {steps : Int} (natural : 0 ≤ steps)
    (rank : rankOf x.toModel.unpack = signedRank s steps) : signOf x = s := by
  have negative := isNegative_iff x
  rw [rank] at negative
  cases s with
  | positive => rw [signOf, if_neg (negative.not.mpr (not_lt.mpr natural))]
  | negative =>
      have below : signedRank .negative steps < 0 := by
        rw [signedRank]
        omega
      rw [signOf, if_pos (negative.mpr below)]

variable {x : Float} {b : Binary} {q : ℚ}

theorem unpack_of_magnitude_zero (zero : magnitude x = .zero) :
    x.toModel.unpack = .zero (signOf x) := by
  rw [magnitude_eq] at zero
  cases unpack : x.toModel.unpack with
  | zero s =>
      have rank : rankOf x.toModel.unpack = signedRank s 0 := by
        rw [unpack]
        rfl
      rw [signOf_eq le_rfl rank]
  | notANumber | infinity | finite =>
      rw [unpack] at zero
      cases zero

theorem unpack_of_magnitude (finite : magnitude x = .finite b) :
    b.InRange ∧ ∃ positive,
      x.toModel.unpack = .finite (signOf x) b.significand b.exponent positive := by
  rw [magnitude_eq] at finite
  cases unpack : x.toModel.unpack with
  | finite s m e positive =>
      have whole : Unpacked (.finite s m e positive) := unpack ▸ unpacked x.toModel
      have greatest : e ≤ 971 := by
        cases whole with
        | subnormal => decide
        | normal _ h => exact h.greatest
      obtain ⟨⟨least, -, -⟩, high⟩ := whole.fills
      rw [unpack] at finite
      cases finite
      refine ⟨⟨positive, high, least, greatest, by simp⟩, positive, ?_⟩
      have rank : rankOf x.toModel.unpack = signedRank s ((e + 1074) * 2 ^ 52 + m) := by
        rw [unpack, rankOf]
      rw [signOf_eq (by omega) rank]
  | notANumber | infinity | zero =>
      rw [unpack] at finite
      cases finite

/-- The numbers nearest to a double are those that are rounded to it. -/
theorem holds_iff_around (range : b.InRange) :
    b.Holds q ↔ Around b.significand b.exponent q := by
  rw [Binary.Holds, Around, Binary.low, Binary.high]
  simp only [range.narrow]

end Trendline.Decimal
