import Trendline.Proofs.Decimal.Numerals
import Trendline.Proofs.Double.Distance

/-!
The total order of the doubles. Their bits, read as a count of doubles away from zero with a sign,
put them in the order of what they stand for; the count also tells minus zero from zero and has a
place for the value that is not a number, after all others.
-/

namespace Trendline

namespace Double

open Float.Model Float.Model.UnpackedFloat

/-- The rank of a double that is so many doubles away from plus or minus zero. -/
def signedRank (s : Sign) (steps : Int) : Int :=
  match s with
  | .positive => steps
  | .negative => -1 - steps

/-- The rank of a double by its parts. -/
def rankOf : UnpackedFloat → Int
  | .zero s => signedRank s 0
  | .finite s m e _ => signedRank s ((e + 1074) * 2 ^ 52 + m)
  | .infinity s => signedRank s (2047 * 2 ^ 52)
  | .notANumber => 2047 * 2 ^ 52 + 2 ^ 51

section Bits

open Decimal

variable (b : BitVec 64)

theorem toNat_unpackMantissa :
    (@unpackMantissa Format.binary64 b).toNat = b.toNat % fractionCount := by
  rw [unpackMantissa, BitVec.toNat_cast, BitVec.extractLsb_toNat, Nat.shiftRight_zero]
  rfl

theorem toNat_unpackSign :
    (@unpackSign Format.binary64 b).toNat = b.toNat / halfWordCount := by
  have small := b.isLt
  rw [unpackSign, BitVec.toNat_cast, BitVec.extractLsb_toNat, Nat.shiftRight_eq_div_pow]
  change b.toNat / 2 ^ 63 % 2 = b.toNat / 2 ^ 63
  omega

/-- The sign is in the first bit. -/
theorem signedRank_unpackSign (steps : Int) :
    signedRank (Sign.ofBitVec (@unpackSign Format.binary64 b)) steps
      = if b.toNat < halfWordCount then steps else -1 - steps := by
  have bit := toNat_unpackSign b
  have small := b.isLt
  split_ifs with positive
  · rw [Nat.div_eq_of_lt positive] at bit
    have zero : @unpackSign Format.binary64 b = 0#1 := BitVec.eq_of_toNat_eq bit
    rw [zero]
    rfl
  · have one : @unpackSign Format.binary64 b = 1#1 := by
      apply BitVec.eq_of_toNat_eq
      rw [bit]
      change b.toNat / 2 ^ 63 = 1
      change ¬ b.toNat < 2 ^ 63 at positive
      omega
    rw [one]
    rfl

end Bits

/-- The bits of a double tell its rank. -/
theorem doubleRank_eq (x : Float) : Scalar.doubleRank x = rankOf x.toModel.unpack := by
  obtain ⟨⟨⟨b⟩, valid⟩⟩ := x
  have exponent := Decimal.toNat_unpackExponent b
  have mantissa := toNat_unpackMantissa b
  simp only [halfWordCount, Decimal.fractionCount] at exponent mantissa
  have signed : Scalar.doubleRank (Float.ofModel ⟨⟨b⟩, valid⟩)
      = signedRank (Sign.ofBitVec (@unpackSign Format.binary64 b))
        ((@unpackExponent Format.binary64 b).toNat * 2 ^ 52
          + (@unpackMantissa Format.binary64 b).toNat) := by
    have small := b.isLt
    rw [signedRank_unpackSign]
    change (if b.toNat < 2 ^ 63 then (b.toNat : Int) else 2 ^ 63 - 1 - b.toNat)
      = if b.toNat < 2 ^ 63 then _ else _
    split_ifs <;> omega
  have bias : (Format.binary64.exponentBias : Int) + (52 : Nat) = 1075 := rfl
  have whole := toNat_one_append (@unpackMantissa Format.binary64 b)
  change _ = rankOf (UnpackedFloat.unpack Format.binary64 b)
  rw [UnpackedFloat.unpack]
  dsimp only
  rw [bias]
  split_ifs with top infinite bottom zero
  · rw [signed, top, infinite]
    rfl
  · -- Not all bits are free here: there is one value that is not a number.
    obtain rfl := valid.eq_packedNaN top infinite
    rfl
  · rw [signed, bottom, zero]
    rfl
  · rw [signed, bottom]
    exact congrArg _ (by simp)
  · rw [signed, rankOf, whole]
    congr 1
    push_cast
    ring

theorem doubleRank_injective : Function.Injective Scalar.doubleRank := by
  intro ⟨⟨⟨b⟩, _⟩⟩ ⟨⟨⟨c⟩, _⟩⟩ same
  change (if b.toNat < 2 ^ 63 then (b.toNat : Int) else 2 ^ 63 - 1 - b.toNat)
    = if c.toNat < 2 ^ 63 then (c.toNat : Int) else 2 ^ 63 - 1 - c.toNat at same
  have bits : b = c := by
    apply BitVec.eq_of_toNat_eq
    split_ifs at same <;> omega
  subst bits
  rfl

/-- Doubles with the same parts are the same. -/
theorem unpack_injective : Function.Injective fun x : Float => x.toModel.unpack := by
  intro x y same
  apply doubleRank_injective
  rw [doubleRank_eq, doubleRank_eq]
  exact congrArg rankOf same

/-- A finite number is fewer doubles away from zero than infinity, and its significand fills its
bits unless its exponent is the least. -/
theorem Unpacked.steps_bounds {u : UnpackedFloat} (h : Unpacked u) :
    match u with
    | .finite _ m e _ => 0 < m ∧ m < 2 ^ 53 ∧ (-1074 = e ∨ -1074 < e ∧ 2 ^ 52 ≤ m) ∧ e ≤ 971
    | _ => True := by
  cases h with
  | notANumber | infinity | zero => trivial
  | subnormal _ small _ => dsimp only; omega
  | normal _ h _ =>
      obtain ⟨low, high, least, greatest⟩ := h
      dsimp only
      omega

/-- The order of the ranks is the order of the numbers, minus zero before zero and what is not a
number last. -/
theorem rankOf_lt_iff {u v : UnpackedFloat} (hu : Unpacked u) (hv : Unpacked v) :
    rankOf u < rankOf v ↔ (∃ a ∈ placeOf u, ∃ b ∈ placeOf v, a < b) ∨
      u = .zero .negative ∧ v = .zero .positive ∨ u ≠ .notANumber ∧ v = .notANumber := by
  have left := hu.steps_bounds
  have right := hv.steps_bounds
  -- Kinds and signs decide all but two finite numbers of one sign; there the bounds let a larger
  -- exponent outweigh any significand.
  rcases u with s | _ | s | ⟨s, m, e, hm⟩ <;> rcases v with s' | _ | s' | ⟨s', m', e', hm'⟩ <;>
    try cases s
  all_goals try cases s'
  all_goals simp [rankOf, signedRank, placeOf, Prod.Lex.toLex_lt_toLex] at left right ⊢
  all_goals omega

/-- A double comes before another: as the smaller number, as minus zero before zero, or as a number
before what is none. -/
def Before (x y : Float) : Prop :=
  x < y ∨ x = -0.0 ∧ y = 0.0 ∨ Scalar.isNumber x = true ∧ Scalar.isNumber y = false

theorem eq_iff_unpack {x y : Float} : x = y ↔ x.toModel.unpack = y.toModel.unpack :=
  unpack_injective.eq_iff.symm

theorem doubleRank_lt_iff {x y : Float} :
    Scalar.doubleRank x < Scalar.doubleRank y ↔ Before x y := by
  have plus : (0.0 : Float).toModel.unpack = .zero .positive := by rfl
  have minus : (-0.0 : Float).toModel.unpack = .zero .negative := by rfl
  rw [doubleRank_eq, doubleRank_eq, rankOf_lt_iff (unpacked _) (unpacked _), Before, lt_iff,
    eq_iff_unpack, eq_iff_unpack, plus, minus, isNumber_iff, ← Bool.not_eq_true, isNumber_iff,
    not_not]
  exact Iff.rfl

theorem not_lt_of_isLE_order {x y : Float} (h : (Scalar.order x y).isLE = true) : ¬ y < x := by
  intro less
  have before : Scalar.doubleRank y < Scalar.doubleRank x := doubleRank_lt_iff.mpr (.inl less)
  have after : Scalar.order x y = .gt := Int.compare_eq_gt.mpr before
  rw [after] at h
  cases h

end Double

end Trendline
