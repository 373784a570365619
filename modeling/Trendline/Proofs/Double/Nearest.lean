import Trendline.Proofs.Double.Sign
import Trendline.Proofs.Double.Spread

/-!
Rounding keeps order. A number and an exponent stand for an exact value; it is brought to a multiple
of the last bit that a double of its size has, and a larger value never to a smaller one.
-/

namespace Trendline

namespace Double

open Float.Model Float.Model.UnpackedFloat
open Float.Model.UnpackedFloat.ExtendedMantissa
open ExtendedMantissa

variable {m n k : Nat} {e d t low : Int} {s : Sign}

theorem shiftRight_add (em : ExtendedMantissa) (j k : Nat) : em >>> (j + k) = em >>> j >>> k := by
  induction k with
  | zero => rfl
  | succ k ih => exact congrArg shiftRightOne ih

/-- What was shifted in is shifted out without a trace. -/
theorem shiftRight_shiftLeft (n k : Nat) :
    ofMantissaAndAccuracy (n <<< k) .exact >>> k = ofMantissaAndAccuracy n .exact := by
  induction k generalizing n with
  | zero => rfl
  | succ k ih =>
      have once : shiftRightOne (ofMantissaAndAccuracy (n <<< 1) .exact)
          = ofMantissaAndAccuracy n .exact := by
        simp [shiftRightOne, ofMantissaAndAccuracy, Nat.shiftLeft_eq]
      have twice : n <<< (k + 1) = (n <<< 1) <<< k := by
        rw [← Nat.shiftLeft_add, Nat.add_comm]
      rw [twice, ← once, ← ih (n <<< 1)]
      rfl

/-- The exponent of the last bit that a double near `n * 2 ^ e` has. -/
def lastBit (n : Nat) (e : Int) : Int :=
  max (n.log2 + e - 52) (-1074)

theorem targetExponent_eq (n : Nat) (e : Int) :
    Format.binary64.targetExponent (totalExponent n e) = lastBit n e := by
  change max ((n.log2 : Int) + 1 + e - 53) (-1074) = max (n.log2 + e - 52) (-1074)
  omega

/-- The number `i` for which `i * 2 ^ t` is nearest to `n * 2 ^ e`. -/
def nearest (n : Nat) (e t : Int) : Nat :=
  (ofMantissaAndAccuracy (n <<< (e - t).toNat) .exact >>> (t - e).toNat).roundedMantissa

theorem nearest_self (m : Nat) (t : Int) : nearest m t t = m := by
  rw [nearest, Int.sub_self]
  rfl

/-- It does not matter how far both are shifted first. -/
theorem nearest_eq (lowE : low ≤ e) (lowT : low ≤ t) :
    nearest n e t
      = (ofMantissaAndAccuracy (n <<< (e - low).toNat) .exact
          >>> (t - low).toNat).roundedMantissa := by
  obtain ⟨j, left, right⟩ : ∃ j, (e - low).toNat = (e - t).toNat + j ∧
      (t - low).toNat = j + (t - e).toNat := ⟨(min e t - low).toNat, by omega, by omega⟩
  rw [left, right, Nat.shiftLeft_add, shiftRight_add, shiftRight_shiftLeft]
  rfl

theorem shiftLeft_mul_zpow (lowE : low ≤ e) :
    ((n <<< (e - low).toNat : Nat) : ℚ) * 2 ^ low = n * 2 ^ e :=
  apply_decreaseExponent (s := .positive) lowE

theorem nearest_le_nearest (le : (m : ℚ) * 2 ^ e ≤ n * 2 ^ d) (t : Int) :
    nearest m e t ≤ nearest n d t := by
  obtain ⟨low, lowE, lowD, lowT⟩ : ∃ low : Int, low ≤ e ∧ low ≤ d ∧ low ≤ t :=
    ⟨min (min e d) t, by omega, by omega, by omega⟩
  have more : m <<< (e - low).toNat ≤ n <<< (d - low).toNat := by
    rw [← shiftLeft_mul_zpow lowE, ← shiftLeft_mul_zpow lowD,
      mul_le_mul_iff_left₀ (zpow_pos two_pos low)] at le
    exact_mod_cast le
  rw [nearest_eq lowE lowT, nearest_eq lowD lowT]
  apply roundedMantissa_le
  apply quarters_shiftRight_le
  simp only [quarters, ofMantissaAndAccuracy]
  omega

/-! The size of a value and its last bit -/

theorem natCast_two_pow_mul_zpow (k : Nat) (t : Int) :
    ((2 ^ k : Nat) : ℚ) * 2 ^ t = 2 ^ (k + t) := by
  rw [zpow_add₀ two_ne_zero, zpow_natCast, Nat.cast_pow, Nat.cast_ofNat]

theorem zpow_le_mul_zpow (positive : 0 < n) (e : Int) : (2 : ℚ) ^ (n.log2 + e) ≤ n * 2 ^ e := by
  rw [← natCast_two_pow_mul_zpow, mul_le_mul_iff_left₀ (zpow_pos two_pos e), Nat.cast_le]
  exact Nat.log2_self_le (Nat.ne_of_gt positive)

theorem mul_zpow_le_zpow (n : Nat) (e : Int) : (n : ℚ) * 2 ^ e ≤ 2 ^ (n.log2 + 1 + e) := by
  have whole := natCast_two_pow_mul_zpow (n.log2 + 1) e
  rw [Nat.cast_succ] at whole
  rw [← whole, mul_le_mul_iff_left₀ (zpow_pos two_pos e), Nat.cast_le]
  exact Nat.le_of_lt Nat.lt_log2_self

theorem lastBit_le_lastBit (positive : 0 < m) (le : (m : ℚ) * 2 ^ e ≤ n * 2 ^ d) :
    lastBit m e ≤ lastBit n d := by
  have size := le_of_zpow_le Nat.lt_log2_self ((zpow_le_mul_zpow positive e).trans le)
  unfold lastBit
  omega

/-- A significand and the exponent of its last bit. Rounding up may have filled one more bit. -/
structure Fills (m : Nat) (t : Int) : Prop where
  least : -1074 ≤ t
  high : m ≤ 2 ^ 53
  low : -1074 < t → 2 ^ 52 ≤ m

theorem fills_nearest (positive : 0 < n) (e : Int) :
    Fills (nearest n e (lastBit n e)) (lastBit n e) := by
  generalize last : lastBit n e = t
  unfold lastBit at last
  -- Rounding keeps the order and leaves powers of two as they are, so it stays between two of them.
  refine ⟨by omega, ?_, fun above => ?_⟩
  · have below : (n : ℚ) * 2 ^ e ≤ (2 ^ 53 : Nat) * 2 ^ t := by
      rw [natCast_two_pow_mul_zpow]
      exact (mul_zpow_le_zpow n e).trans (zpow_le_zpow_right₀ one_le_two (by omega))
    exact (nearest_le_nearest below t).trans_eq (nearest_self _ t)
  · have beyond : ((2 ^ 52 : Nat) : ℚ) * 2 ^ t ≤ n * 2 ^ e := by
      rw [natCast_two_pow_mul_zpow]
      exact (zpow_le_zpow_right₀ one_le_two (by omega)).trans (zpow_le_mul_zpow positive e)
    exact (nearest_self _ t).symm.trans_le (nearest_le_nearest beyond t)

/-! The place of what is rounded -/

/-- The place of a number with this significand, which has all its bits or the smallest exponent. -/
def standing (m : Nat) (t : Int) : Int ×ₗ Int ×ₗ Int :=
  if m = 0 then toLex (0, toLex (0, 0))
  else if m < 2 ^ 53 then
    if t ≤ 971 then toLex (1, toLex (t, (m : Int))) else toLex (2, toLex (0, 0))
  else if t < 971 then toLex (1, toLex (t + 1, 2 ^ 52)) else toLex (2, toLex (0, 0))

theorem standing_le_standing (hm : Fills m t) (hn : Fills n d) (le : t < d ∨ t = d ∧ m ≤ n) :
    standing m t ≤ standing n d := by
  obtain ⟨least, high, -⟩ := hm
  obtain ⟨-, highN, low⟩ := hn
  unfold standing
  split_ifs <;> simp only [Prod.Lex.toLex_le_toLex, true_and, and_true, le_refl] <;> omega

theorem standing_nonneg (m : Nat) (t : Int) : toLex (0, toLex (0, 0)) ≤ standing m t := by
  unfold standing
  split_ifs <;> simp [Prod.Lex.toLex_le_toLex]

theorem placeOf_pack (h : Fills m t) (high : m < 2 ^ 53) (positive : 0 < m) :
    placeOf (Float.Model.pack (.finite .positive m t positive)).unpack = some (standing m t) := by
  obtain ⟨least, -, low⟩ := h
  rw [standing, if_neg (by omega), if_pos high]
  by_cases small : m < 2 ^ 52
  · obtain rfl : t = -1074 := by omega
    rw [if_pos (by decide), unpack_pack_subnormal small]
    rfl
  · by_cases fits : t ≤ 971
    · have normal : Normal m t := ⟨by omega, high, least, fits⟩
      rw [if_pos fits, unpack_pack normal]
      rfl
    · rw [if_neg fits, unpack_pack_overflow (by omega)]
      rfl

theorem shiftToTargetExponent_eq_lastBit (n : Nat) (e : Int) (accuracy : Accuracy) :
    shiftToTargetExponent Format.binary64 n e accuracy
      = (ofMantissaAndAccuracy n accuracy >>> (lastBit n e - e).toNat,
        e + (lastBit n e - e).toNat) := by
  rw [shiftToTargetExponent, targetExponent_eq]
  rfl

/-- The number that a rounded significand makes. -/
def settled (s : Sign) (m : Nat) (t : Int) : UnpackedFloat :=
  let (em, e) := shiftToTargetExponent Format.binary64 m t .exact
  if h : em.mantissa = 0 then .zero s else .finite s em.mantissa e (Nat.pos_of_ne_zero h)

theorem roundWithAccuracy_eq_settled (s : Sign) (n : Nat) (e : Int) (accuracy : Accuracy) :
    roundWithAccuracy Format.binary64 s n e accuracy
      = settled s (ofMantissaAndAccuracy n accuracy >>> (lastBit n e - e).toNat).roundedMantissa
          (e + (lastBit n e - e).toNat) := by
  rw [roundWithAccuracy, shiftToTargetExponent_eq_lastBit]
  rfl

theorem round_eq_settled (s : Sign) (positive : 0 < n) (e : Int) :
    UnpackedFloat.round Format.binary64 s n e
      = settled s (nearest n e (lastBit n e)) (lastBit n e) := by
  -- Where bits are missing the number is shifted left first, which leaves its size as it is.
  have same : lastBit (n <<< (e - lastBit n e).toNat) (e - (e - lastBit n e).toNat)
      = lastBit n e := by
    rw [lastBit, log2_shiftLeft_eq positive, lastBit]
    omega
  rw [UnpackedFloat.round, targetExponent_eq, decreaseExponent]
  dsimp only
  rw [roundWithAccuracy_eq_settled, same, nearest]
  congr 3 <;> omega

theorem settled_zero (s : Sign) (t : Int) : settled s 0 t = .zero s := by
  rw [settled, shiftToTargetExponent_eq_lastBit]
  dsimp only
  rw [dif_pos]
  rw [mantissa_shiftRight, mantissa_ofMantissaAndAccuracy, Nat.zero_div]

theorem settled_of_lt (high : m < 2 ^ 53) (least : -1074 ≤ t) (positive : 0 < m) :
    settled s m t = .finite s m t positive := by
  have log : m.log2 < 53 := (Nat.log2_lt (Nat.ne_of_gt positive)).mpr high
  have shift : (lastBit m t - t).toNat = 0 := by
    rw [lastBit]
    omega
  have whole : (ofMantissaAndAccuracy m .exact >>> 0).mantissa = m := rfl
  rw [settled, shiftToTargetExponent_eq_lastBit, shift]
  simp only [whole, Int.add_zero, Int.cast_ofNat_Int]
  rw [dif_neg (Nat.ne_of_gt positive)]

theorem settled_full (least : -1074 ≤ t) :
    settled s (2 ^ 53) t = .finite s (2 ^ 52) (t + 1) (by decide) := by
  have log : (2 ^ 53).log2 = 53 := by decide
  have shift : (lastBit (2 ^ 53) t - t).toNat = 1 := by
    rw [lastBit, log]
    omega
  have whole : (ofMantissaAndAccuracy (2 ^ 53) .exact >>> 1).mantissa = 2 ^ 52 := rfl
  rw [settled, shiftToTargetExponent_eq_lastBit, shift]
  simp only [whole]
  rw [dif_neg (by decide)]
  rfl

theorem placeOf_settled (h : Fills m t) :
    placeOf (Float.Model.pack (settled .positive m t)).unpack = some (standing m t) := by
  rcases Nat.eq_zero_or_pos m with rfl | positive
  · rw [settled_zero]
    rfl
  · rcases Nat.lt_or_eq_of_le h.high with less | rfl
    · rw [settled_of_lt less h.least positive]
      exact placeOf_pack h less positive
    · have next : Fills (2 ^ 52) (t + 1) :=
        ⟨h.least.trans (Int.le_of_lt (Int.lt_succ t)), by decide, fun _ => Nat.le_refl _⟩
      rw [settled_full h.least, placeOf_pack next (by decide) (by decide)]
      rfl

theorem placeOf_round (positive : 0 < n) (e : Int) :
    placeOf (Float.Model.pack (UnpackedFloat.round Format.binary64 .positive n e)).unpack
      = some (standing (nearest n e (lastBit n e)) (lastBit n e)) := by
  rw [round_eq_settled .positive positive]
  exact placeOf_settled (fills_nearest positive e)

end Double

end Trendline
