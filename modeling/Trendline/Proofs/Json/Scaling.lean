import Trendline.Json.Value
import Trendline.Proofs.Double.Halfway

/-!
Digits and a power of ten as a double. The digits are brought to the nearest double, and so is the
power; their product or quotient is rounded once more. A power below all doubles is divided out in
two steps. Where the product is not among the largest doubles it stays finite.
-/

namespace Trendline

open Float.Model Float.Model.UnpackedFloat

namespace Double

/-- The number that a double stands for, if it is finite. -/
def number (x : Float) : ℚ :=
  value x.toModel.unpack

/-- Finite and above zero. -/
structure IsPositive (x : Float) : Prop where
  isFinite : x.isFinite = true
  pos : 0 < number x

variable {x y low high : Float} {q a b : ℚ}

theorem IsPositive.exists_unpack (h : IsPositive x) :
    ∃ m e positive, x.toModel.unpack = .finite .positive m e positive := by
  have shape (u : UnpackedFloat) (finite : u.isFinite = true) (pos : 0 < value u) :
      ∃ m e positive, u = .finite .positive m e positive := by
    rcases u with s | _ | s | ⟨_ | _, m, e, positive⟩
    case finite.positive => exact ⟨m, e, positive, rfl⟩
    case finite.negative =>
      have below : value (.finite .negative m e positive) ≤ 0 := by
        change ((-(m : Int) : Int) : ℚ) * 2 ^ e ≤ 0
        rw [Int.cast_neg, neg_mul, Left.neg_nonpos_iff]
        exact mul_nonneg (Nat.cast_nonneg m) (zpow_pos two_pos e).le
      exact absurd pos (not_lt.mpr below)
    case zero => exact (lt_irrefl _ pos).elim
    all_goals cases finite
  exact shape _ h.isFinite h.pos

theorem isPositive_of_unpack {m : Nat} {e : Int} {positive : 0 < m}
    (unpack : x.toModel.unpack = .finite .positive m e positive) : IsPositive x := by
  constructor
  · change x.toModel.unpack.isFinite = true
    rw [unpack]
    rfl
  · rw [number, unpack]
    exact mul_pos (Int.cast_pos.mpr (Int.natCast_pos.mpr positive)) (zpow_pos two_pos e)

theorem number_le_iff (hx : x.isFinite = true) (hy : y.isFinite = true) :
    number x ≤ number y ↔ AtMost x.toModel.unpack y.toModel.unpack :=
  (atMost_iff_value (unpacked _) (unpacked _) hx hy).symm

theorem isPositive_of_lt (above : 0 < x) (finite : x.isFinite = true) : IsPositive x := by
  refine ⟨finite, lt_of_not_ge fun le => ?_⟩
  have atMost : AtMost x.toModel.unpack (0 : Float).toModel.unpack :=
    (number_le_iff finite rfl).mp le
  exact not_lt_of_le (le_iff_atMost.mpr atMost) above

theorem IsPositive.brought (h : IsPositive x) : Brought (number x) .positive x.toModel.unpack := by
  obtain ⟨m, e, positive, unpack⟩ := h.exists_unpack
  have whole : Unpacked (.finite .positive m e positive) := unpack ▸ unpacked x.toModel
  obtain ⟨high, least, last⟩ := lastBit_of_unpacked whole
  have rounded := brought_round (s := .positive) positive e
  rw [round_eq_settled .positive positive, last, nearest_self, settled_of_lt high least positive,
    whole.unpack_pack] at rounded
  rw [number, unpack]
  exact rounded

theorem IsPositive.mul (hx : IsPositive x) (hy : IsPositive y) :
    Brought (number x * number y) .positive (x * y).toModel.unpack := by
  obtain ⟨m, e, positive, unpackX⟩ := hx.exists_unpack
  obtain ⟨n, d, some, unpackY⟩ := hy.exists_unpack
  exact brought_mul unpackX unpackY

theorem IsPositive.div (hx : IsPositive x) (hy : IsPositive y) :
    Brought (number x / number y) .positive (x / y).toModel.unpack := by
  obtain ⟨m, e, positive, unpackX⟩ := hx.exists_unpack
  obtain ⟨n, d, some, unpackY⟩ := hy.exists_unpack
  exact brought_div unpackX unpackY

/-- What is rounded between two positive doubles is one itself. -/
theorem isPositive_of_between (hx : Brought q .positive x.toModel.unpack)
    (hlow : Brought a .positive low.toModel.unpack)
    (hhigh : Brought b .positive high.toModel.unpack) (above : a ≤ q) (below : q ≤ b)
    (positive : IsPositive low) (finite : high.isFinite = true) : IsPositive x := by
  have isFinite : x.isFinite = true := hx.isFinite hhigh below finite
  refine ⟨isFinite, positive.pos.trans_le ?_⟩
  exact (number_le_iff positive.isFinite isFinite).mpr (hlow.atMost hx above)

/-! Counts and powers of ten -/

variable {n m : Nat}

theorem isPositive_doubleOfCount (some : 0 < n) (fits : n < wordCount) :
    IsPositive (Scalar.doubleOfCount n) := by
  obtain ⟨m, e, ⟨-, positive, unpack⟩, -⟩ := is_doubleOfCount some fits
  exact isPositive_of_unpack unpack

theorem brought_doubleOfCount (some : 0 < n) (fits : n < wordCount) :
    Brought n .positive (Scalar.doubleOfCount n).toModel.unpack := by
  have rounded := brought_round (s := .positive) some 0
  rw [zpow_zero, mul_one] at rounded
  rw [toModel_doubleOfCount some fits]
  exact rounded

theorem number_doubleOfCount_mono (some : 0 < m) (le : m ≤ n) (fits : n < wordCount) :
    number (Scalar.doubleOfCount m) ≤ number (Scalar.doubleOfCount n) := by
  have left := brought_doubleOfCount some (le.trans_lt fits)
  have right := brought_doubleOfCount (some.trans_le le) fits
  exact (number_le_iff (isPositive_doubleOfCount some (le.trans_lt fits)).isFinite
    (isPositive_doubleOfCount (some.trans_le le) fits).isFinite).mpr
    (left.atMost right (Nat.cast_le.mpr le))

/-- Whether a double is exactly some whole number. -/
def isWhole (u : UnpackedFloat) (n : Nat) : Bool :=
  match u with
  | .finite .positive m e _ => m * 2 ^ e.toNat = n * 2 ^ (-e).toNat
  | _ => false

theorem number_of_isWhole (whole : isWhole x.toModel.unpack n = true) :
    IsPositive x ∧ number x = n := by
  cases unpack : x.toModel.unpack with
  | finite sign m e positive =>
      rw [unpack] at whole
      cases sign with
      | negative => cases whole
      | positive =>
          refine ⟨isPositive_of_unpack unpack, ?_⟩
          have same : (m : ℚ) * 2 ^ e.toNat = n * 2 ^ (-e).toNat := by
            exact_mod_cast of_decide_eq_true whole
          have split : (2 : ℚ) ^ e = 2 ^ e.toNat / 2 ^ (-e).toNat := by
            rw [← zpow_natCast, ← zpow_natCast, ← zpow_sub₀ two_ne_zero]
            congr 1
            omega
          rw [number, unpack]
          change (m : ℚ) * 2 ^ e = n
          rw [split, mul_div_assoc', same, mul_div_cancel_right₀ _ (pow_ne_zero _ two_ne_zero)]
  | notANumber | infinity | zero =>
      rw [unpack] at whole
      cases whole

end Double

namespace Number

open Double

theorem toModel_powerOfTen {k : Nat} (large : 22 < k) (fits : k ≤ 308) :
    (powerOfTen k).toModel = Float.Model.pack (roundWithAccuracy Format.binary64 .positive
      (2 ^ 53 * 10 ^ k) (-53) .exact) := by
  rw [powerOfTen, Float.ofScientific, dif_neg (by omega)]
  dsimp only
  rw [Float.Model.ofScientific, UnpackedFloat.ofScientific, dif_neg (by decide), if_neg ?_,
    if_neg ?_, if_pos ?_]
  · rfl
  · change 0 ≤ (k : Int)
    omega
  · change ¬ (k : Int) < -(2 ^ 11 + (Nat.log2 1 : Int))
    omega
  · change ¬ (k : Int) > 2 ^ 11
    omega

/-- The powers of ten that are doubles. -/
theorem number_powerOfTen {k : Nat} (small : k ≤ 22) :
    IsPositive (powerOfTen k) ∧ number (powerOfTen k) = 10 ^ k := by
  have exact : ∀ k ≤ 22, isWhole (powerOfTen k).toModel.unpack (10 ^ k) = true := by
    decide +kernel
  have whole := number_of_isWhole (exact k small)
  rwa [Nat.cast_pow, Nat.cast_ofNat] at whole

theorem brought_powerOfTen {k : Nat} (fits : k ≤ 308) :
    Brought (10 ^ k) .positive (powerOfTen k).toModel.unpack := by
  rcases Nat.lt_or_ge 22 k with large | small
  · rw [toModel_powerOfTen large fits]
    refine brought_roundWithAccuracy ?_ ?_
    · have whole : (10 : ℚ) ^ k / 2 ^ (-53 : Int) = (2 ^ 53 * 10 ^ k : Nat) := by
        push_cast
        rw [zpow_neg, div_inv_eq_mul, mul_comm]
        norm_cast
      rw [whole]
      exact .exact _
    · have bits : 53 ≤ (2 ^ 53 * 10 ^ k).log2 :=
        (Nat.le_log2 (by positivity)).mpr (Nat.le_mul_of_pos_right _ (by positivity))
      unfold lastBit
      omega
  · obtain ⟨positive, exact⟩ := number_powerOfTen small
    have rounded := positive.brought
    rwa [exact] at rounded

theorem isPositive_powerOfTen {k : Nat} (fits : k ≤ 308) : IsPositive (powerOfTen k) := by
  have finite : (powerOfTen 308).isFinite = true := by decide +kernel
  exact isPositive_of_between (brought_powerOfTen fits) (brought_powerOfTen (k := 0) (by decide))
    (brought_powerOfTen le_rfl) (pow_le_pow_right₀ (by norm_num) (Nat.zero_le k))
    (pow_le_pow_right₀ (by norm_num) fits) (number_powerOfTen (Nat.zero_le _)).1 finite

/-! The reading of digits and a power -/

/-- The exact product or quotient that is rounded last. -/
def lastStep (significand : Nat) (e : Int) : ℚ :=
  if 0 ≤ e then
    number (Scalar.doubleOfCount significand) * number (powerOfTen e.natAbs)
  else if -308 ≤ e then
    number (Scalar.doubleOfCount significand) / number (powerOfTen e.natAbs)
  else
    number (Scalar.doubleOfCount significand / powerOfTen 308)
      / number (powerOfTen (e + 308).natAbs)

/-- The halfway point between the two largest doubles. -/
def lastHalfway : Nat :=
  (2 ^ 54 - 3) * 2 ^ 970

/-- How many units of a power of ten seventeen digits may count up to there. -/
def mostUnits (k : Nat) : Nat :=
  min (10 ^ 17) (lastHalfway / 10 ^ k)

theorem isFinite_mostUnits : ∀ k < 309, 291 ≤ k →
    (Scalar.doubleOfCount (mostUnits k) * powerOfTen k).isFinite = true := by
  decide +kernel

variable {n : Nat} {e : Int}

/-- A product of those that the digits of a double below the largest ask for is finite. -/
theorem isFinite_product {k : Nat} (some : 0 < n) (few : n ≤ 10 ^ 17) (fits : k ≤ 308)
    (small : n * 10 ^ k ≤ lastHalfway) :
    (Scalar.doubleOfCount n * powerOfTen k).isFinite = true := by
  have wide : 10 ^ 17 < wordCount := by decide
  have units : n ≤ mostUnits (max k 291) := by
    refine le_min few ((Nat.le_div_iff_mul_le (by positivity)).mpr ?_)
    rcases le_total k 291 with low | high
    · rw [max_eq_right low]
      exact (Nat.mul_le_mul_right _ few).trans (by decide +kernel)
    · rwa [max_eq_left high]
  have most : mostUnits (max k 291) < wordCount := (min_le_left _ _).trans_lt wide
  have left := isPositive_doubleOfCount some (few.trans_lt wide)
  have top := isPositive_doubleOfCount (some.trans_le units) most
  have power := isPositive_powerOfTen fits
  have above := isPositive_powerOfTen (k := max k 291) (by omega)
  refine (left.mul power).isFinite (top.mul above) ?_
    (isFinite_mostUnits (max k 291) (by omega) (le_max_right _ _))
  refine mul_le_mul (number_doubleOfCount_mono some units most) ?_ power.pos.le top.pos.le
  refine (number_le_iff power.isFinite above.isFinite).mpr ?_
  exact (brought_powerOfTen fits).atMost (brought_powerOfTen (by omega))
    (pow_le_pow_right₀ (by norm_num) (le_max_left _ _))

theorem beq_zero_of_isPositive {x : Float} (positive : IsPositive x) : (x == 0) = false := by
  obtain ⟨m, e, some, unpack⟩ := positive.exists_unpack
  change (x.toModel.unpack.compare (0 : Float).toModel.unpack == Option.some .eq) = false
  rw [unpack]
  rfl

theorem isInf_eq_false {x : Float} (finite : x.isFinite = true) : x.isInf = false := by
  change x.toModel.unpack.isInf = false
  change x.toModel.unpack.isFinite = true at finite
  generalize x.toModel.unpack = u at finite ⊢
  cases u with
  | notANumber | infinity => cases finite
  | zero | finite => rfl

theorem scale?_of_nonneg {x : Float} {steps : Nat} (positive : 0 ≤ e) (fits : e.natAbs ≤ 308)
    (finite : (x * powerOfTen e.natAbs).isFinite = true) :
    scale? (steps + 1) x e = some (x * powerOfTen e.natAbs) := by
  rw [scale?, if_pos fits, if_pos positive]
  dsimp only
  rw [isInf_eq_false finite]
  rfl

theorem scale?_of_neg {x : Float} {steps : Nat} (negative : e < 0) (fits : e.natAbs ≤ 308) :
    scale? (steps + 1) x e = some (x / powerOfTen e.natAbs) := by
  rw [scale?, if_pos fits, if_neg (not_le.mpr negative)]

/-- Seventeen digits divided by the largest power are still a number above zero. -/
theorem isPositive_div_powerOfTen (some : 0 < n) (few : n ≤ 10 ^ 17) :
    IsPositive (Scalar.doubleOfCount n / powerOfTen 308) := by
  have wide : 10 ^ 17 < wordCount := by decide
  have power := isPositive_powerOfTen (k := 308) le_rfl
  have left := isPositive_doubleOfCount some (few.trans_lt wide)
  have one := isPositive_doubleOfCount (n := 1) (by decide) (by decide)
  have top := isPositive_doubleOfCount (n := 10 ^ 17) (by decide) wide
  have least : IsPositive (Scalar.doubleOfCount 1 / powerOfTen 308) :=
    isPositive_of_lt (by decide +kernel) (by decide +kernel)
  have finite : (Scalar.doubleOfCount (10 ^ 17) / powerOfTen 308).isFinite = true := by
    decide +kernel
  refine isPositive_of_between (left.div power) (one.div power) (top.div power) ?_ ?_ least finite
  · exact div_le_div_of_nonneg_right
      (number_doubleOfCount_mono (by decide) some (few.trans_lt wide)) power.pos.le
  · exact div_le_div_of_nonneg_right (number_doubleOfCount_mono some few wide) power.pos.le

/-- Seventeen digits and a power of ten that do not write one of the largest doubles are read as a
double: that nearest to the last exact product or quotient. -/
theorem exists_scale? (some : 0 < n) (few : n ≤ 10 ^ 17) (low : -616 ≤ e)
    (fits : (n : ℚ) * 10 ^ e ≤ lastHalfway) :
    ∃ x, scale? 4 (Scalar.doubleOfCount n) e = Option.some x ∧
      Brought (lastStep n e) .positive x.toModel.unpack := by
  have wide : 10 ^ 17 < wordCount := by decide
  have left := isPositive_doubleOfCount some (few.trans_lt wide)
  unfold lastStep
  split_ifs with positive near
  · obtain ⟨k, rfl⟩ := Int.eq_ofNat_of_zero_le positive
    have small : n * 10 ^ k ≤ lastHalfway := by exact_mod_cast fits
    have high : k ≤ 308 := by
      have power := (Nat.le_mul_of_pos_left (10 ^ k) some).trans small
      have less : k < 309 := by
        refine (Nat.pow_lt_pow_iff_right (a := 10) (by decide)).mp (power.trans_lt ?_)
        decide +kernel
      exact Nat.le_of_lt_succ less
    exact ⟨_, scale?_of_nonneg positive high (isFinite_product some few high small),
      left.mul (isPositive_powerOfTen high)⟩
  · have high : e.natAbs ≤ 308 := by omega
    exact ⟨_, scale?_of_neg (by omega) high, left.div (isPositive_powerOfTen high)⟩
  · have high : (e + 308).natAbs ≤ 308 := by omega
    refine ⟨_, ?_, (isPositive_div_powerOfTen some few).div (isPositive_powerOfTen high)⟩
    rw [scale?, if_neg (by omega), beq_zero_of_isPositive left, if_neg Bool.false_ne_true,
      if_neg positive]
    exact scale?_of_neg (by omega) high

end Number

end Trendline
