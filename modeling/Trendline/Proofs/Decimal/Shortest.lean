import Trendline.Proofs.Decimal.Numerals
import Trendline.Proofs.Double.Halfway

/-!
The shortest digits of a double. They are always found, seventeen suffice, and the decimal they
write is nearer to the double than to its neighbours.
-/

namespace Trendline.Decimal

open Double

/-- The number that some digits and a power of ten write. -/
def Digits.value (d : Digits) : ℚ :=
  d.digits * 10 ^ d.exponent

namespace Binary

def value (b : Binary) : ℚ :=
  b.significand * 2 ^ b.exponent

/-- The halfway point to the neighbour below. -/
def low (b : Binary) : ℚ :=
  (b.significand - if b.narrowBelow then 1 / 4 else 1 / 2) * 2 ^ b.exponent

/-- The halfway point to the neighbour above. -/
def high (b : Binary) : ℚ :=
  (b.significand + 1 / 2) * 2 ^ b.exponent

/-- The numbers that are nearer to `b` than to its neighbours, and the even one of two. -/
def Holds (b : Binary) (q : ℚ) : Prop :=
  Between (b.significand % 2 = 0) b.low b.high q

instance (b : Binary) (q : ℚ) : Decidable (b.Holds q) :=
  inferInstanceAs (Decidable (Between ..))

variable {b : Binary} {e : Int}

theorem pow_toNat {x : ℚ} (nonzero : x ≠ 0) (t : Int) : x ^ t.toNat = x ^ (-t).toNat * x ^ t := by
  rw [← zpow_natCast, ← zpow_natCast, ← zpow_add₀ nonzero]
  congr 1
  omega

/-! What is measured in units of a power of ten -/

theorem unit_pos (b : Binary) (e : Int) : 0 < (b.scale e).unit :=
  Nat.mul_pos (Nat.pow_pos (by decide)) (Nat.pow_pos (by decide))

/-- A quarter of the last bit in units. -/
theorem factor_eq (b : Binary) (e : Int) :
    ((Nat.pow 2 (b.exponent - 2).toNat * Nat.pow 10 (-e).toNat : Nat) : ℚ)
      = 2 ^ b.exponent / 4 / 10 ^ e * (b.scale e).unit := by
  have ten : (10 : ℚ) ≠ 0 := by decide
  have quarter : (2 : ℚ) ^ b.exponent / 4 = 2 ^ (b.exponent - 2) := by
    rw [zpow_sub₀ two_ne_zero]
    norm_num
  have factor : ((Nat.pow 2 (b.exponent - 2).toNat * Nat.pow 10 (-e).toNat : Nat) : ℚ)
      = 2 ^ (b.exponent - 2).toNat * 10 ^ (-e).toNat := by
    exact_mod_cast rfl
  have unit : ((b.scale e).unit : ℚ) = 2 ^ (-(b.exponent - 2)).toNat * 10 ^ e.toNat := by
    exact_mod_cast rfl
  rw [factor, unit, quarter, pow_toNat two_ne_zero (b.exponent - 2), pow_toNat ten e]
  field_simp

theorem scale_value (b : Binary) (e : Int) :
    ((b.scale e).value : ℚ) = b.value / 10 ^ e * (b.scale e).unit := by
  have value : ((b.scale e).value : ℚ) = 4 * b.significand
      * (Nat.pow 2 (b.exponent - 2).toNat * Nat.pow 10 (-e).toNat : Nat) := by
    exact_mod_cast rfl
  rw [value, factor_eq, Binary.value]
  ring

theorem scale_high (b : Binary) (e : Int) :
    ((b.scale e).high : ℚ) = b.high / 10 ^ e * (b.scale e).unit := by
  have high : ((b.scale e).high : ℚ) = (4 * b.significand + 2)
      * (Nat.pow 2 (b.exponent - 2).toNat * Nat.pow 10 (-e).toNat : Nat) := by
    exact_mod_cast rfl
  rw [high, factor_eq, Binary.high]
  ring

theorem scale_low (pos : 0 < b.significand) (e : Int) :
    ((b.scale e).low : ℚ) = b.low / 10 ^ e * (b.scale e).unit := by
  have low : ((b.scale e).low : ℚ) =
      ((4 * b.significand - if b.narrowBelow then 1 else 2 : Nat) : ℚ)
        * (Nat.pow 2 (b.exponent - 2).toNat * Nat.pow 10 (-e).toNat : Nat) := by
    exact_mod_cast rfl
  rw [low, factor_eq, Binary.low]
  split_ifs
  · rw [Nat.cast_sub (by omega)]
    push_cast
    ring
  · rw [Nat.cast_sub (by omega)]
    push_cast
    ring

/-- A multiple of a power of ten reads back as `b` if it is nearest to it. -/
theorem readsBack_iff (pos : 0 < b.significand) {e : Int} {d : Nat} :
    (b.scale e).readsBack d = true ↔ b.Holds (d * 10 ^ e) := by
  have ten : (0 : ℚ) < 10 ^ e := zpow_pos (by decide) e
  have unit : (0 : ℚ) < (b.scale e).unit := Nat.cast_pos.mpr (b.unit_pos e)
  have closed : (b.scale e).closed = decide (b.significand % 2 = 0) := rfl
  have low {q : ℚ} : q / 10 ^ e * (b.scale e).unit ≤ d * (b.scale e).unit ↔ q ≤ d * 10 ^ e := by
    rw [mul_le_mul_iff_left₀ unit, div_le_iff₀ ten]
  have high {q : ℚ} : d * (b.scale e).unit ≤ q / 10 ^ e * (b.scale e).unit ↔ d * 10 ^ e ≤ q := by
    rw [mul_le_mul_iff_left₀ unit, le_div_iff₀ ten]
  have between : (b.scale e).readsBack d = true ↔
      Between (b.significand % 2 = 0) (b.scale e).low (b.scale e).high
        (d * (b.scale e).unit) := by
    rw [Scaled.readsBack, closed, Between]
    norm_cast
    by_cases even : b.significand % 2 = 0
    · simp [even]
      omega
    · simp [even]
  rw [between, scale_low pos, scale_high, Holds]
  simp only [Between, low, high, ← not_le]

theorem reaches_iff {e : Int} : b.reaches e = true ↔ 10 ^ e ≤ b.value := by
  have ten : (0 : ℚ) < 10 ^ e := zpow_pos (by decide) e
  have unit : (0 : ℚ) < (b.scale e).unit := Nat.cast_pos.mpr (b.unit_pos e)
  rw [reaches, decide_eq_true_eq, ← Nat.cast_le (α := ℚ), scale_value,
    le_mul_iff_one_le_left unit, le_div_iff₀ ten, one_mul]

/-! The count of whole digits -/

/-- Powers of two numbers are in order where equal powers of the two are close. -/
theorem zpow_le_zpow_of_pow_le {x y : ℚ} {p r : Nat} {k l : Int} (hx : 1 ≤ x) (hy : 0 < y)
    (close : x ^ p ≤ y ^ r) (some : r ≠ 0) (positive : 0 ≤ l) (le : r * k ≤ p * l) :
    x ^ k ≤ y ^ l := by
  refine le_of_pow_le_pow_left₀ some (zpow_pos hy l).le ?_
  calc (x ^ k) ^ r = x ^ (r * k) := by rw [mul_comm, zpow_mul, zpow_natCast]
    _ ≤ x ^ (p * l) := zpow_le_zpow_right₀ hx le
    _ = (x ^ p) ^ l := by rw [zpow_mul, zpow_natCast]
    _ ≤ (y ^ r) ^ l := zpow_le_zpow_left₀ positive (pow_nonneg (zero_le_one.trans hx) p) close
    _ = (y ^ l) ^ r := by rw [← zpow_natCast, ← zpow_natCast, zpow_comm]

theorem ten_pow_le_two_pow : (10 : ℚ) ^ 59 ≤ 2 ^ 196 := by norm_num

theorem two_pow_le_ten_pow : (2 : ℚ) ^ 93 ≤ 10 ^ 28 := by norm_num

/-- The estimate of a count of decimal digits is at most one too large. -/
theorem ten_zpow_le_two_zpow {k l : Int} (le : 100000 * k ≤ 30103 * l) (low : -1074 ≤ l)
    (high : l ≤ 1023) : (10 : ℚ) ^ (k - 1) ≤ 2 ^ l := by
  rcases le_or_gt 0 l with positive | negative
  · exact zpow_le_zpow_of_pow_le (by norm_num) two_pos ten_pow_le_two_pow (by decide) positive
      (by push_cast; omega)
  · have turned : (2 : ℚ) ^ (-l) ≤ 10 ^ (-(k - 1)) :=
      zpow_le_zpow_of_pow_le one_le_two (by norm_num) two_pow_le_ten_pow (by decide) (by omega)
        (by push_cast; omega)
    rwa [zpow_neg, zpow_neg, inv_le_inv₀ (zpow_pos two_pos l) (zpow_pos (by norm_num) _)] at turned

/-- Neither is it more than one too small. -/
theorem two_zpow_le_ten_zpow {k l : Int} (lt : 30103 * l < 100000 * (k + 1)) (low : -1074 ≤ l)
    (high : l ≤ 1023) : (2 : ℚ) ^ (l + 1) ≤ 10 ^ (k + 2) := by
  rcases le_or_gt 0 (k + 2) with positive | negative
  · exact zpow_le_zpow_of_pow_le one_le_two (by norm_num) two_pow_le_ten_pow (by decide) positive
      (by push_cast; omega)
  · have turned : (10 : ℚ) ^ (-(k + 2)) ≤ 2 ^ (-(l + 1)) :=
      zpow_le_zpow_of_pow_le (by norm_num) two_pos ten_pow_le_two_pow (by decide) (by omega)
        (by push_cast; omega)
    rwa [zpow_neg, zpow_neg, inv_le_inv₀ (zpow_pos (by norm_num) _) (zpow_pos two_pos _)] at turned

/-- What holds of the parts of a finite double. -/
structure InRange (b : Binary) : Prop where
  pos : 0 < b.significand
  high : b.significand < 2 ^ 53
  least : -1074 ≤ b.exponent
  greatest : b.exponent ≤ 971
  narrow : b.narrowBelow = true ↔ b.significand = 2 ^ 52 ∧ -1074 < b.exponent

/-- The count of whole digits places the value between two powers of ten. -/
theorem wholeDigits_spec (range : b.InRange) :
    10 ^ (b.wholeDigits - 1) ≤ b.value ∧ b.value < 10 ^ b.wholeDigits := by
  obtain ⟨pos, high, least, greatest, -⟩ := range
  have bits : b.significand.log2 < 53 := (Nat.log2_lt pos.ne').mpr high
  have low : (2 : ℚ) ^ (b.significand.log2 + b.exponent) ≤ b.value :=
    zpow_le_mul_zpow pos b.exponent
  have above : b.value < 2 ^ (b.significand.log2 + 1 + b.exponent) := by
    refine lt_zpow_of_log2 (e := b.exponent) ?_
    rw [value, mul_div_cancel_right₀ _ (zpow_pos two_pos _).ne']
    exact lt_add_one _
  rw [wholeDigits]
  generalize count : Int.fdiv ((b.significand.log2 + b.exponent) * 30103) 100000 = k
  rw [Int.fdiv_eq_ediv_of_nonneg _ (by decide)] at count
  have enough := ten_zpow_le_two_zpow (k := k) (l := b.significand.log2 + b.exponent) (by omega)
    (by omega) (by omega)
  have room := two_zpow_le_ten_zpow (k := k) (l := b.significand.log2 + b.exponent) (by omega)
    (by omega) (by omega)
  simp only [reaches_iff]
  split_ifs with first second
  · rw [add_sub_cancel_right]
    refine ⟨first, ?_⟩
    rw [Int.add_assoc]
    exact above.trans_le ((zpow_le_zpow_right₀ one_le_two (by omega)).trans room)
  · exact ⟨second, not_le.mp first⟩
  · refine ⟨?_, not_le.mp second⟩
    rw [add_sub_cancel_right]
    exact enough.trans low

/-! The search for the shortest digits -/

/-- The multiple of the power of ten at or below the value. -/
def below (b : Binary) (e : Int) : Nat :=
  (b.scale e).value / (b.scale e).unit

theorem below_spec (b : Binary) (e : Int) :
    b.below e * 10 ^ e ≤ b.value ∧ b.value < (b.below e + 1) * 10 ^ e := by
  have ten : (0 : ℚ) < 10 ^ e := zpow_pos (by norm_num) e
  have unit : (0 : ℚ) < (b.scale e).unit := Nat.cast_pos.mpr (b.unit_pos e)
  have low : ((b.below e * (b.scale e).unit : Nat) : ℚ) ≤ (b.scale e).value :=
    Nat.cast_le.mpr (Nat.div_mul_le_self _ _)
  have high : ((b.scale e).value : ℚ) < ((b.below e + 1) * (b.scale e).unit : Nat) := by
    refine Nat.cast_lt.mpr ?_
    rw [Nat.mul_comm]
    exact Nat.lt_mul_div_succ _ (b.unit_pos e)
  rw [Nat.cast_mul, scale_value, mul_le_mul_iff_left₀ unit, le_div_iff₀ ten] at low
  rw [Nat.cast_mul, scale_value, mul_lt_mul_iff_left₀ unit, div_lt_iff₀ ten] at high
  exact ⟨low, by exact_mod_cast high⟩

/-- Seventeen digits leave no gap between the halfway points. -/
theorem holds_below (range : b.InRange) {e : Int} (fine : 10 ^ e * 10 ^ 16 ≤ b.value) :
    b.Holds (b.below e * 10 ^ e) ∨ b.Holds ((b.below e + 1 : Nat) * 10 ^ e) := by
  obtain ⟨low, high⟩ := b.below_spec e
  have bit : (0 : ℚ) < 2 ^ b.exponent := zpow_pos two_pos _
  have size : b.value = b.significand * 2 ^ b.exponent := rfl
  have bound : (b.significand : ℚ) + 1 ≤ 2 ^ 53 := by exact_mod_cast range.high
  rw [add_mul, one_mul] at high
  have next : ((b.below e + 1 : Nat) : ℚ) * 10 ^ e = b.below e * 10 ^ e + 10 ^ e := by
    push_cast
    ring
  rw [next]
  generalize (b.below e : ℚ) * 10 ^ e = d at *
  generalize (10 : ℚ) ^ e = u at *
  have lowEq : b.low = b.value - (if b.narrowBelow then 1 / 4 else 1 / 2) * 2 ^ b.exponent := by
    rw [Binary.low, sub_mul, size]
  have highEq : b.high = b.value + 1 / 2 * 2 ^ b.exponent := by
    rw [Binary.high, add_mul, size]
  by_cases narrow : b.narrowBelow = true
  · have full : (b.significand : ℚ) = 2 ^ 52 := by exact_mod_cast (range.narrow.mp narrow).1
    rw [if_pos narrow] at lowEq
    rw [full] at size
    exact .inr (.inr ⟨by linarith, by linarith⟩)
  · rw [if_neg narrow] at lowEq
    have less : (b.significand : ℚ) * 2 ^ b.exponent ≤ 2 ^ 53 * 2 ^ b.exponent :=
      mul_le_mul_of_nonneg_right (by linarith) bit.le
    rcases lt_or_ge (b.value - d) (1 / 2 * 2 ^ b.exponent) with near | far
    · exact .inl (.inr ⟨by linarith, by linarith⟩)
    · exact .inr (.inr ⟨by linarith, by linarith⟩)

end Binary

theorem Scaled.le_of_nearest? {s : Scaled} {tie : Tie} {d : Nat} (found : s.nearest? tie = some d) :
    d ≤ s.value / s.unit + 1 := by
  simp only [nearest?] at found
  split at found
  · split at found <;> cases found
    · omega
    · omega
    · split_ifs <;> omega
  all_goals
    cases found
    try omega

theorem Scaled.isSome_nearest?_iff {s : Scaled} {tie : Tie} : (s.nearest? tie).isSome ↔
    s.readsBack (s.value / s.unit) = true ∨ s.readsBack (s.value / s.unit + 1) = true := by
  simp only [nearest?]
  cases s.readsBack (s.value / s.unit) <;> cases s.readsBack (s.value / s.unit + 1)
  case true.true =>
    cases compare (2 * s.value) ((2 * (s.value / s.unit) + 1) * s.unit) <;> simp
  all_goals simp

/-- Moving zeros into the exponent changes neither the number nor makes it longer. -/
theorem Digits.trim_spec (fuel : Nat) (d : Digits) :
    (d.trim fuel).value = d.value ∧ (d.trim fuel).digits ≤ d.digits ∧
      d.exponent ≤ (d.trim fuel).exponent := by
  fun_induction trim fuel d with
  | case1 | case3 => exact ⟨rfl, le_rfl, le_rfl⟩
  | case2 fuel d zeros ih =>
      obtain ⟨same, fewer, more⟩ := ih
      simp only [Bool.and_eq_true, decide_eq_true_eq] at zeros fewer more
      refine ⟨same.trans ?_, by omega, by omega⟩
      have whole : (d.digits : ℚ) = (d.digits / 10 : Nat) * 10 := by
        exact_mod_cast (Nat.div_mul_cancel (Nat.dvd_of_mod_eq_zero zeros.1)).symm
      rw [value, value, whole, zpow_add_one₀ (by norm_num)]
      ring

namespace Binary

variable {b : Binary}

/-- The shortest digits are found, and they read back as the double. -/
theorem shortest_spec (range : b.InRange) (tie : Tie) :
    b.Holds (b.shortest tie).value ∧ 0 < (b.shortest tie).digits ∧
      (b.shortest tie).digits ≤ 10 ^ 17 ∧ b.wholeDigits - 17 ≤ (b.shortest tie).exponent := by
  obtain ⟨low, high⟩ := wholeDigits_spec range
  have ten (e : Int) : (0 : ℚ) < 10 ^ e := zpow_pos (by norm_num) e
  have enough : ((b.scale (b.wholeDigits - 17)).nearest? tie).isSome := by
    rw [Scaled.isSome_nearest?_iff, readsBack_iff range.pos, readsBack_iff range.pos]
    refine holds_below range (le_trans (le_of_eq ?_) low)
    rw [← zpow_natCast, ← zpow_add₀ (by norm_num)]
    congr 1
    omega
  rw [shortest]
  generalize search : List.findSome? _ _ = found
  cases found with
  | none =>
      rw [List.findSome?_eq_none_iff] at search
      have missed := search 17 (by decide)
      rw [Option.map_eq_none_iff] at missed
      rw [Nat.cast_ofNat] at missed
      rw [missed] at enough
      cases enough
  | some found =>
      obtain ⟨count, range', found⟩ := List.exists_of_findSome?_eq_some search
      obtain ⟨d, nearest, rfl⟩ := Option.map_eq_some_iff.mp found
      obtain ⟨same, fewer, more⟩ := Digits.trim_spec 20 ⟨d, b.wholeDigits - count⟩
      have back := Scaled.readsBack_of_nearest? nearest
      have nonzero : d ≠ 0 := by
        rintro rfl
        rw [not_readsBack_zero range.pos] at back
        cases back
      simp only [List.mem_range'_1] at range'
      have bound : b.below (b.wholeDigits - count) < 10 ^ count := by
        have less := (b.below_spec (b.wholeDigits - count)).1.trans_lt high
        have whole : (10 : ℚ) ^ b.wholeDigits = 10 ^ count * 10 ^ (b.wholeDigits - count) := by
          rw [← zpow_natCast, ← zpow_add₀ (by norm_num)]
          congr 1
          omega
        rw [whole, mul_lt_mul_iff_left₀ (ten _)] at less
        exact_mod_cast less
      have le : d ≤ b.below (b.wholeDigits - count) + 1 := Scaled.le_of_nearest? nearest
      have most : 10 ^ count ≤ 10 ^ 17 := Nat.pow_le_pow_right (by decide) (by omega)
      refine ⟨?_, Nat.pos_of_ne_zero (Digits.trim_ne_zero nonzero), ?_, ?_⟩
      · rw [Option.getD_some, same]
        exact (readsBack_iff range.pos).mp back
      · rw [Option.getD_some]
        simp only at fewer
        omega
      · rw [Option.getD_some]
        simp only at more
        omega

end Binary

end Trendline.Decimal
