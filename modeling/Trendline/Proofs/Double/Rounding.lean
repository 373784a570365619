import Trendline.Proofs.Double.Order
import Trendline.Proofs.Double.Packing

/-!
Counts as doubles. Above zero these are normal numbers: the significand has fifty-three bits, and
rounding keeps the order. So the share of some in a count is never rounded above one.
-/

namespace Trendline

namespace Double

open Float.Model Float.Model.UnpackedFloat

namespace ExtendedMantissa

open Float.Model.UnpackedFloat.ExtendedMantissa

/-- A significand with its two bits of residue as one number, in quarters. -/
def quarters (em : ExtendedMantissa) : Nat :=
  4 * em.mantissa + 2 * em.roundBit.toNat + em.stickyBit.toNat

/-- A quarter and less counts for a quarter, so that nothing is lost from sight. -/
theorem quarters_shiftRightOne (em : ExtendedMantissa) :
    quarters em.shiftRightOne = 2 * (quarters em / 4) + min 1 (quarters em % 4) := by
  obtain ⟨m, r, s⟩ := em
  have bit : (m % 2 != 0).toNat = m % 2 := by
    rcases Nat.mod_two_eq_zero_or_one m with h | h <;> rw [h] <;> rfl
  simp only [quarters, shiftRightOne, bit]
  cases r <;> cases s <;> simp <;> omega

theorem quarters_div (em : ExtendedMantissa) : quarters em / 4 = em.mantissa := by
  obtain ⟨m, r, s⟩ := em
  cases r <;> cases s <;> simp [quarters] <;> omega

theorem roundedMantissa_eq (em : ExtendedMantissa) :
    em.roundedMantissa = quarters em / 4 +
      if quarters em % 4 = 3 then 1
      else if quarters em % 4 = 2 then quarters em / 4 % 2
      else 0 := by
  rw [quarters_div]
  obtain ⟨m, r, s⟩ := em
  cases r <;> cases s <;>
    simp [quarters, roundedMantissa, accuracy, Accuracy.roundToNearestEven]
  all_goals omega

theorem quarters_shiftRight_le {em em' : ExtendedMantissa} (le : quarters em ≤ quarters em')
    (n : Nat) : quarters (em >>> n) ≤ quarters (em' >>> n) := by
  induction n with
  | zero => exact le
  | succ n ih =>
      have step (em : ExtendedMantissa) : em >>> (n + 1) = (em >>> n).shiftRightOne := rfl
      rw [step, step, quarters_shiftRightOne, quarters_shiftRightOne]
      omega

theorem roundedMantissa_le {em em' : ExtendedMantissa} (le : quarters em ≤ quarters em') :
    em.roundedMantissa ≤ em'.roundedMantissa := by
  rw [roundedMantissa_eq, roundedMantissa_eq]
  split <;> split <;> (try split) <;> (try split) <;> omega

theorem mantissa_shiftRight (em : ExtendedMantissa) (n : Nat) :
    (em >>> n).mantissa = em.mantissa / 2 ^ n := by
  induction n with
  | zero => exact (Nat.div_one _).symm
  | succ n ih =>
      change (em >>> n).mantissa / 2 = _
      rw [ih, Nat.div_div_eq_div_mul, Nat.pow_succ]

theorem roundedMantissa_bounds (em : ExtendedMantissa) :
    em.mantissa ≤ em.roundedMantissa ∧ em.roundedMantissa ≤ em.mantissa + 1 := by
  rw [roundedMantissa_eq, quarters_div]
  split
  · omega
  · split <;> omega

end ExtendedMantissa

/-- What becomes of a rounded significand and its exponent: rounding up may fill one more bit. -/
def Settles (rounded : Nat) (e : Int) (m : Nat) (e' : Int) : Prop :=
  (rounded < 2 ^ 53 ∧ m = rounded ∧ e' = e) ∨ (rounded = 2 ^ 53 ∧ m = 2 ^ 52 ∧ e' = e + 1)

open ExtendedMantissa

theorem shiftToTargetExponent_eq {m k : Nat} {e : Int} (accuracy : Accuracy)
    (log : m.log2 = 52 + k) (least : -1074 ≤ e + k) :
    shiftToTargetExponent Format.binary64 m e accuracy
      = (ofMantissaAndAccuracy m accuracy >>> k, e + k) := by
  have target : Format.binary64.targetExponent (totalExponent m e) = e + k := by
    change max ((m.log2 : Int) + 1 + e - 53) (-1074) = e + k
    rw [log]
    omega
  have shift : (e + k - e).toNat = k := by omega
  rw [shiftToTargetExponent, target, shiftToExponent, shift]

theorem mantissa_ofMantissaAndAccuracy (m : Nat) (accuracy : Accuracy) :
    (ofMantissaAndAccuracy m accuracy).mantissa = m := by
  unfold ofMantissaAndAccuracy
  split <;> rfl

theorem roundWithAccuracy_settles {s : Sign} {m k : Nat} {e : Int} (accuracy : Accuracy)
    (log : m.log2 = 52 + k) (least : -1074 ≤ e + k) :
    ∃ m' e' positive,
      roundWithAccuracy Format.binary64 s m e accuracy = .finite s m' e' positive ∧
      2 ^ 52 ≤ m' ∧ m' < 2 ^ 53 ∧
      Settles (ofMantissaAndAccuracy m accuracy >>> k).roundedMantissa (e + k) m' e' := by
  have nonzero : m ≠ 0 := by
    rintro rfl
    simp at log
    omega
  obtain ⟨low, high⟩ := (Nat.log2_eq_iff nonzero).mp log
  obtain ⟨atLeast, atMost⟩ := roundedMantissa_bounds (ofMantissaAndAccuracy m accuracy >>> k)
  rw [mantissa_shiftRight, mantissa_ofMantissaAndAccuracy] at atLeast atMost
  have lowest : 2 ^ 52 ≤ m / 2 ^ k := by
    rw [Nat.le_div_iff_mul_le (Nat.two_pow_pos k), ← Nat.pow_add]
    exact low
  have highest : m / 2 ^ k < 2 ^ 53 := by
    rw [Nat.div_lt_iff_lt_mul (Nat.two_pow_pos k), ← Nat.pow_add]
    rwa [show 53 + k = 52 + k + 1 by omega]
  unfold roundWithAccuracy
  rw [shiftToTargetExponent_eq accuracy log least]
  dsimp only
  generalize (ofMantissaAndAccuracy m accuracy >>> k).roundedMantissa = rounded at *
  rcases Nat.lt_or_ge rounded (2 ^ 53) with fits | full
  · have log' : rounded.log2 = 52 + 0 := (Nat.log2_eq_iff (by omega)).mpr ⟨by omega, by omega⟩
    have final : (ofMantissaAndAccuracy rounded .exact >>> 0).mantissa = rounded := rfl
    rw [shiftToTargetExponent_eq .exact log' (by omega)]
    simp only [final]
    rw [dif_neg (by omega)]
    exact ⟨rounded, _, by omega, rfl, by omega, fits, .inl ⟨fits, rfl, by omega⟩⟩
  · obtain rfl : rounded = 2 ^ 53 := by omega
    have log' : (2 ^ 53).log2 = 52 + 1 := by decide
    have final : (ofMantissaAndAccuracy (2 ^ 53) .exact >>> 1).mantissa = 2 ^ 52 := rfl
    rw [shiftToTargetExponent_eq .exact log' (by omega)]
    simp only [final]
    rw [dif_neg (by decide)]
    exact ⟨2 ^ 52, _, by decide, rfl, by decide, by decide, .inr ⟨rfl, rfl, by omega⟩⟩

/-- The double is a normal number above zero, with these parts. -/
def Is (x : Float) (m : Nat) (e : Int) : Prop :=
  Normal m e ∧ ∃ positive, x.toModel.unpack = .finite .positive m e positive

/-- A count brought to as many bits as a significand has. -/
def significand (n : Nat) : Nat :=
  (ofMantissaAndAccuracy (n <<< (52 - n.log2)) .exact >>> (n.log2 - 52)).roundedMantissa

theorem log2_shiftLeft_eq {n : Nat} (positive : 0 < n) (k : Nat) :
    (n <<< k).log2 = n.log2 + k := by
  induction k with
  | zero => rfl
  | succ k ih =>
      have nonzero : n <<< k ≠ 0 := by
        rw [Nat.shiftLeft_eq]
        exact Nat.ne_of_gt (Nat.mul_pos positive (Nat.two_pow_pos k))
      rw [Nat.shiftLeft_succ, Nat.log2_two_mul nonzero, ih, Nat.add_assoc]

theorem log2_shiftLeft {n : Nat} (positive : 0 < n) :
    (n <<< (52 - n.log2)).log2 = 52 + (n.log2 - 52) := by
  rw [log2_shiftLeft_eq positive]
  omega

/-- A number is brought to as many bits as a significand has, and then rounded. -/
theorem round_settles {s : Sign} {n : Nat} {e : Int} (positive : 0 < n)
    (least : -1022 ≤ n.log2 + e) :
    ∃ m e' pos,
      UnpackedFloat.round Format.binary64 s n e = .finite s m e' pos ∧
      2 ^ 52 ≤ m ∧ m < 2 ^ 53 ∧ Settles (significand n) (n.log2 + e - 52) m e' := by
  have target : Format.binary64.targetExponent (totalExponent n e) = n.log2 + e - 52 := by
    change max ((n.log2 : Int) + 1 + e - 53) (-1074) = n.log2 + e - 52
    omega
  have shift : (e - (n.log2 + e - 52)).toNat = 52 - n.log2 := by omega
  have exponent : e - (52 - n.log2 : Nat) + (n.log2 - 52 : Nat) = n.log2 + e - 52 := by omega
  obtain ⟨m, e', pos, eq, low, high, settles⟩ :=
    roundWithAccuracy_settles (s := s) (e := e - (52 - n.log2 : Nat)) .exact
      (log2_shiftLeft positive) (by omega)
  rw [exponent] at settles
  refine ⟨m, e', pos, ?_, low, high, settles⟩
  rw [UnpackedFloat.round, target, decreaseExponent, shift]
  exact eq

theorem toModel_doubleOfCount {n : Nat} (positive : 0 < n) (fits : n < wordCount) :
    (Scalar.doubleOfCount n).toModel
      = Float.Model.pack (UnpackedFloat.round Format.binary64 .positive n 0) := by
  have stored : n.toUInt64.toNat = n := UInt64.toNat_ofNat_of_lt' fits
  have sign : compare (n : Int) 0 = .gt := Int.compare_eq_gt.mpr (Int.natCast_pos.mpr positive)
  change Float.Model.pack
    (UnpackedFloat.normalize Format.binary64 (n.toUInt64.toNat : Int) 0 .positive) = _
  rw [stored, UnpackedFloat.normalize, sign]
  rfl

/-- The double nearest to a count, if that is not zero. -/
theorem is_doubleOfCount {n : Nat} (positive : 0 < n) (fits : n < wordCount) :
    ∃ m e, Is (Scalar.doubleOfCount n) m e ∧ Settles (significand n) (n.log2 - 52) m e := by
  have bits : n.log2 < 64 := (Nat.log2_lt (Nat.ne_of_gt positive)).mpr fits
  obtain ⟨m, e, pos, eq, low, high, settles⟩ :=
    round_settles (s := .positive) (e := 0) positive (by omega)
  rw [Int.add_zero] at settles
  have normal : Normal m e := by
    refine ⟨low, high, ?_, ?_⟩
    all_goals
      unfold Settles at settles
      omega
  refine ⟨m, e, ⟨normal, pos, ?_⟩, settles⟩
  rw [toModel_doubleOfCount positive fits, eq]
  exact unpack_pack normal pos

theorem significand_le {a b : Nat} (le : a ≤ b) (same : a.log2 = b.log2) :
    significand a ≤ significand b := by
  unfold significand
  rw [same]
  apply roundedMantissa_le
  apply quarters_shiftRight_le
  have more : a <<< (52 - b.log2) ≤ b <<< (52 - b.log2) := by
    rw [Nat.shiftLeft_eq, Nat.shiftLeft_eq]
    exact Nat.mul_le_mul_right _ le
  simp only [quarters, ofMantissaAndAccuracy]
  omega

/-- Rounding keeps counts in order. -/
theorem exists_ordered {a b : Nat} (positive : 0 < a) (le : a ≤ b) (fits : b < wordCount) :
    ∃ m e n f, Is (Scalar.doubleOfCount a) m e ∧ Is (Scalar.doubleOfCount b) n f ∧
      -64 ≤ e - f ∧ (e < f ∨ e = f ∧ m ≤ n) := by
  obtain ⟨m, e, left, settlesLeft⟩ := is_doubleOfCount positive (by omega)
  obtain ⟨n, f, right, settlesRight⟩ := is_doubleOfCount (positive.trans_le le) fits
  have low := right.1.low
  have bits : b.log2 < 64 := (Nat.log2_lt (by omega)).mpr fits
  have logs : a.log2 ≤ b.log2 :=
    (Nat.le_log2 (by omega)).mpr ((Nat.log2_self_le (by omega)).trans le)
  unfold Settles at settlesLeft settlesRight
  refine ⟨m, e, n, f, left, right, by omega, ?_⟩
  -- A count with fewer bits has the smaller exponent, even if rounding fills one more bit.
  rcases Nat.lt_or_eq_of_le logs with less | same
  · omega
  · have rounded := significand_le le same
    omega

theorem exists_rounded {q k : Nat} {d : Int} (accuracy : Accuracy) (low : 2 ^ (52 + k) ≤ q)
    (high : q < 2 ^ (52 + k + 1)) (least : -1000 ≤ d) (greatest : d + k < 0) :
    ∃ m e positive,
      roundWithAccuracy Format.binary64 .positive q d accuracy = .finite .positive m e positive ∧
      Normal m e ∧
      Settles (ofMantissaAndAccuracy q accuracy >>> k).roundedMantissa (d + k) m e := by
  have log : q.log2 = 52 + k :=
    (Nat.log2_eq_iff (Nat.ne_of_gt ((Nat.two_pow_pos _).trans_le low))).mpr ⟨low, high⟩
  obtain ⟨m, e, positive, eq, lowM, highM, settles⟩ :=
    roundWithAccuracy_settles (e := d) accuracy log (by omega)
  refine ⟨m, e, positive, eq, ⟨lowM, highM, ?_, ?_⟩, settles⟩
  all_goals
    unfold Settles at settles
    omega

/-- A quotient that is at most one is rounded to at most one. -/
theorem quotient_settles {m n : Nat} {d : Int} (lowM : 2 ^ 52 ≤ m) (highM : m < 2 ^ 53)
    (lowN : 2 ^ 52 ≤ n) (highN : n < 2 ^ 53) (near : -64 ≤ d) (le : d < 0 ∨ d = 0 ∧ m ≤ n) :
    ∃ m' e' positive,
      roundWithAccuracy Format.binary64 .positive (m <<< 53 / n) (d - 53)
        (accuracyOfFraction (m <<< 53 % n) n) = .finite .positive m' e' positive ∧
      Normal m' e' ∧ (e' < -52 ∨ e' = -52 ∧ m' = 2 ^ 52) := by
  have positive : 0 < n := by omega
  rw [Nat.shiftLeft_eq]
  rcases Nat.lt_trichotomy m n with less | rfl | greater
  · have low : 2 ^ (52 + 0) ≤ m * 2 ^ 53 / n := by
      rw [Nat.le_div_iff_mul_le positive]
      omega
    have high : m * 2 ^ 53 / n < 2 ^ (52 + 0 + 1) := by
      rw [Nat.div_lt_iff_lt_mul positive]
      omega
    obtain ⟨m', e', pos, eq, normal, settles⟩ := exists_rounded
      (accuracyOfFraction (m * 2 ^ 53 % n) n) low high (d := d - 53) (by omega) (by omega)
    unfold Settles at settles
    exact ⟨m', e', pos, eq, normal, by omega⟩
  -- The significands are equal: only now may the quotient be one, so what is rounded must be known.
  · have exact : accuracyOfFraction (m * 2 ^ 53 % m) m = .exact := by
      rw [Nat.mul_mod_right]
      rfl
    rw [exact, Nat.mul_div_cancel_left _ positive]
    obtain ⟨m', e', pos, eq, normal, settles⟩ := exists_rounded (q := 2 ^ 53) (k := 1)
      (d := d - 53) .exact (by decide) (by decide) (by omega) (by omega)
    have rounded : (ofMantissaAndAccuracy (2 ^ 53) .exact >>> 1).roundedMantissa = 2 ^ 52 := rfl
    unfold Settles at settles
    rw [rounded] at settles
    exact ⟨m', e', pos, eq, normal, by omega⟩
  · have low : 2 ^ (52 + 1) ≤ m * 2 ^ 53 / n := by
      rw [Nat.le_div_iff_mul_le positive]
      omega
    have high : m * 2 ^ 53 / n < 2 ^ (52 + 1 + 1) := by
      rw [Nat.div_lt_iff_lt_mul positive]
      omega
    obtain ⟨m', e', pos, eq, normal, settles⟩ := exists_rounded
      (accuracyOfFraction (m * 2 ^ 53 % n) n) low high (d := d - 53) (by omega) (by omega)
    unfold Settles at settles
    exact ⟨m', e', pos, eq, normal, by omega⟩

theorem div_eq {x y : Float} {m n : Nat} {e f : Int} (left : Is x m e) (right : Is y n f)
    (near : -64 ≤ e - f) :
    x / y = .ofModel (Float.Model.pack (roundWithAccuracy Format.binary64 .positive
      (m <<< 53 / n) (e - f - 53) (accuracyOfFraction (m <<< 53 % n) n))) := by
  obtain ⟨⟨lowM, highM, -, -⟩, posM, unpackX⟩ := left
  obtain ⟨⟨lowN, highN, -, -⟩, posN, unpackY⟩ := right
  have logM : m.log2 = 52 := (Nat.log2_eq_iff (by omega)).mpr ⟨lowM, highM⟩
  have logN : n.log2 = 52 := (Nat.log2_eq_iff (by omega)).mpr ⟨lowN, highN⟩
  have target : min (e - f) (Format.binary64.targetExponent (totalExponent m e - totalExponent n f))
      = e - f - 53 := by
    change min (e - f) (max (((m.log2 : Int) + 1 + e) - ((n.log2 : Int) + 1 + f) - 53) (-1074)) = _
    omega
  have shift : (e - f - (e - f - 53)).toNat = 53 := by omega
  change Float.ofModel (Float.Model.pack
    (UnpackedFloat.div Format.binary64 x.toModel.unpack y.toModel.unpack)) = _
  rw [unpackX, unpackY, UnpackedFloat.div, divCore, target, shift]
  rfl

theorem pack_lt_one {m : Nat} {e : Int} (h : Normal m e) (positive : 0 < m) (small : e < -52) :
    Float.ofModel (Float.Model.pack (.finite .positive m e positive)) < 1 := by
  have one : place 1 = some (toLex (1, toLex (-52, (2 : Int) ^ 52))) := by decide +kernel
  rw [lt_iff, place, unpack_pack h]
  refine ⟨_, rfl, _, one, ?_⟩
  simp [Prod.Lex.toLex_lt_toLex, small]

/-- The share of some in a count is at most one as rounded. -/
theorem share_le_one {a b : Nat} (positive : 0 < b) (le : a ≤ b) (fits : b < wordCount) :
    Scalar.doubleOfCount a / Scalar.doubleOfCount b < 1 ∨
      Scalar.doubleOfCount a / Scalar.doubleOfCount b = 1 := by
  rcases Nat.eq_zero_or_pos a with rfl | some
  · obtain ⟨n, f, ⟨normal, pos, unpackY⟩, -⟩ := is_doubleOfCount positive fits
    have zero : Scalar.doubleOfCount 0 / Scalar.doubleOfCount b = 0 := by
      change Float.ofModel (Float.Model.pack (UnpackedFloat.div Format.binary64
        (Scalar.doubleOfCount 0).toModel.unpack (Scalar.doubleOfCount b).toModel.unpack)) = 0
      rw [unpackY]
      rfl
    rw [zero]
    exact .inl (by decide)
  · obtain ⟨m, e, n, f, left, right, near, ordered⟩ := exists_ordered some le fits
    obtain ⟨m', e', pos, eq, normal, small⟩ := quotient_settles left.1.low left.1.high right.1.low
      right.1.high near (by omega)
    rw [div_eq left right near, eq]
    rcases small with small | ⟨rfl, rfl⟩
    · exact .inl (pack_lt_one normal pos small)
    · exact .inr rfl

end Double

end Trendline
