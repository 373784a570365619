import Trendline.Trend
import Trendline.Proofs.Double.Rounding

/-!
How large doubles are. Rounding takes no number below a power of two that it reaches. So two
different counts never spread too little for a line, whatever their mean is rounded to.
-/

namespace Trendline

namespace Double

open Float.Model Float.Model.UnpackedFloat
open Float.Model.UnpackedFloat.ExtendedMantissa

/-- The number that a double stands for, if it is finite. -/
def value : UnpackedFloat → ℚ
  | .finite s m e _ => s.apply m * 2 ^ e
  | .notANumber | .infinity _ | .zero _ => 0

/-- Not a number, or of this sign and at least `2 ^ t` in size. -/
inductive Reaches (t : Int) (s : Sign) : UnpackedFloat → Prop
  | notANumber : Reaches t s .notANumber
  | infinity : Reaches t s (.infinity s)
  | finite {m : Nat} {e : Int} (h : Normal m e) (positive : 0 < m) (large : t ≤ 52 + e) :
      Reaches t s (.finite s m e positive)

/-- Not a number, or not below zero. -/
inductive Unsigned : UnpackedFloat → Prop
  | notANumber : Unsigned .notANumber
  | infinity : Unsigned (.infinity .positive)
  | zero (s : Sign) : Unsigned (.zero s)
  | finite (m : Nat) (e : Int) (positive : 0 < m) : Unsigned (.finite .positive m e positive)

variable {u v : UnpackedFloat} {s : Sign} {m n : Nat} {e t : Int}

/-! What rounding keeps -/

theorem reaches_pack (low : 2 ^ 52 ≤ m) (high : m < 2 ^ 53) (least : -1074 ≤ e)
    (large : t ≤ 52 + e) (positive : 0 < m) :
    Reaches t s (Float.Model.pack (.finite s m e positive)).unpack := by
  by_cases fits : e ≤ 971
  · have normal : Normal m e := ⟨low, high, least, fits⟩
    rw [unpack_pack normal]
    exact .finite normal positive large
  · rw [unpack_pack_overflow (by omega)]
    exact .infinity

theorem Reaches.pack (h : Reaches t s u) : Reaches t s (Float.Model.pack u).unpack := by
  cases h with
  | notANumber => exact .notANumber
  | infinity => cases s <;> exact .infinity
  | finite normal positive large =>
      exact reaches_pack normal.low normal.high normal.least large positive

theorem reaches_round (positive : 0 < n) (least : -1022 ≤ t) (large : t ≤ n.log2 + e) :
    Reaches t s (Float.Model.pack (UnpackedFloat.round Format.binary64 s n e)).unpack := by
  obtain ⟨m, e', pos, eq, low, high, settles⟩ :=
    round_settles (s := s) (e := e) positive (by omega)
  rw [eq]
  unfold Settles at settles
  exact reaches_pack low high (by omega) (by omega) pos

theorem reaches_roundWithAccuracy {k : Nat} (accuracy : Accuracy) (log : m.log2 = 52 + k)
    (least : -1022 ≤ t) (large : t ≤ 52 + k + e) :
    Reaches t s (Float.Model.pack (roundWithAccuracy Format.binary64 s m e accuracy)).unpack := by
  obtain ⟨m', e', pos, eq, low, high, settles⟩ :=
    roundWithAccuracy_settles (s := s) accuracy log (e := e) (by omega)
  rw [eq]
  unfold Settles at settles
  exact reaches_pack low high (by omega) (by omega) pos

theorem Unsigned.pack (h : Unsigned u) : Unsigned (Float.Model.pack u).unpack := by
  have parts (exponent : BitVec 11) (mantissa : BitVec 52) :
      Unsigned (UnpackedFloat.unpack Format.binary64
        (packComponents Format.binary64 .positive exponent mantissa)) := by
    unfold UnpackedFloat.unpack
    simp only [unpackSign_packComponents, ofBitVec_toBitVec]
    split_ifs
    · exact .infinity
    · exact .notANumber
    · exact .zero _
    · exact .finite ..
    · exact .finite ..
  cases h with
  | notANumber => exact .notANumber
  | infinity => exact .infinity
  | zero s =>
      cases s with
      | negative => exact .zero .negative
      | positive => exact .zero .positive
  | finite m e positive =>
      change Unsigned (UnpackedFloat.unpack Format.binary64 (UnpackedFloat.pack Format.binary64 _))
      rw [UnpackedFloat.pack]
      split_ifs
      · exact parts _ _
      · exact parts _ _
      · exact parts _ _

/-! Numbers behind doubles -/

theorem abs_cast_apply (s : Sign) (n : Nat) : |((s.apply n : Int) : ℚ)| = n := by
  cases s with
  | negative =>
      change |((-(n : Int) : Int) : ℚ)| = n
      rw [Int.cast_neg, abs_neg, Int.cast_natCast, Nat.abs_cast]
  | positive => exact Nat.abs_cast n

theorem abs_value (positive : 0 < m) : |value (.finite s m e positive)| = m * (2 : ℚ) ^ e := by
  rw [value, abs_mul, abs_cast_apply, abs_of_pos (zpow_pos two_pos e)]

theorem le_of_zpow_le (bound : n < 2 ^ (m + 1)) (far : (2 : ℚ) ^ t ≤ n * 2 ^ e) : t ≤ m + e := by
  have less : (2 : ℚ) ^ t < 2 ^ ((m : Int) + 1 + e) := by
    calc (2 : ℚ) ^ t ≤ n * 2 ^ e := far
      _ < 2 ^ (m + 1) * 2 ^ e := by
        apply mul_lt_mul_of_pos_right _ (zpow_pos two_pos e)
        exact_mod_cast bound
      _ = 2 ^ ((m : Int) + 1 + e) := by
        rw [zpow_add₀ two_ne_zero]
        norm_cast
  have := (zpow_lt_zpow_iff_right₀ one_lt_two).mp less
  omega

theorem reaches_of_value (h : Unpacked u) (least : -1022 ≤ t) (far : (2 : ℚ) ^ t ≤ |value u|) :
    ∃ s, Reaches t s u := by
  have above : ¬ (2 : ℚ) ^ t ≤ 0 := not_le.mpr (zpow_pos two_pos t)
  cases h with
  | notANumber | infinity | zero =>
      rw [value, abs_zero] at far
      exact (above far).elim
  | subnormal s small positive =>
      rw [abs_value] at far
      have := le_of_zpow_le (m := 51) small far
      omega
  | normal s normal positive =>
      rw [abs_value] at far
      have := le_of_zpow_le (m := 52) normal.high far
      exact ⟨s, .finite normal positive this⟩

/-- Counts below two to the power of fifty-three are named exactly. -/
theorem value_doubleOfCount (fits : n < 2 ^ 53) :
    (Scalar.doubleOfCount n).toModel.unpack.isFinite = true ∧
      value (Scalar.doubleOfCount n).toModel.unpack = n := by
  rcases Nat.eq_zero_or_pos n with rfl | positive
  · exact ⟨rfl, rfl⟩
  · have log : n.log2 < 53 := (Nat.log2_lt (Nat.ne_of_gt positive)).mpr fits
    have bits := log2_shiftLeft positive
    have most : n <<< (52 - n.log2) < 2 ^ 53 := by
      have nonzero : n <<< (52 - n.log2) ≠ 0 := by
        rw [Nat.shiftLeft_eq]
        exact Nat.ne_of_gt (Nat.mul_pos positive (Nat.two_pow_pos _))
      exact (Nat.log2_lt nonzero).mp (by omega)
    have word : n < wordCount := fits.trans (by decide)
    obtain ⟨m, e, ⟨-, pos, eq⟩, settles⟩ := is_doubleOfCount positive word
    have exact : significand n = n <<< (52 - n.log2) := by
      rw [significand, show n.log2 - 52 = 0 by omega]
      rfl
    rw [Settles, exact] at settles
    obtain ⟨-, rfl, rfl⟩ := settles.resolve_right (fun full => by omega)
    rw [eq]
    refine ⟨rfl, ?_⟩
    have shifted : ((n.log2 : Int) - 52) = -((52 - n.log2 : Nat) : Int) := by omega
    change ((n <<< (52 - n.log2) : Nat) : ℚ) * 2 ^ ((n.log2 : Int) - 52) = n
    rw [shifted, zpow_neg, zpow_natCast, Nat.shiftLeft_eq, Nat.cast_mul, Nat.cast_pow,
      Nat.cast_ofNat, mul_assoc, mul_inv_cancel₀ (pow_ne_zero _ two_ne_zero), mul_one]

/-! Differences, squares and sums -/

theorem normalize_apply (positive : 0 < n) (zeroSign : Sign) :
    UnpackedFloat.normalize Format.binary64 (s.apply n) e zeroSign
      = UnpackedFloat.round Format.binary64 s n e := by
  cases s with
  | negative =>
      have below : compare (-(n : Int)) 0 = .lt := Int.compare_eq_lt.mpr (by omega)
      change UnpackedFloat.normalize Format.binary64 (-(n : Int)) e zeroSign = _
      rw [UnpackedFloat.normalize, below]
      simp
  | positive =>
      have above : compare (n : Int) 0 = .gt := Int.compare_eq_gt.mpr (by omega)
      change UnpackedFloat.normalize Format.binary64 (n : Int) e zeroSign = _
      rw [UnpackedFloat.normalize, above]
      simp

theorem exists_apply {i : Int} (nonzero : i ≠ 0) :
    ∃ (s : Sign) (n : Nat), 0 < n ∧ i = s.apply n := by
  rcases Int.lt_or_gt_of_ne nonzero with below | above
  · refine ⟨.negative, i.natAbs, by omega, ?_⟩
    change i = -(i.natAbs : Int)
    omega
  · refine ⟨.positive, i.natAbs, by omega, ?_⟩
    change i = (i.natAbs : Int)
    omega

/-- Lowering the exponent changes the significand alone. -/
theorem apply_decreaseExponent {low : Int} (le : low ≤ e) :
    ((s.apply (decreaseExponent m e low).1 : Int) : ℚ) * 2 ^ low = s.apply m * 2 ^ e := by
  obtain ⟨k, rfl⟩ : ∃ k : Nat, e = low + k := ⟨(e - low).toNat, by omega⟩
  have shift : (low + k - low).toNat = k := by omega
  have shifted (i : Int) : s.apply (i * 2 ^ k) = s.apply i * 2 ^ k := by
    cases s with
    | negative => exact (Int.neg_mul _ _).symm
    | positive => rfl
  rw [decreaseExponent, shift, zpow_add₀ two_ne_zero]
  dsimp only
  rw [Nat.shiftLeft_eq, Nat.cast_mul, Nat.cast_pow, Nat.cast_ofNat, shifted]
  push_cast
  rw [zpow_natCast]
  ring

theorem reaches_sub_finite {m n : Nat} {e e' : Int} {s s' : Sign} (hm : 0 < m) (hn : 0 < n)
    (least : -1022 ≤ t)
    (far : (2 : ℚ) ^ t ≤ |value (.finite s m e hm) - value (.finite s' n e' hn)|) :
    ∃ s'', Reaches t s'' (Float.Model.pack (UnpackedFloat.sub Format.binary64
      (.finite s m e hm) (.finite s' n e' hn))).unpack := by
  have difference : value (.finite s m e hm) - value (.finite s' n e' hn)
      = ((s.apply (decreaseExponent m e (min e e')).1
          - s'.apply (decreaseExponent n e' (min e e')).1 : Int) : ℚ) * 2 ^ min e e' := by
    rw [Int.cast_sub, sub_mul, apply_decreaseExponent (min_le_left _ _),
      apply_decreaseExponent (min_le_right _ _)]
    rfl
  rw [difference] at far
  change ∃ s'', Reaches t s'' (Float.Model.pack (UnpackedFloat.normalize Format.binary64
    (s.apply (decreaseExponent m e (min e e')).1
      - s'.apply (decreaseExponent n e' (min e e')).1) (min e e') .positive)).unpack
  generalize s.apply (decreaseExponent m e (min e e')).1
    - s'.apply (decreaseExponent n e' (min e e')).1 = i at far ⊢
  have nonzero : i ≠ 0 := by
    rintro rfl
    rw [Int.cast_zero, zero_mul, abs_zero] at far
    exact not_le.mpr (zpow_pos two_pos t) far
  obtain ⟨sign, size, positive, rfl⟩ := exists_apply nonzero
  rw [abs_mul, abs_cast_apply, abs_of_pos (zpow_pos two_pos _)] at far
  rw [normalize_apply positive]
  exact ⟨sign, reaches_round positive least (le_of_zpow_le Nat.lt_log2_self far)⟩

/-- What two numbers differ by survives rounding if it is a power of two at least. -/
theorem reaches_sub (hu : Unpacked u) (hv : Unpacked v) (finite : u.isFinite = true)
    (least : -1022 ≤ t) (far : v.isFinite = true → (2 : ℚ) ^ t ≤ |value u - value v|) :
    ∃ s, Reaches t s (Float.Model.pack (UnpackedFloat.sub Format.binary64 u v)).unpack := by
  cases v with
  | notANumber =>
      refine ⟨.positive, Reaches.pack ?_⟩
      cases u <;> exact .notANumber
  | infinity s =>
      refine ⟨-s, Reaches.pack ?_⟩
      cases u with
      | infinity | notANumber => cases finite
      | zero | finite => exact .infinity
  | zero s =>
      rw [show value (.zero s) = 0 from rfl, sub_zero] at far
      obtain ⟨sign, reaches⟩ := reaches_of_value hu least (far rfl)
      cases u with
      | infinity | notANumber => cases finite
      | zero => nomatch reaches
      | finite => exact ⟨sign, reaches.pack⟩
  | finite s n e hn =>
      cases u with
      | infinity | notANumber => cases finite
      | zero s' =>
          rw [show value (.zero s') = 0 from rfl, zero_sub, abs_neg] at far
          obtain ⟨sign, reaches⟩ := reaches_of_value hv least (far rfl)
          cases reaches with
          | finite normal _ large => exact ⟨-s, Reaches.pack (.finite normal hn large)⟩
      | finite s' m e' hm => exact reaches_sub_finite hm hn least (far rfl)

theorem sign_mul_self (s : Sign) : s * s = .positive := by
  cases s <;> rfl

theorem reaches_square (least : -511 ≤ t) (h : Reaches t s u) :
    Reaches (t + t) .positive
      (Float.Model.pack (UnpackedFloat.mul Format.binary64 u u)).unpack := by
  cases h with
  | notANumber => exact .notANumber
  | infinity =>
      apply Reaches.pack
      rw [UnpackedFloat.mul, sign_mul_self]
      exact .infinity
  | @finite m e normal positive large =>
      have bits : 104 ≤ (m * m).log2 := by
        have nonzero := Nat.mul_ne_zero (Nat.ne_of_gt positive) (Nat.ne_of_gt positive)
        have := Nat.mul_le_mul normal.low normal.low
        exact (Nat.le_log2 nonzero).mpr this
      rw [UnpackedFloat.mul, sign_mul_self]
      exact reaches_roundWithAccuracy (k := (m * m).log2 - 52) .exact (by omega) (by omega)
        (by omega)

theorem unsigned_square (u : UnpackedFloat) :
    Unsigned (Float.Model.pack (UnpackedFloat.mul Format.binary64 u u)).unpack := by
  apply Unsigned.pack
  cases u with
  | notANumber => exact .notANumber
  | infinity s =>
      rw [UnpackedFloat.mul, sign_mul_self]
      exact .infinity
  | zero s => exact .zero _
  | finite s m e =>
      rw [UnpackedFloat.mul, sign_mul_self, roundWithAccuracy]
      dsimp only
      split_ifs
      · exact .zero _
      · exact .finite ..

theorem reaches_add_finite {n : Nat} {e' : Int} (normal : Normal m e) (hm : 0 < m) (hn : 0 < n)
    (least : -1022 ≤ t) (large : t ≤ 52 + e) :
    Reaches t .positive (Float.Model.pack (UnpackedFloat.add Format.binary64
      (.finite .positive m e hm) (.finite .positive n e' hn))).unpack := by
  change Reaches t .positive (Float.Model.pack (UnpackedFloat.normalize Format.binary64
    ((m <<< (e - min e e').toNat : Nat) + (n <<< (e' - min e e').toNat : Nat) : Int)
    (min e e') .positive)).unpack
  generalize n <<< (e' - min e e').toNat = rest
  have enough : 2 ^ (52 + (e - min e e').toNat) ≤ m <<< (e - min e e').toNat + rest := by
    rw [Nat.shiftLeft_eq, Nat.pow_add]
    exact (Nat.mul_le_mul_right _ normal.low).trans (Nat.le_add_right _ _)
  have some := (Nat.two_pow_pos _).trans_le enough
  have bits := (Nat.le_log2 (Nat.ne_of_gt some)).mpr enough
  rw [← Nat.cast_add]
  change Reaches t .positive (Float.Model.pack (UnpackedFloat.normalize Format.binary64
    (Sign.positive.apply (m <<< (e - min e e').toNat + rest : Nat)) _ _)).unpack
  rw [normalize_apply some]
  exact reaches_round some least (by omega)

theorem reaches_add (least : -1022 ≤ t) (hu : Reaches t .positive u) (hv : Unsigned v) :
    Reaches t .positive
      (Float.Model.pack (UnpackedFloat.add Format.binary64 u v)).unpack := by
  cases hu with
  | notANumber => exact Reaches.pack .notANumber
  | infinity =>
      apply Reaches.pack
      cases hv with
      | notANumber => exact .notANumber
      | infinity | zero | finite => exact .infinity
  | finite normal positive large =>
      cases hv with
      | notANumber => exact Reaches.pack .notANumber
      | infinity => exact Reaches.pack .infinity
      | zero => exact Reaches.pack (.finite normal positive large)
      | finite n e' hn => exact reaches_add_finite normal positive hn least large

theorem Unsigned.zero_add (h : Unsigned u) :
    Unsigned (Float.Model.pack (UnpackedFloat.add Format.binary64 (.zero .positive) u)).unpack := by
  apply Unsigned.pack
  cases h with
  | notANumber => exact .notANumber
  | infinity => exact .infinity
  | zero s => cases s <;> exact .zero _
  | finite m e positive => exact .finite ..

theorem add_comm (u v : UnpackedFloat) :
    UnpackedFloat.add Format.binary64 u v = UnpackedFloat.add Format.binary64 v u := by
  rcases u with s | _ | s | ⟨s, m, e, hm⟩ <;> rcases v with s' | _ | s' | ⟨s', n, e', hn⟩
  case finite.finite =>
    simp only [UnpackedFloat.add, min_comm e e', Int.add_comm]
  case infinity.infinity | zero.zero => cases s <;> cases s' <;> rfl
  all_goals rfl

/-- Two different counts are not both near one number. -/
theorem exists_reaches_sub {a b : Nat} (less : a < b) (fits : b < 2 ^ 53) (x : Float) :
    (∃ s, Reaches (-1) s (Scalar.doubleOfCount a - x).toModel.unpack) ∨
      ∃ s, Reaches (-1) s (Scalar.doubleOfCount b - x).toModel.unpack := by
  obtain ⟨finiteA, valueA⟩ := value_doubleOfCount (less.trans fits)
  obtain ⟨finiteB, valueB⟩ := value_doubleOfCount fits
  by_cases near : |(a : ℚ) - value x.toModel.unpack| < 2 ^ (-1 : Int)
  · refine .inr (reaches_sub (unpacked _) (unpacked _) finiteB (by decide) fun _ => ?_)
    have apart : (a : ℚ) + 1 ≤ b := by exact_mod_cast less
    rw [valueB]
    rw [zpow_neg_one, abs_lt] at near
    rw [zpow_neg_one]
    exact (by linarith : (2 : ℚ)⁻¹ ≤ b - value x.toModel.unpack).trans (le_abs_self _)
  · refine .inl (reaches_sub (unpacked _) (unpacked _) finiteA (by decide) fun _ => ?_)
    rw [valueA]
    exact not_lt.mp near

theorem place_epsilon :
    place Scalar.epsilon = some (toLex (1, toLex (-104, (2 : Int) ^ 52))) := by
  decide +kernel

theorem not_le_epsilon {x : Float} (h : Reaches (-2) .positive x.toModel.unpack) :
    ¬ x ≤ Scalar.epsilon := by
  intro le
  obtain ⟨p, hp, q, hq, le⟩ := le_iff.mp le
  cases place_epsilon.symm.trans hq
  rw [place] at hp
  generalize x.toModel.unpack = u at h hp
  cases h with
  | notANumber => cases hp
  | infinity =>
      cases hp
      simp [Prod.Lex.toLex_le_toLex] at le
  | finite normal positive large =>
      cases hp
      simp [Prod.Lex.toLex_le_toLex] at le
      omega

/-- A finite spread that counts is a normal number above zero. -/
theorem exists_is_of_not_le_epsilon {x : Float} (finite : x.isFinite = true)
    (counts : ¬ x ≤ Scalar.epsilon) : ∃ m e, Is x m e := by
  have above (p : Int ×ₗ Int ×ₗ Int) (hp : placeOf x.toModel.unpack = some p) :
      toLex (1, toLex (-104, (2 : Int) ^ 52)) < p :=
    not_le.mp fun le => counts (le_iff.mpr ⟨p, hp, _, place_epsilon, le⟩)
  have parts := unpacked x.toModel
  change x.toModel.unpack.isFinite = true at finite
  generalize eq : x.toModel.unpack = u at parts finite above
  cases parts with
  | notANumber | infinity => cases finite
  | zero s => exact absurd (above _ rfl) (by simp [Prod.Lex.toLex_lt_toLex])
  | subnormal s small positive =>
      cases s <;> exact absurd (above _ rfl) (by simp [Prod.Lex.toLex_lt_toLex])
  | normal s h positive =>
      cases s with
      | negative => exact absurd (above _ rfl) (by simp [Prod.Lex.toLex_lt_toLex])
      | positive => exact ⟨_, _, h, positive, eq⟩

/-- Around any number, the squares of two different counts sum to a quarter at least. -/
theorem not_sum_le_epsilon {a b : Nat} (less : a < b) (fits : b < 2 ^ 53) (c : Float) :
    ¬ Scalar.sum [(Scalar.doubleOfCount a - c) * (Scalar.doubleOfCount a - c),
        (Scalar.doubleOfCount b - c) * (Scalar.doubleOfCount b - c)] ≤ Scalar.epsilon := by
  have apart := exists_reaches_sub less fits c
  generalize Scalar.doubleOfCount a - c = x at apart ⊢
  generalize Scalar.doubleOfCount b - c = y at apart ⊢
  apply not_le_epsilon
  change Reaches (-2) .positive (Float.Model.pack (UnpackedFloat.add Format.binary64
    (Float.Model.pack (UnpackedFloat.add Format.binary64 (.zero .positive)
      (x * x).toModel.unpack)).unpack (y * y).toModel.unpack)).unpack
  rcases apart with ⟨s, reaches⟩ | ⟨s, reaches⟩
  · rw [add_comm (.zero .positive)]
    have first : Reaches (-2) .positive (x * x).toModel.unpack :=
      reaches_square (by decide) reaches
    exact reaches_add (by decide) (reaches_add (by decide) first (.zero _)) (unsigned_square _)
  · rw [add_comm]
    have second : Reaches (-2) .positive (y * y).toModel.unpack :=
      reaches_square (by decide) reaches
    exact reaches_add (by decide) second (unsigned_square _).zero_add

/-- Two different positions spread enough for a line, whatever the prices are. -/
theorem exists_fit {a b : Nat} (less : a < b) (fits : b < 2 ^ 53) (y z : Float) :
    ∃ fit, Fit.ofPoints? [(Scalar.doubleOfCount a, y), (Scalar.doubleOfCount b, z)] = some fit := by
  have two : ¬ [(Scalar.doubleOfCount a, y), (Scalar.doubleOfCount b, z)].length < 2 :=
    Nat.lt_irrefl 2
  rw [Fit.ofPoints?, if_neg two]
  dsimp only [List.map]
  rw [if_neg (not_sum_le_epsilon less fits _)]
  exact ⟨_, rfl⟩

end Double

end Trendline
