import Trendline.Proofs.Double.Sign

/-!
The relative distance of two finite doubles is a number, be it infinite: nothing is divided by zero,
and no infinity by another. What is added up to a number is made of numbers.
-/

namespace Trendline

namespace Double

open Float.Model Float.Model.UnpackedFloat

variable {u v : UnpackedFloat} {f : Format}

theorem unpack_packComponents_ne_notANumber {s : Sign} {exponent : BitVec 11} {mantissa : BitVec 52}
    (below : exponent ≠ -1#11) :
    UnpackedFloat.unpack Format.binary64 (packComponents Format.binary64 s exponent mantissa)
      ≠ .notANumber := by
  unfold UnpackedFloat.unpack
  simp only [unpackExponent_packComponents, unpackMantissa_packComponents]
  rw [if_neg below]
  split_ifs <;> exact UnpackedFloat.noConfusion

/-- What is packed is a number if it was one. -/
theorem unpack_pack_ne_notANumber (h : u ≠ .notANumber) :
    (Float.Model.pack u).unpack ≠ .notANumber := by
  have infinite (s : Sign) : UnpackedFloat.unpack Format.binary64 (packedInfinity Format.binary64 s)
      ≠ .notANumber := by
    cases s <;> exact UnpackedFloat.noConfusion
  change UnpackedFloat.unpack Format.binary64 (UnpackedFloat.pack Format.binary64 u) ≠ _
  cases u with
  | notANumber => exact (h rfl).elim
  | infinity s => exact infinite s
  | zero s => exact unpack_packComponents_ne_notANumber (by decide)
  | finite s m e positive =>
      rw [UnpackedFloat.pack]
      split_ifs with large normal
      · exact infinite s
      · apply unpack_packComponents_ne_notANumber
        intro top
        have stored := congrArg BitVec.toNat top
        change (e + 1023 + 52).toNat % 2 ^ 11 = 2047 at stored
        change ¬ 2 ^ 11 ≤ (e + 1023 + 52).toNat + 1 at large
        omega
      · exact unpack_packComponents_ne_notANumber (by decide)

theorem roundWithAccuracy_ne_notANumber (s : Sign) (m : Nat) (e : Int) (accuracy : Accuracy) :
    roundWithAccuracy f s m e accuracy ≠ .notANumber := by
  unfold roundWithAccuracy
  dsimp only
  split_ifs <;> exact UnpackedFloat.noConfusion

theorem normalize_ne_notANumber (i e : Int) (s : Sign) :
    UnpackedFloat.normalize f i e s ≠ .notANumber := by
  unfold UnpackedFloat.normalize
  cases compare i 0 with
  | lt | gt => exact roundWithAccuracy_ne_notANumber _ _ _ _
  | eq => exact UnpackedFloat.noConfusion

/-- No infinity is added to another. -/
theorem add_ne_notANumber (hu : u.isFinite = true) (hv : v ≠ .notANumber) :
    UnpackedFloat.add f u v ≠ .notANumber := by
  cases u with
  | notANumber | infinity => cases hu
  | zero s =>
      cases v with
      | notANumber => exact (hv rfl).elim
      | zero t =>
          rw [UnpackedFloat.add]
          split_ifs <;> exact UnpackedFloat.noConfusion
      | infinity | finite => exact UnpackedFloat.noConfusion
  | finite s m e =>
      cases v with
      | notANumber => exact (hv rfl).elim
      | infinity | zero => exact UnpackedFloat.noConfusion
      | finite => exact normalize_ne_notANumber _ _ _

theorem neg_ne_notANumber (h : u ≠ .notANumber) : u.neg ≠ .notANumber := by
  cases u with
  | notANumber => exact (h rfl).elim
  | infinity | zero | finite => exact UnpackedFloat.noConfusion

theorem sub_ne_notANumber (hu : u.isFinite = true) (hv : v ≠ .notANumber) :
    UnpackedFloat.sub f u v ≠ .notANumber := by
  rw [sub_eq_add_neg]
  exact add_ne_notANumber hu (neg_ne_notANumber hv)

theorem ne_notANumber_of_isFinite (h : u.isFinite = true) : u ≠ .notANumber := by
  rintro rfl
  cases h

theorem abs_ne_notANumber (h : u ≠ .notANumber) : u.abs ≠ .notANumber := by
  cases u with
  | notANumber => exact (h rfl).elim
  | infinity | zero | finite => exact UnpackedFloat.noConfusion

/-- A number divided by one that is neither zero nor infinite. -/
theorem div_ne_notANumber (h : u ≠ .notANumber) (s : Sign) (n : Nat) (e : Int) (positive : 0 < n) :
    UnpackedFloat.div f u (.finite s n e positive) ≠ .notANumber := by
  cases u with
  | notANumber => exact (h rfl).elim
  | infinity | zero => exact UnpackedFloat.noConfusion
  | finite => exact roundWithAccuracy_ne_notANumber _ _ _ _

theorem isNumber_iff {x : Float} : Scalar.isNumber x = true ↔ x.toModel.unpack ≠ .notANumber := by
  rw [← Bool.not_eq_false, Ne, not_iff_not, isNumber_eq_false_iff]

theorem add_eq_notANumber (h : u = .notANumber ∨ v = .notANumber) :
    UnpackedFloat.add f u v = .notANumber := by
  rcases h with rfl | rfl
  · rfl
  · cases u <;> rfl

/-- A sum that is a number is one of numbers. -/
theorem isNumber_of_add {x y : Float} (number : Scalar.isNumber (x + y) = true) :
    Scalar.isNumber x = true ∧ Scalar.isNumber y = true := by
  simp only [isNumber_iff, ← not_or] at number ⊢
  intro none
  apply number
  change (Float.Model.pack (UnpackedFloat.add Format.binary64 x.toModel.unpack
    y.toModel.unpack)).unpack = .notANumber
  rw [add_eq_notANumber none]
  rfl

theorem isNumber_of_sub {x y : Float} (number : Scalar.isNumber (x - y) = true) :
    Scalar.isNumber x = true := by
  rw [isNumber_iff] at number ⊢
  intro none
  apply number
  change (Float.Model.pack (UnpackedFloat.sub Format.binary64 x.toModel.unpack
    y.toModel.unpack)).unpack = .notANumber
  rw [sub_eq_add_neg, add_eq_notANumber (.inl none)]
  rfl

theorem Unpacked.abs (h : Unpacked u) : Unpacked u.abs := by
  cases h with
  | notANumber => exact .notANumber
  | infinity s => exact .infinity _
  | zero s => exact .zero _
  | subnormal s small positive => exact .subnormal _ small positive
  | normal s h positive => exact .normal _ h positive

theorem unpack_abs (x : Float) : x.abs.toModel.unpack = x.toModel.unpack.abs :=
  (unpacked x.toModel).abs.unpack_pack

/-- What a distance is measured against is neither zero nor infinite. -/
theorem exists_unpack_atLeast_epsilon {y : Float} (finite : y.isFinite = true) :
    ∃ m e positive, (Scalar.atLeast Scalar.epsilon (Scalar.abs y)).toModel.unpack
      = .finite .positive m e positive := by
  unfold Scalar.atLeast
  split_ifs with large
  · have beyond := lt_iff_compare.mp large
    change ∃ m e positive, y.abs.toModel.unpack = .finite .positive m e positive
    change y.toModel.unpack.isFinite = true at finite
    change (Scalar.epsilon : Float).toModel.unpack.compare y.abs.toModel.unpack = some .lt at beyond
    rw [unpack_abs] at beyond ⊢
    generalize y.toModel.unpack = u at finite beyond ⊢
    cases u with
    | notANumber | infinity => cases finite
    | zero s => cases beyond
    | finite s m e positive => exact ⟨m, e, positive, rfl⟩
  · exact ⟨2 ^ 52, -104, by decide, rfl⟩

theorem isNumber_relativeDistance {x y : Float} (hx : x.isFinite = true) (hy : y.isFinite = true) :
    Scalar.isNumber (Scalar.relativeDistance x y) = true := by
  obtain ⟨m, e, positive, against⟩ := exists_unpack_atLeast_epsilon hy
  rw [isNumber_iff]
  change (Float.Model.pack (UnpackedFloat.div Format.binary64 (x - y).abs.toModel.unpack
    (Scalar.atLeast Scalar.epsilon (Scalar.abs y)).toModel.unpack)).unpack ≠ .notANumber
  rw [against, unpack_abs]
  apply unpack_pack_ne_notANumber
  apply div_ne_notANumber
  apply abs_ne_notANumber
  exact unpack_pack_ne_notANumber (sub_ne_notANumber hx (ne_notANumber_of_isFinite hy))

theorem isNumber_of_lt {x y : Float} (h : x < y) : Scalar.isNumber y = true := by
  obtain ⟨-, -, b, hb, -⟩ := lt_iff.mp h
  exact decide_eq_true (le_iff.mpr ⟨b, hb, b, hb, le_refl b⟩)

/-- Two numbers are in order one way or the other. -/
theorem le_of_not_lt {x y : Float} (hx : Scalar.isNumber x = true) (hy : Scalar.isNumber y = true)
    (h : ¬ y < x) : x ≤ y := by
  obtain ⟨a, ha, -⟩ := le_iff.mp (of_decide_eq_true hx)
  obtain ⟨b, hb, -⟩ := le_iff.mp (of_decide_eq_true hy)
  exact le_iff.mpr ⟨a, ha, b, hb, not_lt.mp fun less => h (lt_iff.mpr ⟨b, hb, a, ha, less⟩)⟩

/-- Prices that are not near each other are at least as far apart as asked for. -/
theorem le_relativeDistance_iff {t x y : Float} (number : Scalar.isNumber t = true)
    (hx : x.isFinite = true) (hy : y.isFinite = true) :
    t ≤ Scalar.relativeDistance x y ↔ ¬ Scalar.relativeDistance x y < t :=
  ⟨not_lt_of_le, le_of_not_lt number (isNumber_relativeDistance hx hy)⟩

end Double

end Trendline
