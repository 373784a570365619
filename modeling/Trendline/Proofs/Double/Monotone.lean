import Trendline.Proofs.Double.Distance
import Trendline.Proofs.Double.Nearest
import Trendline.Proofs.Scalar.Monotone

/-!
Sums, differences and products of doubles keep order. Each is the exact result brought to the
nearest double, and a larger exact result is brought to no smaller double.
-/

namespace Trendline

namespace Double

open Float.Model Float.Model.UnpackedFloat

variable {u v w : UnpackedFloat} {q r : ℚ} {m n : Nat} {i j e d : Int} {s : Sign}

/-- One number is at most another. Neither is `notANumber` then. -/
def AtMost (u v : UnpackedFloat) : Prop :=
  ∃ a ∈ placeOf u, ∃ b ∈ placeOf v, a ≤ b

theorem atMost_iff_compare : AtMost u v ↔ (u.compare v).any Ordering.isLE = true :=
  (isLE_compare_iff u v).symm

theorem le_iff_atMost {x y : Float} : x ≤ y ↔ AtMost x.toModel.unpack y.toModel.unpack :=
  le_iff

namespace AtMost

theorem trans (huv : AtMost u v) (hvw : AtMost v w) : AtMost u w := by
  obtain ⟨a, ha, b, hb, ab⟩ := huv
  obtain ⟨b', hb', c, hc, bc⟩ := hvw
  cases hb.symm.trans hb'
  exact ⟨a, ha, c, hc, ab.trans bc⟩

theorem neg (h : AtMost u v) : AtMost v.neg u.neg := by
  rw [atMost_iff_compare] at h ⊢
  rwa [compare_neg]

theorem congr {u' v' : UnpackedFloat} (h : AtMost u v) (hu : Alike u' u) (hv : Alike v' v) :
    AtMost u' v' := by
  rw [atMost_iff_compare] at h ⊢
  rwa [hu.compare_eq hv]

/-- An infinity is only compared at the end where it stands. -/
theorem ends (h : AtMost u v) :
    u = .infinity .negative ∨ v = .infinity .positive ∨ u.isFinite = true ∧ v.isFinite = true := by
  rw [atMost_iff_compare] at h
  cases u with
  | notANumber => cases h
  | infinity s =>
      cases s with
      | negative => exact .inl rfl
      | positive =>
          rcases v with (_ | _) | _ | t | ⟨_ | _, n, d, hn⟩
          case infinity.positive => exact .inr (.inl rfl)
          all_goals cases h
  | zero s | finite s m e hm =>
      rcases v with (_ | _) | _ | t | ⟨t, n, d, hn⟩
      case infinity.positive => exact .inr (.inl rfl)
      case zero | finite => exact .inr (.inr ⟨rfl, rfl⟩)
      all_goals cases s <;> cases h

theorem ne_notANumber (h : AtMost u v) : u ≠ .notANumber ∧ v ≠ .notANumber := by
  obtain ⟨a, ha, b, hb, -⟩ := h
  constructor
  · rintro rfl
    cases ha
  · rintro rfl
    cases hb

/-- What lies between finite numbers is finite. -/
theorem isFinite_of_between (huv : AtMost u v) (hvw : AtMost v w) (finiteU : u.isFinite = true)
    (finiteW : w.isFinite = true) : v.isFinite = true := by
  rcases huv.ends with rfl | rfl | ⟨-, finite⟩
  · cases finiteU
  · rcases hvw.ends with below | rfl | ⟨finite, -⟩
    · cases below
    · cases finiteW
    · exact finite
  · exact finite

end AtMost

theorem atMost_infinity (number : u ≠ .notANumber) : AtMost u (.infinity .positive) := by
  rw [atMost_iff_compare]
  rcases u with (_ | _) | _ | s | ⟨_ | _, m, e, hm⟩
  case notANumber => exact (number rfl).elim
  all_goals rfl

theorem infinity_atMost (number : u ≠ .notANumber) : AtMost (.infinity .negative) u := by
  have above := (atMost_infinity (neg_ne_notANumber number)).neg
  rwa [neg_neg] at above

/-! Rounding -/

/-- The double nearest to `i * 2 ^ e`. -/
def rounded (i e : Int) : UnpackedFloat :=
  (Float.Model.pack (UnpackedFloat.normalize Format.binary64 i e .positive)).unpack

theorem rounded_zero (e : Int) : rounded 0 e = .zero .positive := by
  have zero : UnpackedFloat.normalize Format.binary64 0 e .positive = .zero .positive := rfl
  rw [rounded, zero]
  rfl

theorem alike_rounded_neg (i e : Int) : Alike (rounded (-i) e) (rounded i e).neg := by
  rw [rounded, rounded, ← unpack_pack_neg]
  exact (alike_normalize_neg i e).pack

theorem placeOf_rounded (n : Nat) (e : Int) :
    placeOf (rounded n e) = some (standing (nearest n e (lastBit n e)) (lastBit n e)) := by
  rcases Nat.eq_zero_or_pos n with rfl | positive
  · have zero : nearest 0 e (lastBit 0 e) = 0 := by
      have none : ((0 : Nat) : ℚ) * 2 ^ e ≤ (0 : Nat) * 2 ^ lastBit 0 e := by simp
      exact Nat.le_zero.mp ((nearest_le_nearest none _).trans_eq (nearest_self 0 _))
    rw [zero, Nat.cast_zero, rounded_zero]
    rfl
  · rw [rounded, ← placeOf_round positive]
    exact congrArg (fun u => placeOf (Float.Model.pack u).unpack)
      (normalize_apply (s := .positive) positive .positive)

theorem zero_atMost_rounded (n : Nat) (e : Int) : AtMost (.zero .positive) (rounded n e) :=
  ⟨_, rfl, _, placeOf_rounded n e, standing_nonneg _ _⟩

theorem atMost_rounded_natCast (le : (m : ℚ) * 2 ^ e ≤ n * 2 ^ d) :
    AtMost (rounded m e) (rounded n d) := by
  rcases Nat.eq_zero_or_pos m with rfl | positive
  · rw [Nat.cast_zero, rounded_zero]
    exact zero_atMost_rounded n d
  · have some : 0 < n := by
      have above : (0 : ℚ) < m * 2 ^ e := mul_pos (Nat.cast_pos.mpr positive) (zpow_pos two_pos e)
      exact Nat.cast_pos.mp (pos_of_mul_pos_left (above.trans_le le) (zpow_pos two_pos d).le)
    refine ⟨_, placeOf_rounded m e, _, placeOf_rounded n d, ?_⟩
    apply standing_le_standing (fills_nearest positive e) (fills_nearest some d)
    rcases (lastBit_le_lastBit positive le).lt_or_eq with less | same
    · exact .inl less
    · rw [same]
      exact .inr ⟨rfl, nearest_le_nearest le _⟩

/-- Rounding keeps order. -/
theorem atMost_rounded (le : (i : ℚ) * 2 ^ e ≤ j * 2 ^ d) : AtMost (rounded i e) (rounded j d) := by
  have nonneg (n : Nat) (e : Int) : (0 : ℚ) ≤ n * 2 ^ e :=
    mul_nonneg n.cast_nonneg (zpow_pos two_pos e).le
  have below (n : Nat) (e : Int) : AtMost (rounded (-n) e) (.zero .positive) :=
    (zero_atMost_rounded n e).neg.congr (alike_rounded_neg n e) (.zero _ _)
  have least {n : Nat} {e : Int} (le : (n : ℚ) * 2 ^ e ≤ 0) :
      AtMost (rounded n e) (.zero .positive) := by
    have nothing : (n : ℚ) * 2 ^ e ≤ (0 : Nat) * 2 ^ (0 : Int) := by simpa using le
    exact (atMost_rounded_natCast nothing).congr (.refl _) (.refl _)
  obtain ⟨m, rfl | rfl⟩ := i.eq_nat_or_neg <;> obtain ⟨n, rfl | rfl⟩ := j.eq_nat_or_neg
  all_goals push_cast at le
  · exact atMost_rounded_natCast le
  · have left := least (le.trans (by linarith [nonneg n d]))
    have right := (least (by linarith [nonneg m e] : (n : ℚ) * 2 ^ d ≤ 0)).neg
    exact left.trans (right.congr (.zero _ _) (alike_rounded_neg n d))
  · exact (below m e).trans (zero_atMost_rounded n d)
  · have turned : (n : ℚ) * 2 ^ d ≤ m * 2 ^ e := by linarith
    exact (atMost_rounded_natCast turned).neg.congr (alike_rounded_neg m e) (alike_rounded_neg n d)

/-- A double that a number is rounded to, up to the sign of a zero. -/
def Rounds (q : ℚ) (u : UnpackedFloat) : Prop :=
  ∃ i e : Int, q = i * 2 ^ e ∧ Alike u (rounded i e)

theorem Rounds.atMost (hu : Rounds q u) (hv : Rounds r v) (le : q ≤ r) : AtMost u v := by
  obtain ⟨i, e, rfl, hu⟩ := hu
  obtain ⟨j, d, rfl, hv⟩ := hv
  exact (atMost_rounded le).congr hu hv

theorem rounds_zero (s : Sign) : Rounds 0 (Float.Model.pack (.zero s)).unpack := by
  refine ⟨0, 0, by simp, ?_⟩
  rw [(Unpacked.zero s).unpack_pack, rounded_zero]
  exact .zero _ _

theorem lastBit_of_unpacked {positive : 0 < m} (h : Unpacked (.finite s m e positive)) :
    m < 2 ^ 53 ∧ -1074 ≤ e ∧ lastBit m e = e := by
  cases h with
  | subnormal _ small =>
      have log : m.log2 < 52 := (Nat.log2_lt (Nat.ne_of_gt positive)).mpr small
      rw [lastBit]
      omega
  | normal _ normal =>
      obtain ⟨low, high, least, -⟩ := normal
      have log : m.log2 = 52 := (Nat.log2_eq_iff (Nat.ne_of_gt positive)).mpr ⟨low, high⟩
      rw [lastBit]
      omega

/-- A double is rounded to itself. -/
theorem rounds_value (h : Unpacked u) (finite : u.isFinite = true) : Rounds (value u) u := by
  cases u with
  | infinity | notANumber => cases finite
  | zero s =>
      have zero := rounds_zero s
      rw [h.unpack_pack] at zero
      exact zero
  | finite s m e positive =>
      obtain ⟨high, least, last⟩ := lastBit_of_unpacked h
      refine ⟨s.apply m, e, rfl, ?_⟩
      rw [rounded, normalize_apply positive, round_eq_settled s positive, last, nearest_self,
        settled_of_lt high least positive, h.unpack_pack]
      exact .refl _

theorem Alike.value_eq (h : Alike u v) : value u = value v := by
  cases h with
  | refl | zero => rfl

/-- Finite doubles are in the order of the numbers they stand for. -/
theorem atMost_iff_value (hu : Unpacked u) (hv : Unpacked v) (finiteU : u.isFinite = true)
    (finiteV : v.isFinite = true) : AtMost u v ↔ value u ≤ value v := by
  have roundsU := rounds_value hu finiteU
  have roundsV := rounds_value hv finiteV
  refine ⟨fun le => ?_, roundsU.atMost roundsV⟩
  by_contra less
  obtain ⟨a, ha, b, hb, ab⟩ := le
  obtain ⟨b', hb', a', ha', ba⟩ := roundsV.atMost roundsU (le_of_not_ge less)
  cases ha.symm.trans ha'
  cases hb.symm.trans hb'
  have same : placeOf u = placeOf v := by rw [ha, hb, le_antisymm ab ba]
  have alike := alike_of_placeOf same (Option.ne_none_iff_exists'.mpr ⟨a, ha⟩)
  exact less alike.value_eq.le

/-! Operations -/

theorem Unpacked.neg (h : Unpacked u) : Unpacked u.neg := by
  cases h with
  | notANumber => exact .notANumber
  | infinity s => exact .infinity _
  | zero s => exact .zero _
  | subnormal s small positive => exact .subnormal _ small positive
  | normal s h positive => exact .normal _ h positive

/-- The sum of two finite doubles is rounded once. -/
theorem rounds_add (hu : Unpacked u) (hv : Unpacked v) (finiteU : u.isFinite = true)
    (finiteV : v.isFinite = true) :
    Rounds (value u + value v)
      (Float.Model.pack (UnpackedFloat.add Format.binary64 u v)).unpack := by
  cases u with
  | infinity | notANumber => cases finiteU
  | zero s =>
      rw [show value (.zero s) = 0 from rfl, zero_add]
      cases v with
      | infinity | notANumber => cases finiteV
      | zero t => cases s <;> cases t <;> exact rounds_zero _
      | finite t n d hn =>
          change Rounds _ (Float.Model.pack (.finite t n d hn)).unpack
          rw [hv.unpack_pack]
          exact rounds_value hv rfl
  | finite s m e hm =>
      cases v with
      | infinity | notANumber => cases finiteV
      | zero t =>
          change Rounds _ (Float.Model.pack (.finite s m e hm)).unpack
          rw [show value (.zero t) = 0 from rfl, add_zero, hu.unpack_pack]
          exact rounds_value hu rfl
      | finite t n d hn =>
          have sum : value (.finite s m e hm) + value (.finite t n d hn)
              = ((s.apply (decreaseExponent m e (min e d)).1
                  + t.apply (decreaseExponent n d (min e d)).1 : Int) : ℚ) * 2 ^ min e d := by
            rw [Int.cast_add, add_mul, apply_decreaseExponent (min_le_left _ _),
              apply_decreaseExponent (min_le_right _ _)]
            rfl
          exact ⟨_, _, sum, .refl _⟩

theorem apply_mul (s t : Sign) (m n : Nat) :
    (s * t).apply ((m * n : Nat) : Int) = s.apply m * t.apply n := by
  rw [Nat.cast_mul]
  cases s <;> cases t
  · exact (Int.neg_mul_neg _ _).symm
  · exact (Int.neg_mul _ _).symm
  · exact (Int.mul_neg _ _).symm
  · rfl

/-- A product of significands has all bits that a double has, unless both factors lie at the end of
the scale. -/
theorem round_mul {hm : 0 < m} {hn : 0 < n} {t : Sign} (hu : Unpacked (.finite s m e hm))
    (hv : Unpacked (.finite t n d hn)) :
    UnpackedFloat.round Format.binary64 (s * t) (m * n) (e + d)
      = UnpackedFloat.mul Format.binary64 (.finite s m e hm) (.finite t n d hn) := by
  obtain ⟨-, -, lastM⟩ := lastBit_of_unpacked hu
  obtain ⟨-, -, lastN⟩ := lastBit_of_unpacked hv
  have leftBits : m.log2 ≤ (m * n).log2 := (Nat.le_log2 (Nat.mul_pos hm hn).ne').mpr
    ((Nat.log2_self_le hm.ne').trans (Nat.le_mul_of_pos_right m hn))
  have rightBits : n.log2 ≤ (m * n).log2 := (Nat.le_log2 (Nat.mul_pos hm hn).ne').mpr
    ((Nat.log2_self_le hn.ne').trans (Nat.le_mul_of_pos_left n hm))
  have shift : (e + d - lastBit (m * n) (e + d)).toNat = 0 := by
    unfold lastBit at *
    omega
  rw [UnpackedFloat.round, targetExponent_eq, decreaseExponent, shift]
  dsimp only
  rw [Int.cast_ofNat_Int, Int.sub_zero]
  rfl

/-- So is their product. -/
theorem rounds_mul (hu : Unpacked u) (hv : Unpacked v) (finiteU : u.isFinite = true)
    (finiteV : v.isFinite = true) :
    Rounds (value u * value v)
      (Float.Model.pack (UnpackedFloat.mul Format.binary64 u v)).unpack := by
  cases u with
  | infinity | notANumber => cases finiteU
  | zero s =>
      rw [show value (.zero s) = 0 from rfl, zero_mul]
      cases v with
      | infinity | notANumber => cases finiteV
      | zero t | finite t => exact rounds_zero (s * t)
  | finite s m e hm =>
      cases v with
      | infinity | notANumber => cases finiteV
      | zero t =>
          rw [show value (.zero t) = 0 from rfl, mul_zero]
          exact rounds_zero (s * t)
      | finite t n d hn =>
          have product : value (.finite s m e hm) * value (.finite t n d hn)
              = (((s * t).apply (m * n : Nat) : Int) : ℚ) * 2 ^ (e + d) := by
            rw [apply_mul, value, value, zpow_add₀ two_ne_zero]
            push_cast
            ring
          refine ⟨_, _, product, ?_⟩
          rw [rounded, normalize_apply (Nat.mul_pos hm hn), round_mul hu hv]
          exact .refl _

theorem atMost_add (hw : Unpacked w) (finite : w.isFinite = true) (hu : Unpacked u)
    (hv : Unpacked v) (le : AtMost u v) :
    AtMost (Float.Model.pack (UnpackedFloat.add Format.binary64 w u)).unpack
      (Float.Model.pack (UnpackedFloat.add Format.binary64 w v)).unpack := by
  have number {u : UnpackedFloat} (h : u ≠ .notANumber) :
      (Float.Model.pack (UnpackedFloat.add Format.binary64 w u)).unpack ≠ .notANumber :=
    unpack_pack_ne_notANumber (add_ne_notANumber finite h)
  have infinite (s : Sign) :
      (Float.Model.pack (UnpackedFloat.add Format.binary64 w (.infinity s))).unpack
        = .infinity s := by
    cases w with
    | notANumber | infinity => cases finite
    | zero | finite => exact (Unpacked.infinity s).unpack_pack
  rcases le.ends with rfl | rfl | ⟨finiteU, finiteV⟩
  · rw [infinite]
    exact infinity_atMost (number le.ne_notANumber.2)
  · rw [infinite]
    exact atMost_infinity (number le.ne_notANumber.1)
  · have ordered := (atMost_iff_value hu hv finiteU finiteV).mp le
    exact (rounds_add hw hu finite finiteU).atMost (rounds_add hw hv finite finiteV)
      (add_le_add_right ordered (value w))

theorem atMost_mul (hw : Unpacked w) (hu : Unpacked u) (hv : Unpacked v)
    (finiteW : w.isFinite = true) (finiteU : u.isFinite = true) (finiteV : v.isFinite = true)
    (nonneg : AtMost (.zero .positive) w) (le : AtMost u v) :
    AtMost (Float.Model.pack (UnpackedFloat.mul Format.binary64 u w)).unpack
      (Float.Model.pack (UnpackedFloat.mul Format.binary64 v w)).unpack := by
  have ordered := (atMost_iff_value hu hv finiteU finiteV).mp le
  have above := (atMost_iff_value (.zero .positive) hw rfl finiteW).mp nonneg
  exact (rounds_mul hu hw finiteU finiteW).atMost (rounds_mul hv hw finiteV finiteW)
    (mul_le_mul_of_nonneg_right ordered above)

variable {x y z : Float}

theorem add_le_add_left (finite : x.isFinite = true) (le : y ≤ z) : x + y ≤ x + z :=
  le_iff_atMost.mpr (atMost_add (unpacked x.toModel) finite (unpacked y.toModel)
    (unpacked z.toModel) (le_iff_atMost.mp le))

theorem sub_le_sub_left (finite : x.isFinite = true) (le : y ≤ z) : x - z ≤ x - y := by
  rw [le_iff_atMost]
  change AtMost (Float.Model.pack (UnpackedFloat.sub Format.binary64 _ _)).unpack
    (Float.Model.pack (UnpackedFloat.sub Format.binary64 _ _)).unpack
  rw [sub_eq_add_neg, sub_eq_add_neg]
  exact atMost_add (unpacked x.toModel) finite (unpacked z.toModel).neg (unpacked y.toModel).neg
    (le_iff_atMost.mp le).neg

theorem mul_le_mul_right (nonneg : 0 ≤ x) (le : x ≤ y) (finiteY : y.isFinite = true)
    (finiteZ : z.isFinite = true) (above : 0 ≤ z) : x * z ≤ y * z := by
  rw [le_iff_atMost] at nonneg le above
  have finiteX := nonneg.isFinite_of_between le rfl finiteY
  exact le_iff_atMost.mpr (atMost_mul (unpacked z.toModel) (unpacked x.toModel)
    (unpacked y.toModel) finiteZ finiteX finiteY above le)

theorem abs_nonneg (finite : x.isFinite = true) : 0 ≤ x.abs := by
  have size (u : UnpackedFloat) (h : u.isFinite = true) : AtMost (.zero .positive) u.abs := by
    rw [atMost_iff_compare]
    cases u with
    | notANumber | infinity => cases h
    | zero | finite => rfl
  rw [le_iff_atMost, unpack_abs]
  exact size x.toModel.unpack finite

theorem isFinite_abs (finite : x.isFinite = true) : x.abs.isFinite = true := by
  have size (u : UnpackedFloat) (h : u.isFinite = true) : u.abs.isFinite = true := by
    cases u with
    | notANumber | infinity => cases h
    | zero | finite => rfl
  change x.abs.toModel.unpack.isFinite = true
  rw [unpack_abs]
  exact size x.toModel.unpack finite

/-! Margins around what is not finite -/

/-- Not a number, or above all that are finite. -/
inductive Endless : UnpackedFloat → Prop
  | notANumber : Endless .notANumber
  | infinity : Endless (.infinity .positive)

theorem endless_abs (h : u.isFinite = false) : Endless u.abs := by
  cases u with
  | notANumber => exact .notANumber
  | infinity s => exact .infinity
  | zero | finite => cases h

namespace Endless

theorem unpack_pack (h : Endless u) : (Float.Model.pack u).unpack = u := by
  cases h with
  | notANumber => rfl
  | infinity => rfl

theorem mul (h : Endless v) (nonneg : AtMost (.zero .positive) u) :
    Endless (UnpackedFloat.mul Format.binary64 u v) := by
  rw [atMost_iff_compare] at nonneg
  cases h with
  | notANumber =>
      cases u with
      | notANumber | infinity | zero | finite => exact .notANumber
  | infinity =>
      rcases u with (_ | _) | _ | s | ⟨_ | _, m, e, hm⟩
      case infinity.negative | notANumber | finite.negative => cases nonneg
      case zero => exact .notANumber
      case infinity.positive | finite.positive => exact .infinity

/-- A positive share of it is all of it. -/
theorem mul_eq (h : Endless v) (positive : (UnpackedFloat.zero .positive).compare u = some .lt) :
    UnpackedFloat.mul Format.binary64 u v = v := by
  cases h with
  | notANumber => cases u <;> rfl
  | infinity =>
      rcases u with (_ | _) | _ | s | ⟨_ | _, m, e, hm⟩
      case infinity.positive | finite.positive => rfl
      all_goals cases positive

/-- Nothing lies below what is left without such a margin. -/
theorem not_lt_sub (h : Endless v) (endless : u.isFinite = false) :
    w.compare (Float.Model.pack (UnpackedFloat.sub Format.binary64 u v)).unpack ≠ some .lt := by
  have lowest : UnpackedFloat.sub Format.binary64 u v = .notANumber ∨
      UnpackedFloat.sub Format.binary64 u v = .infinity .negative := by
    cases u with
    | zero | finite => cases endless
    | notANumber => exact .inl rfl
    | infinity s =>
        cases h with
        | notANumber => exact .inl rfl
        | infinity =>
            cases s with
            | negative => exact .inr rfl
            | positive => exact .inl rfl
  rcases lowest with eq | eq
  · rw [eq, (Unpacked.notANumber).unpack_pack]
    cases w <;> exact nofun
  · rw [eq, (Unpacked.infinity .negative).unpack_pack]
    rcases w with (_ | _) | _ | s | ⟨_ | _, m, e, hm⟩ <;> exact nofun

/-- Nothing lies above what such a margin adds to. -/
theorem not_add_lt (h : Endless v) (endless : u.isFinite = false) :
    (Float.Model.pack (UnpackedFloat.add Format.binary64 u v)).unpack.compare w ≠ some .lt := by
  have highest : UnpackedFloat.add Format.binary64 u v = .notANumber ∨
      UnpackedFloat.add Format.binary64 u v = .infinity .positive := by
    cases u with
    | zero | finite => cases endless
    | notANumber => exact .inl rfl
    | infinity s =>
        cases h with
        | notANumber => exact .inl rfl
        | infinity =>
            cases s with
            | negative => exact .inl rfl
            | positive => exact .inr rfl
  rcases highest with eq | eq
  · rw [eq, (Unpacked.notANumber).unpack_pack]
    cases w <;> exact nofun
  · rw [eq, (Unpacked.infinity .positive).unpack_pack]
    rcases w with (_ | _) | _ | s | ⟨_ | _, m, e, hm⟩ <;> exact nofun

end Endless

theorem endless_unpack_abs (endless : y.isFinite = false) : Endless y.abs.toModel.unpack := by
  rw [unpack_abs]
  exact endless_abs endless

/-- The unpacked margin. -/
theorem endless_margin (endless : y.isFinite = false) (nonneg : 0 ≤ x) :
    Endless (x * y.abs).toModel.unpack := by
  have margin := (endless_unpack_abs endless).mul (le_iff_atMost.mp nonneg)
  change Endless (Float.Model.pack (UnpackedFloat.mul Format.binary64 x.toModel.unpack
    y.abs.toModel.unpack)).unpack
  rwa [margin.unpack_pack]

/-- A share of what is not finite is all of it. -/
theorem mul_abs_eq (endless : y.isFinite = false) (positive : 0 < x) : x * y.abs = y.abs := by
  have whole := (endless_unpack_abs endless).mul_eq (lt_iff_compare.mp positive)
  change Float.ofModel (Float.Model.pack (UnpackedFloat.mul Format.binary64 x.toModel.unpack
    y.abs.toModel.unpack)) = Float.ofModel (Float.Model.pack y.toModel.unpack.abs)
  rw [whole, unpack_abs]

theorem not_lt_sub_mul_abs (endless : y.isFinite = false) (nonneg : 0 ≤ x) :
    ¬ z < y - x * y.abs := fun less =>
  (endless_margin endless nonneg).not_lt_sub endless (lt_iff_compare.mp less)

theorem not_add_mul_abs_lt (endless : y.isFinite = false) (nonneg : 0 ≤ x) :
    ¬ y + x * y.abs < z := fun less =>
  (endless_margin endless nonneg).not_add_lt endless (lt_iff_compare.mp less)

end Double

instance : MonotoneScalar Float where
  le_trans hxy hyz :=
    Double.le_iff_atMost.mpr ((Double.le_iff_atMost.mp hxy).trans (Double.le_iff_atMost.mp hyz))
  le_of_lt h := by
    obtain ⟨a, ha, b, hb, ab⟩ := Double.lt_iff.mp h
    exact Double.le_iff.mpr ⟨a, ha, b, hb, ab.le⟩
  lt_of_lt_of_le hxy hyz := by
    obtain ⟨a, ha, b, hb, ab⟩ := Double.lt_iff.mp hxy
    obtain ⟨b', hb', c, hc, bc⟩ := Double.le_iff.mp hyz
    cases hb.symm.trans hb'
    exact Double.lt_iff.mpr ⟨a, ha, c, hc, ab.trans_le bc⟩
  lt_of_le_of_lt hxy hyz := by
    obtain ⟨a, ha, b, hb, ab⟩ := Double.le_iff.mp hxy
    obtain ⟨b', hb', c, hc, bc⟩ := Double.lt_iff.mp hyz
    cases hb.symm.trans hb'
    exact Double.lt_iff.mpr ⟨a, ha, c, hc, ab.trans_lt bc⟩
  abs_nonneg := Double.abs_nonneg
  isFinite_abs := Double.isFinite_abs
  add_le_add_left := Double.add_le_add_left
  sub_le_sub_left := Double.sub_le_sub_left
  mul_le_mul_right := Double.mul_le_mul_right
  mul_abs_eq := Double.mul_abs_eq
  not_lt_sub_mul_abs := Double.not_lt_sub_mul_abs
  not_add_mul_abs_lt := Double.not_add_mul_abs_lt

end Trendline
