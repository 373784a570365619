import Mathlib
import Trendline.Proofs.Scalar.Lawful

/-!
The order of the doubles. Each double that is a number has a place in a line; one double is less
than another exactly if both have places and the one comes first.
-/

namespace Trendline

namespace Double

open Float.Model Float.Model.UnpackedFloat

/-- The place of a number by its class (from minus infinity over zero to infinity), its exponent and
its significand; the latter two count downwards below zero. -/
def placeOf : UnpackedFloat → Option (Int ×ₗ Int ×ₗ Int)
  | .notANumber => none
  | .infinity .positive => some (toLex (2, toLex (0, 0)))
  | .infinity .negative => some (toLex (-2, toLex (0, 0)))
  | .zero _ => some (toLex (0, toLex (0, 0)))
  | .finite .positive m e _ => some (toLex (1, toLex (e, (m : Int))))
  | .finite .negative m e _ => some (toLex (-1, toLex (-e, -(m : Int))))

theorem then_eq_lt {o o' : Ordering} : o.then o' = .lt ↔ o = .lt ∨ o = .eq ∧ o' = .lt := by
  cases o <;> simp

theorem compare_eq_lt_iff (x y : UnpackedFloat) :
    x.compare y = some .lt ↔ ∃ a ∈ placeOf x, ∃ b ∈ placeOf y, a < b := by
  rcases x with s | _ | s | ⟨s, m, e, hm⟩ <;> rcases y with s' | _ | s' | ⟨s', m', e', hm'⟩ <;>
    try cases s
  all_goals try cases s'
  case infinity.infinity.negative.positive => decide
  all_goals
    simp [UnpackedFloat.compare, placeOf, Prod.Lex.toLex_lt_toLex, Ordering.swap_then, then_eq_lt,
      Int.compare_eq_lt, Int.compare_eq_gt, Nat.compare_eq_lt, Nat.compare_eq_gt]

theorem compare_eq_eq_iff (x y : UnpackedFloat) :
    x.compare y = some .eq ↔ ∃ a ∈ placeOf x, ∃ b ∈ placeOf y, a = b := by
  rcases x with s | _ | s | ⟨s, m, e, hm⟩ <;> rcases y with s' | _ | s' | ⟨s', m', e', hm'⟩ <;>
    try cases s
  all_goals try cases s'
  case infinity.infinity.negative.negative | infinity.infinity.positive.positive => decide
  case finite.finite.negative.negative | finite.finite.positive.positive =>
    simp [UnpackedFloat.compare, placeOf, Ordering.then_eq_eq]
    omega
  all_goals simp [UnpackedFloat.compare, placeOf]

/-- The place of a double, none if it is not a number. -/
def place (x : Float) : Option (Int ×ₗ Int ×ₗ Int) :=
  placeOf x.toModel.unpack

theorem lt_iff_compare {x y : Float} :
    x < y ↔ x.toModel.unpack.compare y.toModel.unpack = some .lt := by
  rw [← beq_iff_eq]
  change decide (x.toModel < y.toModel) = true ↔ _
  rw [decide_eq_true_iff]
  exact Iff.rfl

theorem le_iff_compare {x y : Float} :
    x ≤ y ↔ (x.toModel.unpack.compare y.toModel.unpack).any Ordering.isLE = true := by
  change decide (x.toModel ≤ y.toModel) = true ↔ _
  rw [decide_eq_true_iff]
  exact Iff.rfl

theorem lt_iff {x y : Float} : x < y ↔ ∃ a ∈ place x, ∃ b ∈ place y, a < b := by
  rw [place, place, ← compare_eq_lt_iff, lt_iff_compare]

theorem isLE_compare_iff (x y : UnpackedFloat) :
    (x.compare y).any Ordering.isLE = true ↔ ∃ a ∈ placeOf x, ∃ b ∈ placeOf y, a ≤ b := by
  have parts (o : Option Ordering) : o.any Ordering.isLE = true ↔ o = some .lt ∨ o = some .eq := by
    rcases o with _ | _ | _ | _ <;> decide
  rw [parts, compare_eq_lt_iff, compare_eq_eq_iff]
  simp only [le_iff_lt_or_eq, and_or_left, exists_or]

theorem le_iff {x y : Float} : x ≤ y ↔ ∃ a ∈ place x, ∃ b ∈ place y, a ≤ b := by
  rw [place, place, ← isLE_compare_iff, le_iff_compare]

theorem not_lt_of_le {x y : Float} (le : x ≤ y) : ¬ y < x := by
  intro less
  obtain ⟨a, ha, b, hb, ab⟩ := le_iff.mp le
  obtain ⟨b', hb', a', ha', ba⟩ := lt_iff.mp less
  cases ha.symm.trans ha'
  cases hb.symm.trans hb'
  exact absurd ba (not_lt.mpr ab)

theorem exists_place_of_isFinite {x : Float} (finite : x.isFinite = true) :
    ∃ a, place x = some a := by
  change x.toModel.unpack.isFinite = true at finite
  change ∃ a, placeOf x.toModel.unpack = some a
  generalize x.toModel.unpack = u at finite ⊢
  cases u with
  | infinity s | notANumber => cases finite
  | zero s | finite s m e h => cases s <;> exact ⟨_, rfl⟩

theorem sub_self {u : UnpackedFloat} (finite : u.isFinite = true) :
    UnpackedFloat.sub Format.binary64 u u = .zero .positive := by
  cases u with
  | infinity s | notANumber => cases finite
  | zero s => cases s <;> rfl
  | finite s m e h =>
      simp only [UnpackedFloat.sub, Int.sub_self]
      rfl

theorem abs_sub_self {x : Float} (finite : x.isFinite = true) : (x - x).abs = 0 := by
  change Float.ofModel (Float.Model.pack (Float.Model.pack
    (UnpackedFloat.sub Format.binary64 x.toModel.unpack x.toModel.unpack)).unpack.abs) = 0
  rw [sub_self finite]
  rfl

end Double

instance : LawfulScalar Float where
  lt_irrefl x h := by
    obtain ⟨a, ha, b, hb, less⟩ := Double.lt_iff.mp h
    cases ha.symm.trans hb
    exact lt_irrefl a less
  lt_trans hxy hyz := by
    obtain ⟨a, ha, b, hb, ab⟩ := Double.lt_iff.mp hxy
    obtain ⟨b', hb', c, hc, bc⟩ := Double.lt_iff.mp hyz
    cases hb.symm.trans hb'
    exact Double.lt_iff.mpr ⟨a, ha, c, hc, ab.trans bc⟩
  lt_or_lt y finite h := by
    obtain ⟨a, ha, c, hc, ac⟩ := Double.lt_iff.mp h
    obtain ⟨b, hb⟩ := Double.exists_place_of_isFinite finite
    rcases lt_or_ge a b with ab | ba
    · exact .inl (Double.lt_iff.mpr ⟨a, ha, b, hb, ab⟩)
    · exact .inr (Double.lt_iff.mpr ⟨b, hb, c, hc, ba.trans_lt ac⟩)
  le_of_not_lt hx hy h := by
    obtain ⟨a, ha⟩ := Double.exists_place_of_isFinite hx
    obtain ⟨b, hb⟩ := Double.exists_place_of_isFinite hy
    have ab : a ≤ b := not_lt.mp fun less => h (Double.lt_iff.mpr ⟨b, hb, a, ha, less⟩)
    exact Double.le_iff.mpr ⟨a, ha, b, hb, ab⟩
  isFinite_zero := by decide
  zero_le_one := by decide
  abs_sub_self := Double.abs_sub_self

end Trendline
