import Trendline.Scalar

/-!
The laws of numbers that the theory of the analyses rests on. Rounded numbers obey them too: none
speaks of a sum, a product or a quotient, and values that stand for no real number are kept out.
-/

namespace Trendline

class LawfulScalar (α : Type) [Scalar α] : Prop where
  lt_irrefl : ∀ x : α, ¬ x < x
  lt_trans : ∀ {x y z : α}, x < y → y < z → x < z
  /-- A finite number stands on one side of every gap. -/
  lt_or_lt : ∀ {x z : α} (y : α), Scalar.isFinite y = true → x < z → x < y ∨ y < z
  le_of_not_lt : ∀ {x y : α}, Scalar.isFinite x = true → Scalar.isFinite y = true → ¬ y < x → x ≤ y
  isFinite_zero : Scalar.isFinite (0 : α) = true
  zero_le_one : (0 : α) ≤ 1
  abs_sub_self : ∀ {x : α}, Scalar.isFinite x = true → Scalar.abs (x - x) = 0

namespace Scalar

variable {α : Type} [Scalar α] [LawfulScalar α]

theorem isNumber_of_isFinite {x : α} (finite : isFinite x = true) : isNumber x = true := by
  have le : x ≤ x := LawfulScalar.le_of_not_lt finite finite (LawfulScalar.lt_irrefl x)
  exact decide_eq_true le

/-- No tolerance keeps a finite number from itself. -/
theorem abs_sub_self_le {x tolerance : α} (finite : isFinite x = true)
    (bounded : isFinite tolerance = true) (nonneg : ¬ tolerance < 0) :
    abs (x - x) ≤ tolerance := by
  rw [LawfulScalar.abs_sub_self finite]
  exact LawfulScalar.le_of_not_lt LawfulScalar.isFinite_zero bounded nonneg

end Scalar

end Trendline
