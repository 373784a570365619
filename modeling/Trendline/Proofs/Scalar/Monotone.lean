import Trendline.Scalar

/-!
Arithmetic whose rounding keeps order: a larger operand gives no smaller result. What is not finite
obeys no such law; of it only a share of its own size is ever added or taken away.
-/

namespace Trendline

class MonotoneScalar (α : Type) [Scalar α] : Prop where
  le_trans : ∀ {x y z : α}, x ≤ y → y ≤ z → x ≤ z
  le_of_lt : ∀ {x y : α}, x < y → x ≤ y
  lt_of_lt_of_le : ∀ {x y z : α}, x < y → y ≤ z → x < z
  lt_of_le_of_lt : ∀ {x y z : α}, x ≤ y → y < z → x < z
  abs_nonneg : ∀ {x : α}, Scalar.isFinite x = true → 0 ≤ Scalar.abs x
  isFinite_abs : ∀ {x : α}, Scalar.isFinite x = true → Scalar.isFinite (Scalar.abs x) = true
  add_le_add_left : ∀ {x y z : α}, Scalar.isFinite x = true → y ≤ z → x + y ≤ x + z
  sub_le_sub_left : ∀ {x y z : α}, Scalar.isFinite x = true → y ≤ z → x - z ≤ x - y
  mul_le_mul_right : ∀ {x y z : α}, 0 ≤ x → x ≤ y → Scalar.isFinite y = true →
    Scalar.isFinite z = true → 0 ≤ z → x * z ≤ y * z
  /-- A share of what is not finite is all of it. -/
  mul_abs_eq : ∀ {x y : α}, Scalar.isFinite y = false → 0 < x → x * Scalar.abs y = Scalar.abs y
  /-- Nothing lies further out than what is not finite, moved out by a share of its size. -/
  not_lt_sub_mul_abs : ∀ {x y z : α}, Scalar.isFinite y = false → 0 ≤ x →
    ¬ z < y - x * Scalar.abs y
  not_add_mul_abs_lt : ∀ {x y z : α}, Scalar.isFinite y = false → 0 ≤ x →
    ¬ y + x * Scalar.abs y < z

namespace Scalar

variable {α : Type} [Scalar α] [MonotoneScalar α] {x y z : α}

/-- A larger share of a finite number is no smaller. -/
theorem mul_abs_le_mul_abs (nonneg : 0 ≤ x) (le : x ≤ y) (bounded : isFinite y = true)
    (finite : isFinite z = true) : x * abs z ≤ y * abs z :=
  MonotoneScalar.mul_le_mul_right nonneg le bounded (MonotoneScalar.isFinite_abs finite)
    (MonotoneScalar.abs_nonneg finite)

end Scalar

end Trendline
