import Mathlib.Algebra.Order.BigOperators.Group.List
import Mathlib.Algebra.Order.Interval.Set.Group
import Mathlib.Algebra.Order.Ring.Rat
import Mathlib.Tactic.NormNum
import Mathlib.Tactic.Ring
import Trendline.Proofs.Scalar.Monotone
import Trendline.Proofs.Scalar.Negation

/-!
Exact numbers obey every law.
-/

namespace Trendline

namespace Rational

variable {x y : Rat}

theorem abs_eq_abs (x : Rat) : Scalar.abs x = |x| := by
  change (if x < 0 then -x else x) = |x|
  split_ifs with negative
  · exact (abs_of_neg negative).symm
  · exact (abs_of_nonneg (not_lt.mp negative)).symm

theorem atMost_eq_min (bound x : Rat) : Scalar.atMost bound x = min bound x := by
  rw [Scalar.atMost]
  split_ifs with below
  · exact (min_eq_right below.le).symm
  · exact (min_eq_left (not_lt.mp below)).symm

theorem atLeast_eq_max (bound x : Rat) : Scalar.atLeast bound x = max bound x := by
  rw [Scalar.atLeast]
  split_ifs with above
  · exact (max_eq_right above.le).symm
  · exact (max_eq_left (not_lt.mp above)).symm

theorem clamp_mem {low high : Rat} (le : low ≤ high) (x : Rat) :
    Scalar.clamp low high x ∈ Set.Icc low high := by
  rw [Scalar.clamp]
  split_ifs with below above
  · exact ⟨le_rfl, le⟩
  · exact ⟨le, le_rfl⟩
  · exact ⟨not_lt.mp below, not_lt.mp above⟩

theorem order_ne_gt_iff : Scalar.order x y ≠ .gt ↔ x ≤ y := by
  change (if x < y then Ordering.lt else if y < x then .gt else .eq) ≠ .gt ↔ x ≤ y
  split_ifs with less more
  · exact iff_of_true nofun less.le
  · exact iff_of_false (not_not.mpr rfl) (not_le.mpr more)
  · exact iff_of_true nofun (not_lt.mp more)

theorem isLE_order_iff : (Scalar.order x y).isLE = true ↔ x ≤ y := by
  rw [Ordering.isLE_iff_ne_gt]
  exact order_ne_gt_iff

theorem sum_eq_sum (xs : List Rat) : Scalar.sum xs = xs.sum :=
  List.sum_eq_foldl.symm

/-- The average of numbers in a range lies in the range. -/
theorem average_mem {xs : List Rat} {low high : Rat} (nonempty : xs ≠ [])
    (inside : ∀ x ∈ xs, x ∈ Set.Icc low high) :
    Scalar.sum xs / (xs.length : Rat) ∈ Set.Icc low high := by
  have positive : (0 : Rat) < xs.length := by
    exact_mod_cast List.length_pos_iff.mpr nonempty
  have least : xs.length • low ≤ xs.sum :=
    List.card_nsmul_le_sum xs low fun x mem => (inside x mem).1
  have most : xs.sum ≤ xs.length • high :=
    List.sum_le_card_nsmul xs high fun x mem => (inside x mem).2
  rw [nsmul_eq_mul, mul_comm] at least most
  rw [sum_eq_sum]
  exact ⟨(le_div_iff₀ positive).mpr least, (div_le_iff₀ positive).mpr most⟩

theorem epsilon_eq : (Scalar.epsilon : Rat) = 1 / 2 ^ 52 := by
  change mkRat 1 0x10000000000000 = 1 / 2 ^ 52
  norm_num [mkRat]

theorem epsilon_pos : (0 : Rat) < Scalar.epsilon := by
  rw [epsilon_eq]
  positivity

theorem epsilon_lt_quarter : (Scalar.epsilon : Rat) < 1 / 4 := by
  rw [epsilon_eq]
  norm_num

theorem opposite_iff : Scalar.Opposite x y ↔ y = -x := by
  have number (z : Rat) : Scalar.isNumber z = true := decide_eq_true (le_refl z)
  rw [Scalar.Opposite, Scalar.Same, number, number]
  simp [le_antisymm_iff]

end Rational

instance : LawfulScalar Rat where
  lt_irrefl := lt_irrefl
  lt_trans := lt_trans
  lt_or_lt y _ h := (lt_or_ge _ y).imp_right fun le => le.trans_lt h
  le_of_not_lt _ _ := not_lt.mp
  isFinite_zero := rfl
  zero_le_one := zero_le_one
  abs_sub_self := by
    intro x _
    rw [sub_self]
    rfl

open Rational in
instance : Std.TransCmp (Scalar.order : Rat → Rat → Ordering) where
  eq_swap {x y} := by
    change (if x < y then Ordering.lt else if y < x then .gt else .eq)
      = (if y < x then Ordering.lt else if x < y then .gt else .eq).swap
    rcases lt_trichotomy x y with less | rfl | more
    · rw [if_pos less, if_neg less.not_gt, if_pos less, Ordering.swap_gt]
    · rw [if_neg (lt_irrefl x), if_neg (lt_irrefl x), Ordering.swap_eq]
    · rw [if_pos more, if_neg more.not_gt, if_pos more, Ordering.swap_lt]
  isLE_trans {x y z} hxy hyz := by
    rw [isLE_order_iff] at *
    exact hxy.trans hyz

open Rational in
instance : MonotoneScalar Rat where
  le_trans := le_trans
  le_of_lt := le_of_lt
  lt_of_lt_of_le := lt_of_lt_of_le
  lt_of_le_of_lt := lt_of_le_of_lt
  abs_nonneg := by
    intro x _
    rw [abs_eq_abs]
    exact abs_nonneg x
  isFinite_abs _ := rfl
  add_le_add_left _ le := add_le_add_right le _
  sub_le_sub_left _ le := sub_le_sub_left le _
  mul_le_mul_right _ le _ _ nonneg := mul_le_mul_of_nonneg_right le nonneg
  mul_abs_eq := nofun
  not_lt_sub_mul_abs := nofun
  not_add_mul_abs_lt := nofun

open Rational in
instance : LawfulNeg Rat where
  opposite_zero := opposite_iff.mpr (neg_zero).symm
  opposite_add hx hy := by
    rw [opposite_iff] at *
    rw [hx, hy]
    ring
  opposite_sub hx hy := by
    rw [opposite_iff] at *
    rw [hx, hy]
    ring
  opposite_add_sub y hx := by
    rw [opposite_iff] at *
    rw [hx]
    ring
  opposite_sub_add y hx := by
    rw [opposite_iff] at *
    rw [hx]
    ring
  opposite_mul_left y hx := by
    rw [opposite_iff] at *
    rw [hx]
    ring
  opposite_mul_right x _ _ hy := by
    rw [opposite_iff] at *
    rw [hy]
    ring
  opposite_div y hx := by
    rw [opposite_iff] at *
    rw [hx]
    ring
  square_eq hx := by
    rw [opposite_iff] at hx
    rw [hx]
    ring
  abs_eq hx := by
    rw [opposite_iff] at hx
    rw [hx, abs_eq_abs, abs_eq_abs, abs_neg]
  lt_iff hx hy := by
    rw [opposite_iff] at hx hy
    rw [hx, hy, neg_lt_neg_iff]
  le_iff hx hy := by
    rw [opposite_iff] at hx hy
    rw [hx, hy, neg_le_neg_iff]
  isFinite_eq _ := rfl

end Trendline
