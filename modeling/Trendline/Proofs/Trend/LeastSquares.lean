import Mathlib.Algebra.BigOperators.Ring.List
import Mathlib.Algebra.Order.BigOperators.Group.List
import Mathlib.Algebra.Order.Ring.Abs
import Mathlib.Tactic.FieldSimp
import Mathlib.Tactic.Linarith
import Trendline.Proofs.Scalar.Rational

/-!
The line of least squares in exact arithmetic. Measured from the means of the points, the squares of
a line are those of the best line, and what its slope and its height at the mean differ from that.
Points at different bars always spread far enough for a line.
-/

namespace Trendline

namespace Rational

/-- What the running mean has seen adds up to the mean times the count. -/
theorem foldl_meanStep (count : Nat) (m : Rat) (xs : List Rat) :
    (xs.foldl meanStep (count, m)).2 * ((count + xs.length : Nat) : Rat) = m * count + xs.sum := by
  induction xs generalizing count m with
  | nil => rw [List.sum_nil, add_zero]; rfl
  | cons x xs ih =>
      have step : (m + (x - m) / ((count + 1 : Nat) : Rat)) * ((count + 1 : Nat) : Rat)
          = m * count + x := by
        push_cast
        field_simp
        ring
      have shifted : count + (x :: xs).length = count + 1 + xs.length := by
        rw [List.length_cons]
        omega
      rw [List.foldl_cons, shifted, List.sum_cons, ← add_assoc, ← step]
      exact ih (count + 1) _

theorem mean_eq (xs : List Rat) : mean xs = xs.sum / xs.length := by
  cases xs with
  | nil => exact (div_zero 0).symm
  | cons x xs =>
      have run := foldl_meanStep 0 0 (x :: xs)
      rw [Nat.cast_zero, zero_mul, zero_add, zero_add] at run
      rw [eq_div_iff (by simp only [List.length_cons]; positivity)]
      exact run

end Rational

/-- The sum of the squares of how far points lie above or below a line. -/
def Trend.squares (line : Trend Rat) (points : List (Rat × Rat)) : Rat :=
  (points.map fun p => (p.2 - line.value p.1) ^ 2).sum

section Deviations

/-- The means of points along either axis. -/
def centre (points : List (Rat × Rat)) : Rat × Rat :=
  (mean (points.map Prod.fst), mean (points.map Prod.snd))

/-- The points as they lie from their centre. -/
def deviations (points : List (Rat × Rat)) : List (Rat × Rat) :=
  points.map fun p => (p.1 - (centre points).1, p.2 - (centre points).2)

/-- The sum of the products of two quantities of the deviations. -/
def comoment (f g : Rat × Rat → Rat) (points : List (Rat × Rat)) : Rat :=
  ((deviations points).map fun d => f d * g d).sum

variable {points : List (Rat × Rat)}

theorem sum_sub_mean {xs : List Rat} (nonempty : xs ≠ []) :
    (xs.map fun x => x - mean xs).sum = 0 := by
  have positive : (0 : Rat) < xs.length := by
    exact_mod_cast List.length_pos_iff.mpr nonempty
  simp only [sub_eq_add_neg, List.sum_map_add, List.map_const', List.sum_replicate, nsmul_eq_mul,
    List.map_id', Rational.mean_eq]
  field_simp
  ring

theorem sum_deviations (nonempty : points ≠ []) :
    ((deviations points).map Prod.fst).sum = 0 ∧ ((deviations points).map Prod.snd).sum = 0 := by
  have first := @sum_sub_mean (points.map Prod.fst) (by simpa using nonempty)
  have second := @sum_sub_mean (points.map Prod.snd) (by simpa using nonempty)
  rw [List.map_map] at first second
  rw [deviations, List.map_map, List.map_map]
  exact ⟨first, second⟩

theorem sum_squares_add (ds : List (Rat × Rat)) (a k : Rat) :
    (ds.map fun d => (d.2 - a * d.1 + k) ^ 2).sum
      = (ds.map fun d => d.2 * d.2).sum - 2 * a * (ds.map fun d => d.1 * d.2).sum
        + a ^ 2 * (ds.map fun d => d.1 * d.1).sum
        + 2 * k * ((ds.map Prod.snd).sum - a * (ds.map Prod.fst).sum) + ds.length * k ^ 2 := by
  induction ds with
  | nil => simp
  | cons d ds ih =>
      simp only [List.map_cons, List.sum_cons, List.length_cons, ih]
      push_cast
      ring

/-- The squares of a line, from its slope and its height over the centre. -/
theorem Trend.squares_eq (line : Trend Rat) (nonempty : points ≠ []) :
    line.squares points
      = comoment Prod.snd Prod.snd points - 2 * line.slope * comoment Prod.fst Prod.snd points
        + line.slope ^ 2 * comoment Prod.fst Prod.fst points
        + points.length * ((centre points).2 - line.value (centre points).1) ^ 2 := by
  obtain ⟨first, second⟩ := sum_deviations nonempty
  have moved : line.squares points = ((deviations points).map fun d =>
      (d.2 - line.slope * d.1 + ((centre points).2 - line.value (centre points).1)) ^ 2).sum := by
    rw [squares, deviations, List.map_map]
    congr 2
    funext p
    simp only [value, Function.comp]
    ring
  rw [moved, sum_squares_add, first, second, deviations, List.length_map]
  simp only [comoment, deviations]
  ring

/-- Where the points spread along the first axis, a line has the squares of the best one and more,
the more it differs from that in slope and in height. -/
theorem Trend.squares_eq_add (line best : Trend Rat) (nonempty : points ≠ [])
    (slope : best.slope * comoment Prod.fst Prod.fst points = comoment Prod.fst Prod.snd points)
    (height : best.value (centre points).1 = (centre points).2) :
    line.squares points
      = best.squares points
        + comoment Prod.fst Prod.fst points * (line.slope - best.slope) ^ 2
        + points.length * ((centre points).2 - line.value (centre points).1) ^ 2 := by
  rw [line.squares_eq nonempty, best.squares_eq nonempty, height, ← slope]
  ring

theorem sum_residuals_eq (line : Trend Rat) :
    Scalar.sum ((points.map fun p => p.2 - line.value p.1).map fun r => r * r)
      = line.squares points := by
  rw [Rational.sum_eq_sum, List.map_map, Trend.squares]
  simp only [Function.comp_def, pow_two]

namespace Fit

/-- The line through the centre whose slope is that of the deviations, with the share of their
squares along the second axis that it leaves out. -/
def ofDeviations (points : List (Rat × Rat)) : Fit Rat :=
  let slope := comoment Prod.fst Prod.snd points / comoment Prod.fst Prod.fst points
  let line : Trend Rat := ⟨slope, (centre points).2 - slope * (centre points).1⟩
  ⟨line, if comoment Prod.snd Prod.snd points ≤ Scalar.epsilon then 1
    else Scalar.clamp 0 1 (1 - line.squares points / comoment Prod.snd Prod.snd points)⟩

theorem ofPoints?_eq (points : List (Rat × Rat)) :
    ofPoints? points =
      if points.length < 2 then none
      else if comoment Prod.fst Prod.fst points ≤ Scalar.epsilon then none
      else some (ofDeviations points) := by
  have sums (f g : Rat × Rat → Rat) : comoment f g points
      = Scalar.sum ((deviations points).map fun d => f d * g d) := (Rational.sum_eq_sum _).symm
  rw [ofDeviations]
  simp only [← sum_residuals_eq, sums]
  rfl

theorem ofPoints?_eq_none_iff :
    ofPoints? points = none ↔
      points.length < 2 ∨ comoment Prod.fst Prod.fst points ≤ Scalar.epsilon := by
  rw [ofPoints?_eq]
  split_ifs with few level
  · exact iff_of_true rfl (.inl few)
  · exact iff_of_true rfl (.inr level)
  · exact iff_of_false nofun (not_or_intro few level)

theorem ofPoints?_eq_some_iff {fit : Fit Rat} :
    ofPoints? points = some fit ↔
      2 ≤ points.length ∧ Scalar.epsilon < comoment Prod.fst Prod.fst points ∧
        ofDeviations points = fit := by
  rw [ofPoints?_eq]
  split_ifs with few level
  · exact iff_of_false nofun fun h => Nat.not_le.mpr few h.1
  · exact iff_of_false nofun fun h => not_le.mpr h.2.1 level
  · rw [Option.some.injEq, and_iff_right (Nat.not_lt.mp few), and_iff_right (not_le.mp level)]

/-- Every other line leaves larger squares. -/
theorem squares_ofDeviations_lt (nonempty : points ≠ [])
    (spread : 0 < comoment Prod.fst Prod.fst points) {line : Trend Rat}
    (other : line ≠ (ofDeviations points).toTrend) :
    (ofDeviations points).squares points < line.squares points := by
  have slope : (ofDeviations points).slope * comoment Prod.fst Prod.fst points
      = comoment Prod.fst Prod.snd points := div_mul_cancel₀ _ spread.ne'
  have height : (ofDeviations points).value (centre points).1 = (centre points).2 :=
    add_sub_cancel _ _
  have count : (0 : Rat) < points.length := by
    exact_mod_cast List.length_pos_iff.mpr nonempty
  rw [line.squares_eq_add _ nonempty slope height]
  by_cases same : line.slope = (ofDeviations points).slope
  · -- The line is parallel, so it passes the centre above or below.
    have apart : (centre points).2 - line.value (centre points).1 ≠ 0 := by
      rw [← height, Trend.value, Trend.value, same, add_sub_add_left_eq_sub]
      refine sub_ne_zero.mpr fun level => other ?_
      change (⟨line.slope, line.intercept⟩ : Trend Rat)
        = ⟨(ofDeviations points).slope, (ofDeviations points).intercept⟩
      rw [same, level]
    rw [same, sub_self]
    have : 0 < points.length * ((centre points).2 - line.value (centre points).1) ^ 2 := by
      positivity
    linarith
  · have apart : line.slope - (ofDeviations points).slope ≠ 0 := sub_ne_zero.mpr same
    have :
        0 < comoment Prod.fst Prod.fst points * (line.slope - (ofDeviations points).slope) ^ 2 := by
      positivity
    have : 0 ≤ points.length * ((centre points).2 - line.value (centre points).1) ^ 2 := by
      positivity
    linarith

end Fit

end Deviations

section Bars

/-- Points over the bars in given positions. -/
def overBars (points : List (Nat × Rat)) : List (Rat × Rat) :=
  points.map fun p => ((p.1 : Rat), p.2)

variable {points : List (Rat × Rat)}

theorem squares_fst_nonneg (points : List (Rat × Rat)) :
    ∀ x ∈ (deviations points).map (fun d => d.1 * d.1), 0 ≤ x := by
  intro x mem
  obtain ⟨d, -, rfl⟩ := List.mem_map.mp mem
  exact mul_self_nonneg d.1

/-- Points in one position do not spread. -/
theorem comoment_fst_eq_zero (same : ∀ p ∈ points, ∀ q ∈ points, p.1 = q.1) :
    comoment Prod.fst Prod.fst points = 0 := by
  apply List.sum_eq_zero
  intro x mem
  obtain ⟨d, listed, rfl⟩ := List.mem_map.mp mem
  obtain ⟨p, hp, rfl⟩ := List.mem_map.mp listed
  have level : points.map Prod.fst = List.replicate points.length p.1 :=
    List.map_eq_replicate_iff.mpr fun q hq => same q hq p hp
  have positive : (0 : Rat) < points.length := by
    exact_mod_cast List.length_pos_of_mem hp
  have mean : (centre points).1 = p.1 := by
    rw [centre, Rational.mean_eq, level, List.sum_replicate, List.length_replicate, nsmul_eq_mul]
    exact mul_div_cancel_left₀ _ positive.ne'
  simp only [mean, sub_self, mul_zero]

/-- Two points a bar apart spread by a quarter at least, however many others there are. -/
theorem quarter_le_comoment {p q : Rat × Rat} (hp : p ∈ points) (hq : q ∈ points)
    (apart : 1 ≤ |p.1 - q.1|) : 1 / 4 ≤ comoment Prod.fst Prod.fst points := by
  have part {r : Rat × Rat} (hr : r ∈ points) :
      (r.1 - (centre points).1) * (r.1 - (centre points).1)
        ≤ comoment Prod.fst Prod.fst points :=
    List.single_le_sum (squares_fst_nonneg points) _
      (List.mem_map.mpr ⟨_, List.mem_map.mpr ⟨r, hr, rfl⟩, rfl⟩)
  have left := part hp
  have right := part hq
  have square : 1 ≤ (p.1 - q.1) ^ 2 := sq_abs (p.1 - q.1) ▸ one_le_pow₀ apart
  nlinarith [sq_nonneg (p.1 - (centre points).1 + (q.1 - (centre points).1))]

theorem comoment_overBars_le_epsilon_iff (points : List (Nat × Rat)) :
    comoment Prod.fst Prod.fst (overBars points) ≤ Scalar.epsilon ↔
      ∀ p ∈ points, ∀ q ∈ points, p.1 = q.1 := by
  constructor
  · intro small p hp q hq
    by_contra apart
    have far : 1 ≤ |(p.1 : Rat) - q.1| := by
      have : (1 : Int) ≤ |(p.1 : Int) - q.1| := Int.one_le_abs (by omega)
      exact_mod_cast this
    have quarter : 1 / 4 ≤ comoment Prod.fst Prod.fst (overBars points) :=
      quarter_le_comoment (List.mem_map.mpr ⟨p, hp, rfl⟩) (List.mem_map.mpr ⟨q, hq, rfl⟩) far
    exact absurd small (not_le.mpr (Rational.epsilon_lt_quarter.trans_le quarter))
  · intro same
    have zero : comoment Prod.fst Prod.fst (overBars points) = 0 := by
      apply comoment_fst_eq_zero
      intro p' hp' q' hq'
      obtain ⟨p, hp, rfl⟩ := List.mem_map.mp hp'
      obtain ⟨q, hq, rfl⟩ := List.mem_map.mp hq'
      exact congrArg Nat.cast (same p hp q hq)
    rw [zero]
    exact Rational.epsilon_pos.le

end Bars

/-- Over the positions of bars there is a line of least squares unless fewer than two points are
given or all of them are over one bar. Its squares are less than those of every other line. -/
theorem fits_have_least_squares (points : List (Nat × Rat)) :
    (Fit.ofPoints? (overBars points) = none ↔
      points.length < 2 ∨ ∀ p ∈ points, ∀ q ∈ points, p.1 = q.1) ∧
    ∀ fit, Fit.ofPoints? (overBars points) = some fit → ∀ line : Trend Rat, line ≠ fit.toTrend →
      fit.squares (overBars points) < line.squares (overBars points) := by
  have count : (overBars points).length = points.length := List.length_map _
  constructor
  · rw [Fit.ofPoints?_eq_none_iff, count, comoment_overBars_le_epsilon_iff]
  · intro fit found line other
    obtain ⟨enough, spread, rfl⟩ := Fit.ofPoints?_eq_some_iff.mp found
    have nonempty : overBars points ≠ [] := List.ne_nil_of_length_pos (by omega)
    exact Fit.squares_ofDeviations_lt nonempty (Rational.epsilon_pos.trans spread) other

/-- The line keeps a quarter of the variation and leaves three halves of squares. -/
example : Fit.ofPoints? (overBars [(0, 0), (1, 2), (2, 1)]) = some ⟨⟨1 / 2, 1 / 2⟩, 1 / 4⟩ ∧
    Trend.squares ⟨1 / 2, 1 / 2⟩ (overBars [(0, 0), (1, 2), (2, 1)]) = 3 / 2 := by
  decide +kernel

end Trendline
