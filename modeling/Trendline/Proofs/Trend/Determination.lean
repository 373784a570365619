import Trendline.Proofs.Trend.LeastSquares

/-!
The goodness of fit in exact arithmetic. It is the share of the variation of some values that the
line of least squares accounts for, as long as the values vary by more than the epsilon, which is
the same for prices of every size. Values that vary by less are taken for level: every line through
them is reported as exact.
-/

namespace Trendline

variable {points : List (Rat × Rat)} {line : Trend Rat} {c : Rat}

/-- The sum of the squares of how far the values of some points lie from their average. -/
def variation (points : List (Rat × Rat)) : Rat :=
  let values := points.map Prod.snd
  (values.map fun y => (y - values.sum / values.length) ^ 2).sum

/-- The share of the variation that a line accounts for. -/
def Trend.determination (line : Trend Rat) (points : List (Rat × Rat)) : Rat :=
  1 - line.squares points / variation points

/-- The points with their values in another unit, of which `c` make one of the old. -/
def inUnit (c : Rat) (points : List (Rat × Rat)) : List (Rat × Rat) :=
  points.map fun p => (p.1, c * p.2)

section Squares

theorem variation_eq (points : List (Rat × Rat)) :
    variation points = comoment Prod.snd Prod.snd points := by
  rw [variation, comoment, deviations, centre, Rational.mean_eq (points.map Prod.snd), List.map_map,
    List.map_map]
  simp only [Function.comp_def, pow_two]

/-- The variation is what the level line through the average leaves. -/
theorem squares_level (points : List (Rat × Rat)) :
    Trend.squares ⟨0, (centre points).2⟩ points = variation points := by
  rw [variation_eq, Trend.squares, comoment, deviations, List.map_map]
  simp only [Trend.value, Function.comp_def, zero_mul, zero_add, pow_two]

theorem Trend.squares_nonneg (line : Trend Rat) (points : List (Rat × Rat)) :
    0 ≤ line.squares points := by
  apply List.sum_nonneg
  intro x mem
  obtain ⟨p, -, rfl⟩ := List.mem_map.mp mem
  exact sq_nonneg _

/-- Nothing is left just when the line meets all points. -/
theorem Trend.squares_eq_zero_iff :
    line.squares points = 0 ↔ ∀ p ∈ points, p.2 = line.value p.1 := by
  constructor
  · intro none p mem
    have part : (p.2 - line.value p.1) ^ 2 ≤ line.squares points := by
      apply List.single_le_sum _ _ (List.mem_map.mpr ⟨p, mem, rfl⟩)
      intro x listed
      obtain ⟨q, -, rfl⟩ := List.mem_map.mp listed
      exact sq_nonneg _
    rw [none] at part
    exact sub_eq_zero.mp (pow_eq_zero_iff two_ne_zero |>.mp (le_antisymm part (sq_nonneg _)))
  · intro meets
    apply List.sum_eq_zero
    intro x listed
    obtain ⟨p, mem, rfl⟩ := List.mem_map.mp listed
    rw [meets p mem, sub_self, zero_pow two_ne_zero]

theorem variation_nonneg (points : List (Rat × Rat)) : 0 ≤ variation points :=
  squares_level points ▸ Trend.squares_nonneg _ points

theorem variation_eq_zero_iff :
    variation points = 0 ↔ ∀ p ∈ points, ∀ q ∈ points, p.2 = q.2 := by
  rw [← squares_level, Trend.squares_eq_zero_iff]
  simp only [Trend.value, zero_mul, zero_add]
  constructor
  · intro level p hp q hq
    rw [level p hp, level q hq]
  · intro same p hp
    have level : points.map Prod.snd = List.replicate points.length p.2 :=
      List.map_eq_replicate_iff.mpr fun q hq => same q hq p hp
    have positive : (0 : Rat) < points.length := by
      exact_mod_cast List.length_pos_of_mem hp
    rw [centre, Rational.mean_eq (points.map Prod.snd), level, List.sum_replicate,
      List.length_replicate, nsmul_eq_mul]
    exact (mul_div_cancel_left₀ _ positive.ne').symm

end Squares

section Units

theorem centre_inUnit (c : Rat) (points : List (Rat × Rat)) :
    centre (inUnit c points) = ((centre points).1, c * (centre points).2) := by
  have values : (inUnit c points).map Prod.snd = (points.map Prod.snd).map (c * ·) := by
    rw [inUnit, List.map_map, List.map_map]
    rfl
  have places : (inUnit c points).map Prod.fst = points.map Prod.fst := by
    rw [inUnit, List.map_map]
    rfl
  have value : mean ((points.map Prod.snd).map (c * ·)) = c * mean (points.map Prod.snd) := by
    rw [Rational.mean_eq, Rational.mean_eq, List.sum_map_mul_left, List.map_id', List.length_map,
      mul_div_assoc]
  rw [centre, values, places, value]
  rfl

theorem deviations_inUnit (c : Rat) (points : List (Rat × Rat)) :
    deviations (inUnit c points) = (deviations points).map fun d => (d.1, c * d.2) := by
  rw [deviations, deviations, centre_inUnit, inUnit, List.map_map, List.map_map]
  simp only [Function.comp_def, mul_sub]

theorem comoment_inUnit (c : Rat) (points : List (Rat × Rat)) :
    comoment Prod.fst Prod.fst (inUnit c points) = comoment Prod.fst Prod.fst points ∧
      comoment Prod.fst Prod.snd (inUnit c points) = c * comoment Prod.fst Prod.snd points ∧
      comoment Prod.snd Prod.snd (inUnit c points) = c ^ 2 * comoment Prod.snd Prod.snd points := by
  simp only [comoment, deviations_inUnit, List.map_map, Function.comp_def, ← List.sum_map_mul_left]
  refine ⟨trivial, ?_, ?_⟩
  all_goals
    congr 2
    funext d
    ring

theorem variation_inUnit (c : Rat) (points : List (Rat × Rat)) :
    variation (inUnit c points) = c ^ 2 * variation points := by
  rw [variation_eq, variation_eq]
  exact (comoment_inUnit c points).2.2

/-- The line of least squares follows its points into the other unit. -/
theorem Fit.ofDeviations_inUnit (c : Rat) (points : List (Rat × Rat)) :
    (ofDeviations (inUnit c points)).toTrend
      = ⟨c * (ofDeviations points).slope, c * (ofDeviations points).intercept⟩ := by
  obtain ⟨fstFst, fstSnd, -⟩ := comoment_inUnit c points
  simp only [ofDeviations, fstFst, fstSnd, centre_inUnit, Trend.mk.injEq]
  constructor <;> ring

theorem Trend.squares_inUnit (line : Trend Rat) (c : Rat) (points : List (Rat × Rat)) :
    squares ⟨c * line.slope, c * line.intercept⟩ (inUnit c points)
      = c ^ 2 * line.squares points := by
  rw [squares, inUnit, List.map_map, squares, ← List.sum_map_mul_left]
  congr 2
  funext p
  simp only [value, Function.comp]
  ring

end Units

namespace Fit

/-- The line of least squares leaves no more than the level line does. -/
theorem squares_ofDeviations_le (nonempty : points ≠ [])
    (spread : 0 < comoment Prod.fst Prod.fst points) :
    (ofDeviations points).squares points ≤ variation points := by
  rw [← squares_level]
  by_cases other : (⟨0, (centre points).2⟩ : Trend Rat) = (ofDeviations points).toTrend
  · rw [other]
  · exact (squares_ofDeviations_lt nonempty spread other).le

theorem determination_mem (nonempty : points ≠ [])
    (spread : 0 < comoment Prod.fst Prod.fst points) :
    (ofDeviations points).determination points ∈ Set.Icc 0 1 := by
  have least := (ofDeviations points).squares_nonneg points
  have most := squares_ofDeviations_le nonempty spread
  rw [Trend.determination, Set.mem_Icc, sub_nonneg, sub_le_self_iff]
  exact ⟨div_le_one_of_le₀ most (variation_nonneg points),
    div_nonneg least (variation_nonneg points)⟩

/-- What is reported: the share of the variation, or one where that is within the epsilon. -/
theorem rSquared_ofDeviations (nonempty : points ≠ [])
    (spread : 0 < comoment Prod.fst Prod.fst points) :
    (ofDeviations points).rSquared
      = if variation points ≤ Scalar.epsilon then 1
        else (ofDeviations points).determination points := by
  have inside := determination_mem nonempty spread
  rw [variation_eq]
  change (if comoment Prod.snd Prod.snd points ≤ Scalar.epsilon then (1 : Rat) else
    Scalar.clamp 0 1 (1 - (ofDeviations points).squares points
      / comoment Prod.snd Prod.snd points)) = _
  rw [← variation_eq]
  change (if _ then (1 : Rat)
    else Scalar.clamp 0 1 ((ofDeviations points).determination points)) = _
  rw [Scalar.clamp, if_neg (not_lt.mpr inside.1), if_neg (not_lt.mpr inside.2)]

end Fit

theorem Trend.determination_eq_one_iff (varied : variation points ≠ 0) :
    line.determination points = 1 ↔ ∀ p ∈ points, p.2 = line.value p.1 := by
  rw [determination, sub_eq_self, div_eq_zero_iff, or_iff_left varied, squares_eq_zero_iff]

namespace Fit

/-- The share of the variation is reported just where the variation exceeds the epsilon, and where
the line meets all points. -/
theorem rSquared_eq_determination_iff (nonempty : points ≠ [])
    (spread : 0 < comoment Prod.fst Prod.fst points) (varied : variation points ≠ 0) :
    (ofDeviations points).rSquared = (ofDeviations points).determination points ↔
      Scalar.epsilon < variation points ∨
        ∀ p ∈ points, p.2 = (ofDeviations points).value p.1 := by
  rw [rSquared_ofDeviations nonempty spread, ← Trend.determination_eq_one_iff varied, ← not_le]
  split_ifs with small
  · exact ⟨fun one => .inr one.symm, fun either => (either.resolve_left (not_not_intro small)).symm⟩
  · exact iff_of_true rfl (.inl small)

/-- In another unit the same is reported just where the variation stays on its side of the epsilon,
and where the line meets all points. -/
theorem rSquared_inUnit_iff (nonempty : points ≠ [])
    (spread : 0 < comoment Prod.fst Prod.fst points) (positive : 0 < c) :
    (ofDeviations (inUnit c points)).rSquared = (ofDeviations points).rSquared ↔
      (∀ p ∈ points, p.2 = (ofDeviations points).value p.1) ∨
        (Scalar.epsilon < variation points ↔ Scalar.epsilon < c ^ 2 * variation points) := by
  have moved : inUnit c points ≠ [] := by simpa [inUnit] using nonempty
  have wide : 0 < comoment Prod.fst Prod.fst (inUnit c points) := by
    rwa [(comoment_inUnit c points).1]
  have square : c ^ 2 ≠ 0 := pow_ne_zero 2 positive.ne'
  have share : (ofDeviations (inUnit c points)).determination (inUnit c points)
      = (ofDeviations points).determination points := by
    rw [Trend.determination, ofDeviations_inUnit, Trend.squares_inUnit, variation_inUnit,
      mul_div_mul_left _ _ square, Trend.determination]
  have one (varied : Scalar.epsilon < variation points ∨
      Scalar.epsilon < c ^ 2 * variation points) :
      (ofDeviations points).determination points = 1 ↔
        ∀ p ∈ points, p.2 = (ofDeviations points).value p.1 := by
    apply Trend.determination_eq_one_iff
    intro none
    rw [none, mul_zero, or_self] at varied
    exact not_lt.mpr Rational.epsilon_pos.le varied
  rw [rSquared_ofDeviations moved wide, rSquared_ofDeviations nonempty spread, share,
    variation_inUnit]
  split_ifs with smallMoved small small
  · exact iff_of_true rfl (.inr (iff_of_false (not_lt.mpr small) (not_lt.mpr smallMoved)))
  · rw [eq_comm, one (.inl (not_le.mp small))]
    simp [not_le.mp small, smallMoved]
  · rw [one (.inr (not_le.mp smallMoved))]
    simp [small, not_le.mp smallMoved]
  · exact iff_of_true rfl (.inr (iff_of_true (not_le.mp small) (not_le.mp smallMoved)))

end Fit

/-- Points over different bars spread. -/
theorem exists_fit_overBars {points : List (Nat × Rat)}
    (spread : ∃ p ∈ points, ∃ q ∈ points, p.1 ≠ q.1) :
    overBars points ≠ [] ∧ 0 < comoment Prod.fst Prod.fst (overBars points) ∧
      Fit.ofPoints? (overBars points) = some (Fit.ofDeviations (overBars points)) := by
  obtain ⟨p, hp, q, hq, apart⟩ := spread
  have enough : 2 ≤ (overBars points).length := by
    rw [overBars, List.length_map]
    by_contra few
    obtain ⟨r, rfl⟩ := List.length_eq_one_iff.mp
      (Nat.le_antisymm (by omega) (List.length_pos_of_mem hp))
    rw [List.mem_singleton.mp hp, List.mem_singleton.mp hq] at apart
    exact apart rfl
  have wide : Scalar.epsilon < comoment Prod.fst Prod.fst (overBars points) := by
    rw [← not_le, comoment_overBars_le_epsilon_iff]
    exact fun same => apart (same p hp q hq)
  exact ⟨List.ne_nil_of_length_pos (by omega), Rational.epsilon_pos.trans wide,
    Fit.ofPoints?_eq_some_iff.mpr ⟨enough, wide, rfl⟩⟩

/-- Level values are reported as met in full. Of values that vary, the share of the variation that
the line accounts for is reported wherever the variation exceeds the epsilon; below that, one. So a
change of the unit leaves the report as it is, unless it takes the variation past the epsilon. -/
theorem fits_report_determination {points : List (Nat × Rat)}
    (spread : ∃ p ∈ points, ∃ q ∈ points, p.1 ≠ q.1) :
    ∃ fit, Fit.ofPoints? (overBars points) = some fit ∧
      ((∀ p ∈ points, ∀ q ∈ points, p.2 = q.2) → fit.rSquared = 1) ∧
      ((∃ p ∈ points, ∃ q ∈ points, p.2 ≠ q.2) →
        fit.determination (overBars points) ∈ Set.Icc 0 1 ∧
        (fit.determination (overBars points) = 1 ↔ ∀ p ∈ points, p.2 = fit.value p.1) ∧
        fit.rSquared = (if variation (overBars points) ≤ Scalar.epsilon then 1
          else fit.determination (overBars points)) ∧
        (fit.rSquared = fit.determination (overBars points) ↔
          Scalar.epsilon < variation (overBars points) ∨ ∀ p ∈ points, p.2 = fit.value p.1)) ∧
      ∀ c, 0 < c → ∃ moved, Fit.ofPoints? (inUnit c (overBars points)) = some moved ∧
        (moved.rSquared = fit.rSquared ↔
          (∀ p ∈ points, p.2 = fit.value p.1) ∨
            (Scalar.epsilon < variation (overBars points) ↔
              Scalar.epsilon < c ^ 2 * variation (overBars points))) := by
  obtain ⟨nonempty, wide, found⟩ := exists_fit_overBars spread
  have meets : (∀ p ∈ overBars points, p.2 = (Fit.ofDeviations (overBars points)).value p.1) ↔
      ∀ p ∈ points, p.2 = (Fit.ofDeviations (overBars points)).value p.1 := List.forall_mem_map
  have level : variation (overBars points) = 0 ↔ ∀ p ∈ points, ∀ q ∈ points, p.2 = q.2 := by
    rw [variation_eq_zero_iff]
    simp only [overBars, List.forall_mem_map]
  refine ⟨_, found, fun same => ?_, fun other => ?_, fun c positive => ?_⟩
  · rw [Fit.rSquared_ofDeviations nonempty wide, level.mpr same, if_pos Rational.epsilon_pos.le]
  · have varied : variation (overBars points) ≠ 0 := by
      obtain ⟨p, hp, q, hq, apart⟩ := other
      exact fun none => apart (level.mp none p hp q hq)
    rw [← meets]
    exact ⟨Fit.determination_mem nonempty wide, Trend.determination_eq_one_iff varied,
      Fit.rSquared_ofDeviations nonempty wide,
      Fit.rSquared_eq_determination_iff nonempty wide varied⟩
  · have moved : overBars (points.map fun p => (p.1, c * p.2)) = inUnit c (overBars points) := by
      rw [overBars, inUnit, overBars, List.map_map, List.map_map]
      rfl
    have again : ∃ p ∈ points.map fun p => (p.1, c * p.2), ∃ q ∈ points.map fun p => (p.1, c * p.2),
        p.1 ≠ q.1 := by simpa using spread
    rw [← meets]
    refine ⟨_, moved ▸ (exists_fit_overBars again).2.2, ?_⟩
    exact Fit.rSquared_inUnit_iff nonempty wide positive

/-- Three prices over three bars, of which a line accounts for a quarter. -/
def threePrices : List (Nat × Rat) :=
  [(0, 0), (1, 2), (2, 1)]

theorem fits_report_determination_quarter :
    (∃ p ∈ threePrices, ∃ q ∈ threePrices, p.1 ≠ q.1) ∧
    (Fit.ofPoints? (overBars threePrices) = some ⟨⟨1 / 2, 1 / 2⟩, 1 / 4⟩ ∧
      Trend.determination ⟨1 / 2, 1 / 2⟩ (overBars threePrices) = 1 / 4 ∧
      variation (overBars threePrices) = 2) ∧
    ∃ fit, Fit.ofPoints? (overBars threePrices) = some fit ∧
      ((∀ p ∈ threePrices, ∀ q ∈ threePrices, p.2 = q.2) → fit.rSquared = 1) ∧
      ((∃ p ∈ threePrices, ∃ q ∈ threePrices, p.2 ≠ q.2) →
        fit.determination (overBars threePrices) ∈ Set.Icc 0 1 ∧
        (fit.determination (overBars threePrices) = 1 ↔
          ∀ p ∈ threePrices, p.2 = fit.value p.1) ∧
        fit.rSquared = (if variation (overBars threePrices) ≤ Scalar.epsilon then 1
          else fit.determination (overBars threePrices)) ∧
        (fit.rSquared = fit.determination (overBars threePrices) ↔
          Scalar.epsilon < variation (overBars threePrices) ∨
            ∀ p ∈ threePrices, p.2 = fit.value p.1)) ∧
      ∀ c, 0 < c → ∃ moved, Fit.ofPoints? (inUnit c (overBars threePrices)) = some moved ∧
        (moved.rSquared = fit.rSquared ↔
          (∀ p ∈ threePrices, p.2 = fit.value p.1) ∨
            (Scalar.epsilon < variation (overBars threePrices) ↔
              Scalar.epsilon < c ^ 2 * variation (overBars threePrices))) :=
  ⟨⟨(0, 0), by decide, (1, 2), by decide, by decide⟩, by decide +kernel,
    fits_report_determination ⟨(0, 0), by decide, (1, 2), by decide, by decide⟩⟩

/-- The same prices in a unit that is a billion times as large. -/
def smallPrices : List (Nat × Rat) :=
  [(0, 0), (1, 2 / 10 ^ 9), (2, 1 / 10 ^ 9)]

/-- In the larger unit their line is reported as exact, although it leaves three quarters of the
variation as before. -/
theorem fit_of_small_prices_is_exact :
    (¬ ∀ points : List (Nat × Rat), (∃ p ∈ points, ∃ q ∈ points, p.1 ≠ q.1) →
      (∃ p ∈ points, ∃ q ∈ points, p.2 ≠ q.2) →
      ∀ fit, Fit.ofPoints? (overBars points) = some fit →
        fit.rSquared = fit.determination (overBars points) ∧
        (fit.rSquared = 1 → ∀ p ∈ points, p.2 = fit.value p.1)) ∧
    (¬ ∀ points : List (Nat × Rat), (∃ p ∈ points, ∃ q ∈ points, p.1 ≠ q.1) → ∀ c, 0 < c →
      ∀ fit moved, Fit.ofPoints? (overBars points) = some fit →
        Fit.ofPoints? (inUnit c (overBars points)) = some moved →
        moved.rSquared = fit.rSquared) ∧
    Fit.ofPoints? [((0 : Float), (0 : Float)), (1, 2e-9), (2, 1e-9)]
      = some ⟨⟨5e-10, 5e-10⟩, 1⟩ := by
  have spread : ∃ p ∈ smallPrices, ∃ q ∈ smallPrices, p.1 ≠ q.1 :=
    ⟨(0, 0), by decide, (1, 2 / 10 ^ 9), by decide +kernel, by decide⟩
  have found : Fit.ofPoints? (overBars smallPrices)
      = some ⟨⟨1 / (2 * 10 ^ 9), 1 / (2 * 10 ^ 9)⟩, 1⟩ := by decide +kernel
  refine ⟨fun claim => ?_, fun claim => ?_, by decide +kernel⟩
  · have varied : ∃ p ∈ smallPrices, ∃ q ∈ smallPrices, p.2 ≠ q.2 :=
      ⟨(0, 0), by decide, (1, 2 / 10 ^ 9), by decide +kernel, by decide +kernel⟩
    have exact := (claim _ spread varied _ found).2 rfl (0, 0) (by decide)
    exact absurd exact (by decide +kernel)
  · have moved : Fit.ofPoints? (inUnit (10 ^ 9) (overBars smallPrices))
        = some ⟨⟨1 / 2, 1 / 2⟩, 1 / 4⟩ := by decide +kernel
    have same := claim _ spread (10 ^ 9) (by decide +kernel) _ _ found moved
    exact absurd same (by decide +kernel)

end Trendline
