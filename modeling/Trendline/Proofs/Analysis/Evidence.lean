import Trendline.Proofs.Analysis.Anchors
import Trendline.Proofs.Analysis.Overlays
import Trendline.Proofs.Analysis.Scores

/-!
What a score weighs, in exact arithmetic. Every part of it lies between zero and one, and none gets
worse as the evidence for a line gets better: a better fit, more bars that touch it, fewer that break
it. So the score does not fall either, and the line keeps its rank.
-/

namespace Trendline

namespace Rational

theorem atMost_one_mem {x : Rat} (nonneg : 0 ≤ x) : Scalar.atMost 1 x ∈ Set.Icc (0 : Rat) 1 := by
  rw [atMost_eq_min]
  exact ⟨le_min zero_le_one nonneg, min_le_left 1 x⟩

theorem atMost_one_mono {x y : Rat} (le : x ≤ y) : Scalar.atMost 1 x ≤ Scalar.atMost 1 y := by
  rw [atMost_eq_min, atMost_eq_min]
  exact min_le_min_left 1 le

theorem relativeDistance_nonneg (price reference : Rat) :
    0 ≤ Scalar.relativeDistance price reference := by
  rw [Scalar.relativeDistance, atLeast_eq_max, abs_eq_abs]
  exact div_nonneg (abs_nonneg _) (epsilon_pos.le.trans (le_max_left _ _))

end Rational

open Rational

/-- The weights of a score count for or against a line as they should. -/
structure Scoring.Proper (scoring : Scoring Rat) : Prop where
  rSquared : 0 ≤ scoring.rSquaredWeight
  touches : 0 ≤ scoring.touchesWeight
  recency : 0 ≤ scoring.recencyWeight
  violation : 0 ≤ scoring.violationWeight
  proximity : 0 ≤ scoring.proximityWeight
  norm : 0 < scoring.touchNorm

theorem Params.WellFormed.proper {p : Params Rat} (wf : p.WellFormed) : p.scoring.Proper := by
  have nonneg {w : Rat} (mem : w ∈ [p.scoring.rSquaredWeight, p.scoring.touchesWeight,
      p.scoring.recencyWeight, p.scoring.violationWeight, p.scoring.proximityWeight]) : 0 ≤ w :=
    not_lt.mp (wf.weights w mem).2
  exact ⟨nonneg (by simp), nonneg (by simp), nonneg (by simp), nonneg (by simp), nonneg (by simp),
    not_le.mp wf.touchNorm.2⟩

/-- The first cluster is the same line as the second with at least as much evidence: its fit is no
worse, bars that touch the second touch it too, and no more break it. -/
structure Cluster.ImprovesOn (d c : Cluster Rat) : Prop where
  slope : d.slope = c.slope
  intercept : d.intercept = c.intercept
  start : d.start = c.start
  members : d.members = c.members
  lookback : d.lookback = c.lookback
  rSquared : c.rSquared ≤ d.rSquared
  touches : ∀ t ∈ c.touches, t ∈ d.touches
  violations : d.violations ≤ c.violations

variable {s : Series Rat} {p : Params Rat} {scoring : Scoring Rat} {c d : Cluster Rat} {i j : Nat}

theorem Cluster.ImprovesOn.touchCount_le (better : d.ImprovesOn c) : c.touchCount ≤ d.touchCount :=
  Ascending.size_le_size better.touches

/-- How far along the series a position lies; a single bar is the last. -/
def Series.progress (s : Series Rat) (i : Nat) : Rat :=
  if s.lastIndex = 0 then 1 else (i : Rat) / (s.lastIndex : Rat)

namespace Series

theorem progress_mem (inside : i ≤ s.lastIndex) : s.progress i ∈ Set.Icc (0 : Rat) 1 := by
  rw [progress]
  split_ifs
  · exact ⟨zero_le_one, le_rfl⟩
  · exact ⟨by positivity, div_le_one_of_le₀ (Nat.cast_le.mpr inside) (Nat.cast_nonneg _)⟩

theorem progress_mono (s : Series Rat) (le : i ≤ j) : s.progress i ≤ s.progress j := by
  rw [progress, progress]
  split_ifs
  · exact le_rfl
  · exact div_le_div_of_nonneg_right (Nat.cast_le.mpr le) (Nat.cast_nonneg _)

end Series

namespace Scoring

theorem recency_eq_progress (found : c.lastTouch?.bind s.indexOf? = some i) :
    recency s c = s.progress i := by
  rw [recency, found, Series.progress]

theorem recency_of_lastTouch (wf : s.WellFormed) {t : Int} (found : c.lastTouch? = some t)
    (entry : s.times[i]? = some t) : recency s c = s.progress i := by
  apply recency_eq_progress
  rw [found]
  exact (Series.indexOf?_eq_some_iff wf.ascending).mpr entry

theorem recency_eq_zero (absent : c.lastTouch?.bind s.indexOf? = none) : recency s c = 0 := by
  rw [recency, absent]

/-! What is weighed lies between zero and one -/

theorem touchTerm_mem (proper : scoring.Proper) (c : Cluster Rat) :
    scoring.touchTerm c ∈ Set.Icc (0 : Rat) 1 := by
  apply atMost_one_mem
  exact div_nonneg (Nat.cast_nonneg c.touchCount) proper.norm.le

theorem recency_mem (wf : s.WellFormed) (c : Cluster Rat) : recency s c ∈ Set.Icc (0 : Rat) 1 := by
  cases found : c.lastTouch?.bind s.indexOf? with
  | none =>
      rw [recency_eq_zero found]
      exact ⟨le_rfl, zero_le_one⟩
  | some i =>
      obtain ⟨last, -, entry⟩ := Option.bind_eq_some_iff.mp found
      have bar := (Series.indexOf?_eq_some_iff wf.ascending).mp entry
      obtain ⟨inside, -⟩ := Array.getElem?_eq_some_iff.mp bar
      rw [recency_eq_progress found]
      exact Series.progress_mem (Nat.le_sub_one_of_lt inside)

theorem violationRatio_mem (s : Series Rat) (c : Cluster Rat) :
    violationRatio s c ∈ Set.Icc (0 : Rat) 1 := by
  apply atMost_one_mem
  exact div_nonneg (Nat.cast_nonneg _) (Nat.cast_nonneg _)

theorem distance_mem (s : Series Rat) (c : Cluster Rat) : distance s c ∈ Set.Icc (0 : Rat) 1 := by
  rw [distance]
  cases s.lastClose? with
  | none => exact ⟨le_rfl, zero_le_one⟩
  | some close => exact atMost_one_mem (relativeDistance_nonneg _ _)

section Improvement

/-! Better evidence weighs no less, and the score grows with it, part by part -/

variable (better : d.ImprovesOn c)

include better

theorem violationRatio_anti (s : Series Rat) : violationRatio s d ≤ violationRatio s c := by
  rw [violationRatio, violationRatio, better.start, better.members]
  apply atMost_one_mono
  exact div_le_div_of_nonneg_right (Nat.cast_le.mpr better.violations) (Nat.cast_nonneg _)

theorem distance_eq (s : Series Rat) : distance s d = distance s c := by
  have level : d.atBar s.lastIndex = c.atBar s.lastIndex := by
    rw [Trend.atBar, Trend.atBar, Trend.value, Trend.value, better.slope, better.intercept]
  rw [distance, distance, level]

theorem touchTerm_mono (proper : scoring.Proper) : scoring.touchTerm c ≤ scoring.touchTerm d := by
  apply atMost_one_mono
  exact div_le_div_of_nonneg_right (Nat.cast_le.mpr better.touchCount_le) proper.norm.le

theorem scoreToTouches_mono (proper : scoring.Proper) :
    scoring.scoreToTouches c ≤ scoring.scoreToTouches d :=
  add_le_add (mul_le_mul_of_nonneg_left better.rSquared proper.rSquared)
    (mul_le_mul_of_nonneg_left (touchTerm_mono better proper) proper.touches)

variable (wf : s.WellFormed) (bars : ∀ t ∈ d.touches, t ∈ s.times)

include wf bars

/-- The last of more touches is no earlier bar. -/
theorem recency_mono : recency s c ≤ recency s d := by
  cases last : c.lastTouch? with
  | none =>
      rw [recency_eq_zero (by rw [last]; rfl)]
      exact (recency_mem wf d).1
  | some t =>
      obtain ⟨touched, -⟩ := Ascending.greatest?_eq_some_iff.mp last
      have mem := better.touches t touched
      obtain ⟨-, u, -, later⟩ := Ascending.exists_ends (List.length_pos_of_mem mem)
      obtain ⟨touched', greatest⟩ := Ascending.greatest?_eq_some_iff.mp later
      obtain ⟨i, hi⟩ := Array.mem_iff_getElem?.mp (bars t mem)
      obtain ⟨j, hj⟩ := Array.mem_iff_getElem?.mp (bars u touched')
      have le : i ≤ j := by
        have notBefore := mt (Series.time_lt_iff wf.ascending hj hi).mpr
        exact Nat.not_lt.mp (notBefore (Int.not_lt.mpr (greatest t mem)))
      rw [recency_of_lastTouch wf last hi, recency_of_lastTouch wf later hj]
      exact s.progress_mono le

variable (proper : scoring.Proper)

include proper

theorem scoreToRecency_mono : scoring.scoreToRecency s c ≤ scoring.scoreToRecency s d :=
  add_le_add (scoreToTouches_mono better proper)
    (mul_le_mul_of_nonneg_left (recency_mono better wf bars) proper.recency)

theorem scoreToViolations_mono : scoring.scoreToViolations s c ≤ scoring.scoreToViolations s d :=
  sub_le_sub (scoreToRecency_mono better wf bars proper)
    (mul_le_mul_of_nonneg_left (violationRatio_anti better s) proper.violation)

theorem scoreToDistance_mono : scoring.scoreToDistance s c ≤ scoring.scoreToDistance s d := by
  rw [scoreToDistance, scoreToDistance, distance_eq better s]
  exact sub_le_sub_right (scoreToViolations_mono better wf bars proper) _

theorem score_mono : scoring.score s c ≤ scoring.score s d := by
  rw [score, score]
  cases scoring.mode with
  | rSquared => exact better.rSquared
  | weighted => exact scoreToDistance_mono better wf bars proper

end Improvement

/-- Exact numbers are numbers, and so are the scores made of them. -/
theorem isInvalid_eq_false (scoring : Scoring Rat) (s : Series Rat) (c : Cluster Rat) :
    scoring.isInvalid s c = false := by
  apply isInvalid_of_stages
  intro stage _
  simp [Scalar.isNumber]

end Scoring

/-- A cluster with no lower score ranks no lower, if its touches and its lookback are no worse. -/
theorem Cluster.rankOrder_assignScore_ne_gt (score : scoring.score s c ≤ scoring.score s d)
    (touches : c.touchCount ≤ d.touchCount) (lookback : d.lookback ≤ c.lookback) :
    (d.assignScore scoring s).rankOrder (c.assignScore scoring s) ≠ .gt := by
  have valid : compare (d.assignScore scoring s).invalid (c.assignScore scoring s).invalid = .eq := by
    rw [assignScore, assignScore, Scoring.isInvalid_eq_false, Scoring.isInvalid_eq_false]
    rfl
  rw [rankOrder, valid, Ordering.eq_then]
  simp only [ne_eq, Ordering.then_eq_gt, not_or, not_and]
  exact ⟨order_ne_gt_iff.mpr score, fun _ => ⟨Nat.compare_ne_gt.mpr touches,
    fun _ => Nat.compare_ne_gt.mpr lookback⟩⟩

/-- A line with better evidence neither scores nor ranks below the same line with less. -/
theorem better_evidence_ranks_no_lower (valid : s.validate = .ok ())
    (inRange : p.validate = .ok ()) (better : d.ImprovesOn c)
    (bars : ∀ t ∈ d.touches, t ∈ s.times) :
    p.scoring.score s c ≤ p.scoring.score s d ∧
      (d.assignScore p.scoring s).rankOrder (c.assignScore p.scoring s) ≠ .gt := by
  have hs := Series.validate_eq_ok_iff.mp valid
  have hp := Params.validate_eq_ok_iff.mp inRange
  have score := Scoring.score_mono better hs bars hp.proper
  exact ⟨score, Cluster.rankOrder_assignScore_ne_gt score better.touchCount_le better.lookback.le⟩

/-- The line along the bottoms of the rising zigzag, by what is found along it. -/
def alongBottoms (rSquared : Rat) (touches : Ascending Int) (violations : Nat) : Cluster Rat where
  slope := 1 / 4
  intercept := 1 / 4
  rSquared
  touches
  violations
  lookback := 1
  lookbacks := .singleton 1
  side := .low
  members := 1
  start := 1
  score := 0

def touchedOnce : Cluster Rat :=
  alongBottoms (1 / 2) (.singleton 60) 1

def touchedTwice : Cluster Rat :=
  alongBottoms 1 ⟨[60, 300], by decide⟩ 0

theorem touchedTwice_improvesOn : touchedTwice.ImprovesOn touchedOnce where
  slope := rfl
  intercept := rfl
  start := rfl
  members := rfl
  lookback := rfl
  rSquared := by decide +kernel
  touches := fun _ mem => List.mem_singleton.mp mem ▸ List.mem_cons_self
  violations := by decide

/-- Two touches, a full fit and no break weigh more than one touch, half a fit and a break. -/
theorem better_evidence_ranks_no_lower_rising :
    (exactRising.validate = .ok () ∧ exactParams.validate = .ok () ∧
      touchedTwice.ImprovesOn touchedOnce ∧ ∀ t ∈ touchedTwice.touches, t ∈ exactRising.times) ∧
    (exactParams.scoring.score exactRising touchedOnce = 81 / 400 ∧
      exactParams.scoring.score exactRising touchedTwice = 121 / 200) ∧
    exactParams.scoring.score exactRising touchedOnce
        ≤ exactParams.scoring.score exactRising touchedTwice ∧
      (touchedTwice.assignScore exactParams.scoring exactRising).rankOrder
        (touchedOnce.assignScore exactParams.scoring exactRising) ≠ .gt :=
  have bars : ∀ t ∈ [(60 : Int), 300], t ∈ exactRising.times := by decide +kernel
  ⟨⟨by decide +kernel, by decide +kernel, touchedTwice_improvesOn, bars⟩, by decide +kernel,
    better_evidence_ranks_no_lower (by decide +kernel) (by decide +kernel) touchedTwice_improvesOn
      bars⟩

end Trendline
