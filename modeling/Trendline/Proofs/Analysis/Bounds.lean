import Trendline.Proofs.Analysis.Evidence
import Trendline.Proofs.Analysis.Selection
import Trendline.Proofs.Trend.LeastSquares

/-!
The range of the scores, in exact arithmetic. A line accounts for a share of the variation along it,
a cluster for the average share of its lines; so scores lie between the sums of the weights that
count against and for a line. A least score beyond that range leaves nothing, one before it all.
-/

namespace Trendline

open Rational

section Shares

theorem Fit.rSquared_mem {points : List (Rat × Rat)} {fit : Fit Rat}
    (found : Fit.ofPoints? points = some fit) : fit.rSquared ∈ Set.Icc (0 : Rat) 1 := by
  obtain ⟨-, -, rfl⟩ := Fit.ofPoints?_eq_some_iff.mp found
  rw [ofDeviations]
  dsimp only
  split_ifs
  · exact ⟨zero_le_one, le_rfl⟩
  · exact clamp_mem zero_le_one _

variable {s : Series Rat} {p : Params Rat} {line : Line Rat} {lookback : Nat}

theorem PairOptions.rSquared_mem_of_line? {q r : Pivot Rat}
    (found : line? lookback q r = some line) : line.rSquared ∈ Set.Icc (0 : Rat) 1 := by
  unfold line? at found
  split at found
  obtain ⟨fit, fitted, rfl⟩ := Option.map_eq_some_iff.mp found
  exact Fit.rSquared_mem fitted

theorem Line.rSquared_mem_of_touchFit? {reference : Reference} {share : Rat}
    (found : line.touchFit? s reference = some share) : share ∈ Set.Icc (0 : Rat) 1 := by
  obtain ⟨fit, fitted, rfl⟩ := Option.map_eq_some_iff.mp found
  exact Fit.rSquared_mem fitted

/-- Where no fit can be measured over the touches, that of the two swings stays. -/
theorem Line.rSquared_measure_mem (options : TouchOptions Rat) (bars : List (Bar Rat))
    (drawn : line.rSquared ∈ Set.Icc (0 : Rat) 1) :
    (measure options s bars line).rSquared ∈ Set.Icc (0 : Rat) 1 := by
  rw [measure]
  split_ifs
  · dsimp only
    cases found : touchFit? _ s options.reference with
    | none => exact drawn
    | some share => exact rSquared_mem_of_touchFit? found
  · exact drawn

theorem Series.rSquared_mem_of_mem_keptLines (mem : line ∈ s.keptLines p lookback) :
    line.rSquared ∈ Set.Icc (0 : Rat) 1 := by
  obtain ⟨drawn, listed, rfl, -⟩ := mem_keptLines_iff.mp mem
  obtain ⟨side, listed⟩ := mem_drawnLines_iff.mp listed
  obtain ⟨q, r, -, -, found⟩ := PairOptions.mem_lines_iff.mp listed
  exact Line.rSquared_measure_mem _ _ (PairOptions.rSquared_mem_of_line? found)

theorem Series.rSquared_mem_of_mem_foundClusters {c : Cluster Rat} (mem : c ∈ s.foundClusters p) :
    c.rSquared ∈ Set.Icc (0 : Rat) 1 := by
  simp only [foundClusters, Cluster.ofLines, List.mem_map, exists_exists_and_eq_and] at mem
  obtain ⟨g, listed, rfl⟩ := mem
  apply Group.meanOf_mem
  intro line joined
  obtain ⟨l, -, kept⟩ := mem_allLines_iff.mp ((Group.lines_sublist listed).subset joined)
  exact rSquared_mem_of_mem_keptLines kept

end Shares

namespace Scoring

variable {s : Series Rat} {scoring : Scoring Rat} {c : Cluster Rat}

/-- The score with nothing for a line and everything against it. -/
def leastScore (scoring : Scoring Rat) : Rat :=
  match scoring.mode with
  | .rSquared => 0
  | .weighted => -(scoring.violationWeight + scoring.proximityWeight)

/-- The score with everything for a line and nothing against it. -/
def greatestScore (scoring : Scoring Rat) : Rat :=
  match scoring.mode with
  | .rSquared => 1
  | .weighted => scoring.rSquaredWeight + scoring.touchesWeight + scoring.recencyWeight

theorem weighed_mem {weight x : Rat} (nonneg : 0 ≤ weight) (inside : x ∈ Set.Icc (0 : Rat) 1) :
    weight * x ∈ Set.Icc 0 weight :=
  ⟨mul_nonneg nonneg inside.1, mul_le_of_le_one_right nonneg inside.2⟩

theorem scoreToRecency_mem (proper : scoring.Proper) (wf : s.WellFormed)
    (share : c.rSquared ∈ Set.Icc (0 : Rat) 1) :
    scoring.scoreToRecency s c ∈ Set.Icc (0 : Rat)
      (scoring.rSquaredWeight + scoring.touchesWeight + scoring.recencyWeight) := by
  have fit := weighed_mem proper.rSquared share
  have touches := weighed_mem proper.touches (touchTerm_mem proper c)
  have recency := weighed_mem proper.recency (recency_mem wf c)
  constructor
  · exact add_nonneg (add_nonneg fit.1 touches.1) recency.1
  · exact add_le_add (add_le_add fit.2 touches.2) recency.2

theorem score_mem (proper : scoring.Proper) (wf : s.WellFormed)
    (share : c.rSquared ∈ Set.Icc (0 : Rat) 1) :
    scoring.score s c ∈ Set.Icc scoring.leastScore scoring.greatestScore := by
  rw [score, leastScore, greatestScore]
  cases scoring.mode with
  | rSquared => exact share
  | weighted =>
      have gained := scoreToRecency_mem proper wf share
      have violations := weighed_mem proper.violation (violationRatio_mem s c)
      have distance := weighed_mem proper.proximity (distance_mem s c)
      dsimp only
      rw [scoreToDistance, scoreToViolations, sub_sub]
      constructor
      · rw [neg_eq_zero_sub]
        exact sub_le_sub gained.1 (add_le_add violations.2 distance.2)
      · exact (sub_le_self _ (add_nonneg violations.1 distance.1)).trans gained.2

end Scoring

namespace Cluster

variable {minScore : Rat} {clusters : List (Cluster Rat)}

theorem select_eq_nil (below : ∀ c ∈ clusters, c.score < minScore) (topN : Option Nat) :
    select (some minScore) topN clusters = [] := by
  have none : clusters.filter (fun c => (some minScore).all (· ≤ c.score)) = [] :=
    List.filter_eq_nil_iff.mpr fun c mem => by simpa using below c mem
  simp only [select, none, List.mergeSort_nil]
  cases topN with
  | none => rfl
  | some n => exact List.take_nil

/-- A least score that all clusters have is none. -/
theorem select_some_eq (above : ∀ c ∈ clusters, minScore ≤ c.score) (topN : Option Nat) :
    select (some minScore) topN clusters = select none topN clusters := by
  have all : clusters.filter (fun c => (some minScore).all (· ≤ c.score))
      = clusters.filter fun c => (none : Option Rat).all (· ≤ c.score) :=
    List.filter_congr fun c mem => decide_eq_true (above c mem)
  simp only [select, all]

end Cluster

namespace Series

variable {s : Series Rat} {p : Params Rat}

theorem score_mem_of_mem_foundClusters (hs : s.WellFormed) (hp : p.WellFormed) {c : Cluster Rat}
    (mem : c ∈ s.foundClusters p) :
    c.score ∈ Set.Icc p.scoring.leastScore p.scoring.greatestScore := by
  have share := rSquared_mem_of_mem_foundClusters mem
  obtain ⟨d, -, rfl⟩ := List.mem_map.mp mem
  exact Scoring.score_mem hp.proper hs share

/-- The choice is made among the same clusters. -/
theorem analyze_choosing (hs : s.WellFormed) (hp : p.WellFormed) (minScore : Option Rat)
    (topN : Option Nat) :
    s.analyze (p.choosing minScore topN) = .ok
      { symbol := s.symbol
        clusters := Cluster.select minScore topN (s.foundClusters p)
        overlays := Overlay.ofClusters p.drawing s
          (Cluster.select minScore topN (s.foundClusters p))
        stats := ⟨s.size, p.sortedLookbacks.toList.map (s.lookbackStats p),
          (s.foundClusters p).length⟩ } :=
  analyze_eq_ok hs (hp.choosing (fun _ _ => rfl) topN)

end Series

/-- Every score lies between the sums of the weights. So a least score above that range leaves no
cluster, and one that is not inside it leaves all. -/
theorem scores_lie_between_weights {s : Series Rat} {p : Params Rat} (valid : s.validate = .ok ())
    (inRange : p.validate = .ok ()) :
    ∃ a, s.analyze p = .ok a ∧
      (∀ c ∈ a.clusters, c.score ∈ Set.Icc p.scoring.leastScore p.scoring.greatestScore) ∧
      (∀ minScore > p.scoring.greatestScore, ∀ topN, ∃ b,
        s.analyze (p.choosing (some minScore) topN) = .ok b ∧ b.clusters = [] ∧ b.overlays = []) ∧
      ∀ minScore ≤ p.scoring.leastScore, ∀ topN, ∃ b,
        s.analyze (p.choosing (some minScore) topN) = .ok b ∧
          s.analyze (p.choosing none topN) = .ok b := by
  have hs := Series.validate_eq_ok_iff.mp valid
  have hp := Params.validate_eq_ok_iff.mp inRange
  have scores (c : Cluster Rat) (mem : c ∈ s.foundClusters p) :=
    Series.score_mem_of_mem_foundClusters hs hp mem
  refine ⟨_, Series.analyze_eq_ok hs hp, fun c mem => scores c (Cluster.mem_of_mem_select mem),
    ?_, ?_⟩
  · intro minScore above topN
    have none : Cluster.select (some minScore) topN (s.foundClusters p) = [] :=
      Cluster.select_eq_nil (fun c mem => (scores c mem).2.trans_lt above) topN
    refine ⟨_, Series.analyze_choosing hs hp (some minScore) topN, none, ?_⟩
    dsimp only
    rw [none]
    rfl
  · intro minScore below topN
    have all : Cluster.select (some minScore) topN (s.foundClusters p)
        = Cluster.select none topN (s.foundClusters p) :=
      Cluster.select_some_eq (fun c mem => below.trans (scores c mem).1) topN
    refine ⟨_, Series.analyze_choosing hs hp (some minScore) topN, ?_⟩
    rw [all]
    exact Series.analyze_choosing hs hp none topN

/-- The lines along the tops and the bottoms of the rising zigzag score well inside the range. -/
theorem scores_lie_between_weights_rising :
    (exactRising.validate = .ok () ∧ exactParams.validate = .ok () ∧
      exactParams.scoring.leastScore = -1 / 2 ∧ exactParams.scoring.greatestScore = 1 ∧
      (exactRising.foundClusters exactParams).map (·.score) = [131 / 200, 121 / 200]) ∧
    ∃ a, exactRising.analyze exactParams = .ok a ∧
      (∀ c ∈ a.clusters, c.score
        ∈ Set.Icc exactParams.scoring.leastScore exactParams.scoring.greatestScore) ∧
      (∀ minScore > exactParams.scoring.greatestScore, ∀ topN, ∃ b,
        exactRising.analyze (exactParams.choosing (some minScore) topN) = .ok b ∧
          b.clusters = [] ∧ b.overlays = []) ∧
      ∀ minScore ≤ exactParams.scoring.leastScore, ∀ topN, ∃ b,
        exactRising.analyze (exactParams.choosing (some minScore) topN) = .ok b ∧
          exactRising.analyze (exactParams.choosing none topN) = .ok b :=
  ⟨by decide +kernel, scores_lie_between_weights (by decide +kernel) (by decide +kernel)⟩

end Trendline
