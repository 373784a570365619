import Trendline.Ranking

/-!
What a score is made of. Clusters of different series score alike if all that is weighed is the same,
and a score all of whose parts are numbers is valid.
-/

namespace Trendline

variable {α : Type} [Scalar α]

/-- All that is weighed of one cluster in one series is the same of another cluster in another. -/
structure Cluster.SameEvidence (s s' : Series α) (c c' : Cluster α) : Prop where
  rSquared : c'.rSquared = c.rSquared
  invalid : c'.invalid = c.invalid
  touchCount : c'.touchCount = c.touchCount
  recency : Scoring.recency s' c' = Scoring.recency s c
  violationRatio : Scoring.violationRatio s' c' = Scoring.violationRatio s c
  distance : Scoring.distance s' c' = Scoring.distance s c

namespace Cluster.SameEvidence

variable {s s' : Series α} {c c' : Cluster α} (scoring : Scoring α)

theorem scoreToTouches_eq (h : SameEvidence s s' c c') :
    scoring.scoreToTouches c' = scoring.scoreToTouches c := by
  rw [Scoring.scoreToTouches, Scoring.scoreOfFit, Scoring.touchTerm, h.rSquared, h.touchCount]
  rfl

theorem scoreToRecency_eq (h : SameEvidence s s' c c') :
    scoring.scoreToRecency s' c' = scoring.scoreToRecency s c := by
  rw [Scoring.scoreToRecency, h.scoreToTouches_eq, h.recency, Scoring.scoreToRecency]

theorem scoreToViolations_eq (h : SameEvidence s s' c c') :
    scoring.scoreToViolations s' c' = scoring.scoreToViolations s c := by
  rw [Scoring.scoreToViolations, h.scoreToRecency_eq, h.violationRatio, Scoring.scoreToViolations]

theorem scoreToDistance_eq (h : SameEvidence s s' c c') :
    scoring.scoreToDistance s' c' = scoring.scoreToDistance s c := by
  rw [Scoring.scoreToDistance, h.scoreToViolations_eq, h.distance, Scoring.scoreToDistance]

theorem score_eq (h : SameEvidence s s' c c') : scoring.score s' c' = scoring.score s c := by
  rw [Scoring.score, h.rSquared, h.scoreToDistance_eq, Scoring.score]

theorem isInvalid_eq (h : SameEvidence s s' c c') :
    scoring.isInvalid s' c' = scoring.isInvalid s c := by
  have given : c'.givenRSquared = c.givenRSquared := by
    rw [givenRSquared, h.invalid, h.rSquared, givenRSquared]
  unfold Scoring.isInvalid Scoring.stages Scoring.scoreOfFit
  rw [h.rSquared, given, h.recency, h.scoreToTouches_eq, h.scoreToRecency_eq,
    h.scoreToViolations_eq, h.scoreToDistance_eq]

end Cluster.SameEvidence

theorem Scoring.isInvalid_of_stages {scoring : Scoring α} {s : Series α} {c : Cluster α}
    (numbers : ∀ stage ∈ scoring.stages s c, Scalar.isNumber stage.1 = true) :
    scoring.isInvalid s c = false := by
  have none : (scoring.stages s c).find? (fun stage => !Scalar.isNumber stage.1) = none := by
    rw [List.find?_eq_none]
    intro stage mem
    simp [numbers stage mem]
  rw [isInvalid, none]

end Trendline
