import Trendline.Cluster

/-!
Scores of clusters, and the order and choice of the best.
-/
namespace Trendline

variable {α : Type} [Scalar α]

namespace Scoring

/-- The touches of a cluster as a share of those that earn their full weight, at most one. -/
def touchTerm (scoring : Scoring α) (c : Cluster α) : α :=
  Scalar.atMost 1 ((c.touchCount : α) / scoring.touchNorm)

/-- How far along the series the last touch of a cluster lies, from zero to one. -/
def recency (s : Series α) (c : Cluster α) : α :=
  match c.lastTouch?.bind s.indexOf? with
  | none => 0
  | some i => if s.lastIndex = 0 then 1 else (i : α) / (s.lastIndex : α)

/-- The violations of a cluster as a share of the bars on which one of its lines could have been
broken, at most one. The count of those bars is kept modulo `wordCount`. -/
def violationRatio (s : Series α) (c : Cluster α) : α :=
  let bars := max (s.size - c.start) 1
  Scalar.atMost 1 ((c.violations : α) / ((bars * max c.members 1 % wordCount : Nat) : α))

/-- The distance of a cluster from the last close, at most one. -/
def distance (s : Series α) (c : Cluster α) : α :=
  match s.lastClose? with
  | none => 0
  | some close => Scalar.atMost 1 (Scalar.relativeDistance (c.atBar s.lastIndex) close)

/-! The weighted score as it grows, part by part -/

def scoreOfFit (scoring : Scoring α) (c : Cluster α) : α :=
  scoring.rSquaredWeight * c.rSquared

def scoreToTouches (scoring : Scoring α) (c : Cluster α) : α :=
  scoring.scoreOfFit c + scoring.touchesWeight * scoring.touchTerm c

def scoreToRecency (scoring : Scoring α) (s : Series α) (c : Cluster α) : α :=
  scoring.scoreToTouches c + scoring.recencyWeight * recency s c

def scoreToViolations (scoring : Scoring α) (s : Series α) (c : Cluster α) : α :=
  scoring.scoreToRecency s c - scoring.violationWeight * violationRatio s c

def scoreToDistance (scoring : Scoring α) (s : Series α) (c : Cluster α) : α :=
  scoring.scoreToViolations s c - scoring.proximityWeight * distance s c

/-- The score of a cluster; higher is better. -/
def score (scoring : Scoring α) (s : Series α) (c : Cluster α) : α :=
  match scoring.mode with
  | .rSquared => c.rSquared
  | .weighted => scoring.scoreToDistance s c

/-- The parts of the score that tell whether it is a number, with the values that each of them
brings in and that may be no numbers from the start. What recency adds comes before the sum it is
added to; the other parts follow as the score grows. -/
def stages (scoring : Scoring α) (s : Series α) (c : Cluster α) : List (α × List α) :=
  match scoring.mode with
  | .rSquared => [(c.rSquared, c.givenRSquared)]
  | .weighted =>
      [(scoring.recencyWeight * recency s c, [scoring.recencyWeight]),
        (scoring.scoreOfFit c, scoring.rSquaredWeight :: c.givenRSquared),
        (scoring.scoreToTouches c, [scoring.touchesWeight]),
        (scoring.scoreToRecency s c, [scoring.recencyWeight]),
        (scoring.scoreToViolations s c, [scoring.violationWeight]),
        (scoring.scoreToDistance s c, [scoring.proximityWeight])]

/-- Whether an operation on numbers without a result is why the score is no number: the first part
that is none tells, and all it brought in were numbers. -/
def isInvalid (scoring : Scoring α) (s : Series α) (c : Cluster α) : Bool :=
  match (scoring.stages s c).find? fun stage => !Scalar.isNumber stage.1 with
  | none => false
  | some (_, given) => given.all Scalar.isNumber

end Scoring

namespace Cluster

def assignScore (scoring : Scoring α) (s : Series α) (c : Cluster α) : Cluster α :=
  { c with score := scoring.score s c, invalid := scoring.isInvalid s c }

/-- The better cluster comes first: the one with the higher score, then the one with more touches,
then the one with the smaller lookback. Invalid scores are lower than all others. -/
def rankOrder (a b : Cluster α) : Ordering :=
  (compare a.invalid b.invalid).then ((Scalar.order b.score a.score).then
    ((compare b.touchCount a.touchCount).then (compare a.lookback b.lookback)))

/-- The clusters with at least the least score, the best first, equally good ones in their given
order, and no more of them than asked for. -/
def select (minScore : Option α) (topN : Option Nat) (clusters : List (Cluster α)) :
    List (Cluster α) :=
  let admitted := clusters.filter fun c => minScore.all (· ≤ c.score)
  let ranked := admitted.mergeSort fun a b => a.rankOrder b ≠ .gt
  match topN with
  | none => ranked
  | some n => ranked.take n

end Cluster

end Trendline
