import Trendline.Overlay
import Trendline.Touch

/-!
The whole analysis of a series: swings, lines, touches, clusters, ranking and overlays.
-/
namespace Trendline

/-- What one lookback has contributed. -/
structure LookbackStats where
  lookback : Nat
  highPivots : Nat
  lowPivots : Nat
  /-- The lines drawn. -/
  candidates : Nat
  /-- The lines that enough bars touch. -/
  kept : Nat
  deriving Repr, DecidableEq

structure Stats where
  bars : Nat
  lookbacks : List LookbackStats
  /-- The count of clusters before the choice of the best. -/
  clusters : Nat
  deriving Repr, DecidableEq

def Stats.totalCandidates (stats : Stats) : Nat :=
  (stats.lookbacks.map (·.candidates)).foldl (· + ·) 0

def Stats.totalKept (stats : Stats) : Nat :=
  (stats.lookbacks.map (·.kept)).foldl (· + ·) 0

/-- The ranked clusters of a series and their overlays, in one order. -/
structure Analysis (α : Type) where
  symbol : String
  clusters : List (Cluster α)
  overlays : List (Overlay α)
  stats : Stats
  deriving Repr, BEq, DecidableEq

variable {α : Type} [Scalar α]

/-- The lines of one lookback that enough bars touch, those through highs first. -/
def Series.linesFor (s : Series α) (p : Params α) (lookback : Nat) :
    Except (Error α) (List (Line α) × LookbackStats) := do
  let swings ← s.swings lookback p.pivots
  let candidates := p.pairs.lines lookback swings.highs ++ p.pairs.lines lookback swings.lows
  let kept := s.touchedLines p.touches p.minTouches candidates
  return (kept,
    { lookback
      highPivots := swings.highs.length
      lowPivots := swings.lows.length
      candidates := candidates.length
      kept := kept.length })

/-- The analysis of a series. Parameters and series are checked first; after that nothing fails:
where there are too few bars, swings or touches, little or nothing is found. -/
def Series.analyze (s : Series α) (p : Params α) : Except (Error α) (Analysis α) := do
  p.validate
  s.validate
  let found ← p.sortedLookbacks.toList.mapM (s.linesFor p)
  let lines := found.flatMap (·.1)
  let clusters := (Cluster.ofLines p.merging lines).map (Cluster.assignScore p.scoring s)
  let ranked := Cluster.select p.scoring.minScore p.topN clusters
  return {
    symbol := s.symbol
    clusters := ranked
    overlays := Overlay.ofClusters p.drawing s ranked
    stats := ⟨s.size, found.map (·.2), clusters.length⟩ }

/-- The overlays of plain bars. -/
def overlaysOfBars (bars : List (Bar α)) (p : Params α) : Except (Error α) (List (Overlay α)) := do
  p.validate
  let s ← Series.ofBars "" bars
  return (← s.analyze p).overlays

end Trendline
