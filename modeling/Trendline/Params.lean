import Trendline.Ascending
import Trendline.Error
import Trendline.Scalar

/-!
The parameters of an analysis, stage by stage, their defaults, and the ranges they must lie in.
-/
namespace Trendline

/-- The price a swing is measured on. -/
inductive PivotSource where
  /-- The high of the bar for swing highs, its low for swing lows. -/
  | highLow
  | close
  deriving Repr, DecidableEq

/-- The price of a bar that is compared with a line to see whether the bar touches it. -/
inductive Reference where
  | close
  /-- The extreme of the bar on the side of the line. -/
  | wick
  /-- Any price from the low to the high of the bar. -/
  | range
  deriving Repr, DecidableEq

/-- The price of a bar that breaks a line by lying beyond it. -/
inductive BreakRule where
  | off
  | close
  /-- The extreme of the bar on the side of the line. -/
  | wick
  deriving Repr, DecidableEq

/-- Where a drawn line ends. -/
inductive RightEdge where
  | lastTouch
  | chartEdge
  deriving Repr, DecidableEq

/-- What decides between support and resistance. -/
inductive RolePolicy where
  | pivotKind
  /-- A line is support if the last close is not below it. -/
  | pricePosition
  deriving Repr, DecidableEq

inductive ScoreMode where
  /-- The fit alone. -/
  | rSquared
  /-- A weighted sum of fit, touches and recency, less violations and distance. -/
  | weighted
  deriving Repr, DecidableEq

/-- How swings are found in a series. -/
structure PivotOptions (α : Type) where
  source : PivotSource
  /-- A swing whose price is nearer than this share to that of an earlier one is passed over; zero
  keeps them all. -/
  dedupe : α
  deriving Repr, DecidableEq

/-- Which pairs of swings a line is drawn through, by their distance in bars. -/
structure PairOptions where
  minSpan : Nat
  maxSpan : Option Nat
  deriving Repr, DecidableEq

/-- How bars are compared with a line. -/
structure TouchOptions (α : Type) where
  /-- The share of the price of the line within which a bar touches it. -/
  tolerance : α
  reference : Reference
  breakRule : BreakRule
  /-- The share of the price of the line beyond which a bar breaks it. -/
  breakTolerance : α
  /-- Whether the fit of a line is measured over the bars that touch it. -/
  regression : Bool
  deriving Repr, DecidableEq

/-- How near two lines must be to count as one. -/
structure Tolerance (α : Type) where
  slope : α
  intercept : α
  deriving Repr, DecidableEq

structure Scoring (α : Type) where
  mode : ScoreMode
  rSquaredWeight : α
  touchesWeight : α
  recencyWeight : α
  violationWeight : α
  proximityWeight : α
  /-- The count of touches that earns their full weight. -/
  touchNorm : α
  /-- Lines with a lower score are left out. -/
  minScore : Option α
  deriving Repr, DecidableEq

/-- How ranked lines are drawn. -/
structure DrawOptions where
  rightEdge : RightEdge
  rolePolicy : RolePolicy
  deriving Repr, DecidableEq

structure Params (α : Type) where
  /-- How many bars a swing must exceed on either side; each of these is tried by itself. -/
  lookbacks : List Nat
  pivots : PivotOptions α
  pairs : PairOptions
  touches : TouchOptions α
  /-- Lines with fewer touches are dropped. -/
  minTouches : Nat
  merging : Tolerance α
  scoring : Scoring α
  /-- How many of the best lines are kept; all of them if none is given. -/
  topN : Option Nat
  drawing : DrawOptions
  /-- Whether lookbacks may be worked on side by side. The answer is the same. -/
  parallel : Bool
  deriving Repr, DecidableEq

def Scoring.default : Scoring Float where
  mode := .weighted
  rSquaredWeight := 0.4
  touchesWeight := 0.4
  recencyWeight := 0.2
  violationWeight := 0.5
  proximityWeight := 0
  touchNorm := 10
  minScore := none

namespace Params

def default : Params Float where
  lookbacks := [5]
  pivots := ⟨.highLow, 0⟩
  pairs := ⟨1, none⟩
  touches := ⟨0.005, .close, .close, 0.0015, true⟩
  minTouches := 3
  merging := ⟨0.05, 1⟩
  scoring := .default
  topN := none
  drawing := ⟨.lastTouch, .pivotKind⟩
  parallel := true

variable {α : Type} [Scalar α]

/-- The fault of a number that must be finite and more than zero. -/
def requirePositive (field : String) (x : α) : Option (ParamFault α) :=
  if !Scalar.isFinite x || x ≤ 0 then some (.notPositive field x) else none

/-- The fault of a number that must be finite and not less than zero. -/
def requireNonNegative (field : String) (x : α) : Option (ParamFault α) :=
  if !Scalar.isFinite x || x < 0 then some (.negative field x) else none

/-- The fault of a count that must be at least one. -/
def requireOne (field : String) (n : Nat) : Option (ParamFault α) :=
  if n < 1 then some (.belowOne field) else none

def requireLookbacks (lookbacks : List Nat) : Option (ParamFault α) :=
  if lookbacks.isEmpty then some .noLookback
  else if lookbacks.any (· < 1) then some .zeroLookback
  else none

def requireSpans (pairs : PairOptions) : Option (ParamFault α) :=
  match pairs.maxSpan with
  | some most => if most < pairs.minSpan then some (.spansCrossed most pairs.minSpan) else none
  | none => none

def requireMinScore (scoring : Scoring α) : Option (ParamFault α) :=
  match scoring.minScore with
  | some x => if Scalar.isFinite x then none else some (.notFinite "scoring.min_score" x)
  | none => none

/-- The first parameter out of range. -/
def fault? (p : Params α) : Option (ParamFault α) :=
  requireLookbacks p.lookbacks
    <|> requirePositive "tolerance_pct" p.touches.tolerance
    <|> requireOne "min_touches" p.minTouches
    <|> requireNonNegative "slope_tolerance" p.merging.slope
    <|> requireNonNegative "intercept_tolerance" p.merging.intercept
    <|> requireNonNegative "pivot_dedupe_pct" p.pivots.dedupe
    <|> requireNonNegative "break_tolerance_pct" p.touches.breakTolerance
    <|> requireOne "min_pair_span_bars" p.pairs.minSpan
    <|> requireSpans p.pairs
    <|> requireNonNegative "scoring.r_squared_weight" p.scoring.rSquaredWeight
    <|> requireNonNegative "scoring.touches_weight" p.scoring.touchesWeight
    <|> requireNonNegative "scoring.recency_weight" p.scoring.recencyWeight
    <|> requireNonNegative "scoring.violation_weight" p.scoring.violationWeight
    <|> requireNonNegative "scoring.proximity_weight" p.scoring.proximityWeight
    <|> requirePositive "scoring.touch_norm" p.scoring.touchNorm
    <|> requireMinScore p.scoring

def validate (p : Params α) : Except (Error α) Unit :=
  match p.fault? with
  | some fault => .error (.param fault)
  | none => .ok ()

/-- The lookbacks in the order in which they are worked on: ascending, each once. -/
def sortedLookbacks (p : Params α) : Ascending Nat :=
  .ofList p.lookbacks

end Params

end Trendline
