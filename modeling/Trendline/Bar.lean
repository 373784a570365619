import Trendline.Scalar

/-!
Price bars, and the two sides of the market that their extremes belong to.
-/
namespace Trendline

/-- The side of the market of a swing, and of every line drawn through it. -/
inductive Side where
  /-- Swing highs; their lines resist a rising price. -/
  | high
  /-- Swing lows; their lines support a falling price. -/
  | low
  deriving Repr, DecidableEq

/-- The prices and the volume traded in one stretch of time. -/
structure Bar (α : Type) where
  time : Int
  opening : α
  high : α
  low : α
  closing : α
  volume : α
  deriving Repr, BEq, DecidableEq

namespace Bar

variable {α : Type} [Scalar α]

def isFinite (bar : Bar α) : Bool :=
  Scalar.isFinite bar.opening && Scalar.isFinite bar.high && Scalar.isFinite bar.low
    && Scalar.isFinite bar.closing && Scalar.isFinite bar.volume

/-- Whether a price lies between the low and the high of the bar, each moved out by `slack`. -/
@[inline]
def spans (bar : Bar α) (price slack : α) : Bool :=
  bar.low - slack ≤ price && price ≤ bar.high + slack

/-- The extreme of the bar on one side. -/
@[inline]
def extreme (bar : Bar α) : Side → α
  | .high => bar.high
  | .low => bar.low

end Bar

end Trendline
