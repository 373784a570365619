import Trendline.Scalar

/-!
Straight lines over bar positions, and the line of least squares through given points.
-/
namespace Trendline

/-- The straight line that takes the value `slope * x + intercept` at position `x`. -/
structure Trend (α : Type) where
  slope : α
  intercept : α
  deriving Repr, BEq, DecidableEq

/-- A line with the share of the variation in some points that it accounts for. -/
structure Fit (α : Type) extends Trend α where
  rSquared : α
  deriving Repr, BEq, DecidableEq

variable {α : Type} [Scalar α]

namespace Trend

@[inline]
def value (line : Trend α) (x : α) : α :=
  line.slope * x + line.intercept

/-- The price of the line at the bar in position `i`. -/
@[inline]
def atBar (line : Trend α) (i : Nat) : α :=
  line.value i

end Trend

/-- The mean by running correction: each value moves the mean of those before it by its share of
the difference. -/
@[specialize]
def mean (xs : List α) : α :=
  (xs.foldl (fun (count, m) x => (count + 1, m + (x - m) / ((count + 1 : Nat) : α))) (0, 0)).2

/-- The line of least squares. There is none through fewer than two points, nor where the points
do not spread along the first axis. Points that do not spread along the second are fitted in full. -/
@[specialize]
def Fit.ofPoints? (points : List (α × α)) : Option (Fit α) :=
  if points.length < 2 then
    none
  else
    let meanX := mean (points.map (·.1))
    let meanY := mean (points.map (·.2))
    let deviations := points.map fun p => (p.1 - meanX, p.2 - meanY)
    let sxx : α := Scalar.sum (deviations.map fun d => d.1 * d.1)
    let sxy : α := Scalar.sum (deviations.map fun d => d.1 * d.2)
    let syy : α := Scalar.sum (deviations.map fun d => d.2 * d.2)
    if sxx ≤ Scalar.epsilon then
      none
    else
      let slope := sxy / sxx
      let line : Trend α := ⟨slope, meanY - slope * meanX⟩
      let rSquared : α :=
        if syy ≤ Scalar.epsilon then
          1
        else
          let residuals := points.map fun p => p.2 - line.value p.1
          Scalar.clamp 0 1 (1 - Scalar.sum (residuals.map fun r => r * r) / syy)
      some ⟨line, rSquared⟩

end Trendline
