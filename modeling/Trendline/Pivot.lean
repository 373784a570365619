import Trendline.Extremes
import Trendline.Series

/-!
Swings: bars whose price exceeds that of every bar in a window around them.
-/
namespace Trendline

/-- A swing of a series, by the position of its bar. -/
structure Pivot (α : Type) where
  index : Nat
  time : Int
  price : α
  side : Side
  deriving Repr, BEq, DecidableEq

/-- The swings of a series on either side, in the order of their bars. -/
structure Swings (α : Type) where
  highs : List (Pivot α)
  lows : List (Pivot α)
  deriving Repr, BEq, DecidableEq

variable {α : Type} [Scalar α]

/-- Whether a price lies strictly beyond all of some others, which are not none. -/
@[specialize]
def Side.exceeds (side : Side) (price : α) (others : Array α) : Bool :=
  match side with
  | .high => (greatest? others.toList).any (· < price)
  | .low => (least? others.toList).any (price < ·)

namespace Series

/-- The swing at bar `i` on one side, if its price exceeds those of the `lookback` bars before it
and those of the `lookback` bars after it. -/
@[specialize]
def swing? (s : Series α) (source : PivotSource) (lookback i : Nat) (side : Side) :
    Option (Pivot α) := do
  let prices := s.pivotPrices source side
  let price ← prices[i]?
  let time ← s.times[i]?
  if side.exceeds price (prices.extract (i - lookback) i)
      && side.exceeds price (prices.extract (i + 1) (i + 1 + lookback)) then
    return ⟨i, time, price, side⟩
  else
    none

/-- Every swing in the order of the bars, on one bar the high before the low. Only bars with
`lookback` bars on either side come into question. -/
def rawSwings (s : Series α) (source : PivotSource) (lookback : Nat) : List (Pivot α) :=
  (List.range' lookback (s.size - 2 * lookback)).flatMap fun i =>
    [Side.high, Side.low].filterMap (s.swing? source lookback i)

end Series

/-- Whether two swings are so near in price that only the earlier one counts. -/
def PivotOptions.near (options : PivotOptions α) (later earlier : Pivot α) : Bool :=
  0 < options.dedupe && Scalar.relativeDistance later.price earlier.price < options.dedupe

/-- Takes each element in turn unless it is near one already taken. -/
def thinOut {β : Type} (near : β → β → Bool) (taken : List β) : List β → List β
  | [] => []
  | q :: rest =>
      if taken.any (near q) then thinOut near taken rest else q :: thinOut near (q :: taken) rest

/-- The swings of a series in windows of `lookback` bars to either side, without those too near to
an earlier one of either side. -/
def Series.swings (s : Series α) (lookback : Nat) (options : PivotOptions α) :
    Except (Error α) (Swings α) :=
  if lookback < 1 then
    .error (.param .emptyWindow)
  else
    let taken := thinOut options.near [] (s.rawSwings options.source lookback)
    .ok ⟨taken.filter (·.side = .high), taken.filter (·.side = .low)⟩

end Trendline
