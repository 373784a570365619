import Trendline.Ascending
import Trendline.Pivot
import Trendline.Trend

/-!
Lines through pairs of swings.
-/
namespace Trendline

/-- A line through two swings of one side, and what was found along it. -/
structure Line (α : Type) extends Fit α where
  /-- The times of the bars that touch the line. -/
  touches : Ascending Int
  /-- How many bars break the line. -/
  violations : Nat
  /-- The window in which the swings were found. -/
  lookback : Nat
  side : Side
  /-- The swing with the smaller position. -/
  first : Pivot α
  second : Pivot α
  deriving Repr, BEq, DecidableEq

namespace Line

variable {α : Type}

/-- Where the line starts: it does not exist before. -/
def start (line : Line α) : Nat :=
  line.first.index

def touchCount (line : Line α) : Nat :=
  line.touches.size

end Line

/-- All pairs of an element of a list and a later one, in the order of the first and then of the
second. -/
def pairs {β : Type} : List β → List (β × β)
  | [] => []
  | x :: xs => xs.map (x, ·) ++ pairs xs

namespace PairOptions

variable {α : Type} [Scalar α]

/-- Whether a line may be drawn through two swings. -/
def admits (options : PairOptions) (p q : Pivot α) : Bool :=
  let span := max p.index q.index - min p.index q.index
  p.side = q.side && p.time ≠ q.time && options.minSpan ≤ span
    && options.maxSpan.all (span ≤ ·)

/-- The line through two swings; none if they stand in one place. -/
def line? (lookback : Nat) (p q : Pivot α) : Option (Line α) :=
  let (first, second) := if p.index ≤ q.index then (p, q) else (q, p)
  (Fit.ofPoints? [((first.index : α), first.price), ((second.index : α), second.price)]).map
    fun fit =>
      { fit with
        touches := .empty, violations := 0, lookback, side := first.side, first, second }

/-- The lines through all admitted pairs of some swings. -/
def lines (options : PairOptions) (lookback : Nat) (swings : List (Pivot α)) : List (Line α) :=
  ((pairs swings).filter fun (p, q) => options.admits p q).filterMap fun (p, q) =>
    line? lookback p q

end PairOptions

end Trendline
