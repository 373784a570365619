import Trendline.Line

/-!
Which bars touch a line, which break it, and how well it fits those that touch it.
-/
namespace Trendline

variable {α : Type} [Scalar α]

/-- The price of a bar that is compared with a line standing at `projected`. From the range of a
bar it is the price nearest to the line. -/
@[specialize]
def Reference.price (reference : Reference) (side : Side) (bar : Bar α) (projected : α) : α :=
  match reference with
  | .close => bar.closing
  | .wick => bar.extreme side
  | .range => Scalar.clamp bar.low bar.high projected

/-- The price of a bar that may break a line. -/
def BreakRule.price? (rule : BreakRule) (side : Side) (bar : Bar α) : Option α :=
  match rule with
  | .off => none
  | .close => some bar.closing
  | .wick => some (bar.extreme side)

namespace TouchOptions

/-- Whether a bar touches a line that stands at `projected` there. -/
@[specialize]
def touches (options : TouchOptions α) (side : Side) (bar : Bar α) (projected : α) : Bool :=
  match options.reference with
  | .range => bar.spans projected (options.tolerance * Scalar.abs projected)
  | reference =>
      Scalar.relativeDistance (reference.price side bar projected) projected ≤ options.tolerance

/-- Whether a bar breaks a line that stands at `projected` there: support downwards, resistance
upwards. -/
@[specialize]
def breaks (options : TouchOptions α) (side : Side) (bar : Bar α) (projected : α) : Bool :=
  match options.breakRule.price? side bar with
  | none => false
  | some price =>
      let margin := options.breakTolerance * Scalar.abs projected
      match side with
      | .low => price < projected - margin
      | .high => projected + margin < price

end TouchOptions

namespace Line

/-- Whether the bar in position `i` touches the line. -/
def touchesBar (line : Line α) (options : TouchOptions α) (bar : Bar α) (i : Nat) : Bool :=
  options.touches line.side bar (line.atBar i)

/-- Whether the bar in position `i` breaks the line. A bar before the line starts does not, nor one
that touches it. -/
def brokenBy (line : Line α) (options : TouchOptions α) (bar : Bar α) (i : Nat) : Bool :=
  !line.touchesBar options bar i && line.start ≤ i && options.breaks line.side bar (line.atBar i)

/-- The times of the bars that touch the line. -/
def touchTimes (line : Line α) (options : TouchOptions α) (bars : List (Bar α)) : Ascending Int :=
  .ofList ((bars.zipIdx.filter fun (bar, i) => line.touchesBar options bar i).map (·.1.time))

/-- The count of the bars that break the line. -/
def breakCount (line : Line α) (options : TouchOptions α) (bars : List (Bar α)) : Nat :=
  bars.zipIdx.countP fun (bar, i) => line.brokenBy options bar i

/-- The fit of least squares over the bars that touch the line, if there is one. -/
def touchFit? (line : Line α) (s : Series α) (reference : Reference) : Option α :=
  let points := line.touches.toList.filterMap fun time => do
    let i ← s.indexOf? time
    return ((i : α), reference.price line.side (s.barAt i) (line.atBar i))
  (Fit.ofPoints? points).map (·.rSquared)

/-- The line with what is found along it. What it held before of touches and breaks is gone. -/
def measure (options : TouchOptions α) (s : Series α) (bars : List (Bar α)) (line : Line α) :
    Line α :=
  let measured :=
    { line with
      touches := line.touchTimes options bars
      violations := line.breakCount options bars }
  if options.regression then
    { measured with rSquared := (measured.touchFit? s options.reference).getD line.rSquared }
  else
    measured

/-- Whether enough bars touch the line. -/
def isKept (minTouches : Nat) (line : Line α) : Bool :=
  minTouches ≤ line.touchCount

end Line

/-- Measures lines along a series. -/
def Series.measure (s : Series α) (options : TouchOptions α) (lines : List (Line α)) :
    List (Line α) :=
  let bars := s.bars
  lines.map (Line.measure options s bars)

/-- The lines that enough bars of a series touch. -/
def Series.touchedLines (s : Series α) (options : TouchOptions α) (minTouches : Nat)
    (lines : List (Line α)) : List (Line α) :=
  (s.measure options lines).filter (Line.isKept minTouches)

end Trendline
