import Trendline.Extremes
import Trendline.Gradient
import Trendline.Ranking

/-!
Overlays: the segments in which ranked clusters are drawn over the bars.
-/
namespace Trendline

inductive Role where
  | support
  | resistance
  deriving Repr, DecidableEq

def Role.name : Role → String
  | .support => "support"
  | .resistance => "resistance"

def Role.color : Role → Color
  | .support => ⟨0x00, 0xc8, 0x00⟩
  | .resistance => ⟨0xc8, 0x00, 0x00⟩

/-- The role of the lines through the swings of a side. -/
def Side.role : Side → Role
  | .low => .support
  | .high => .resistance

/-- An end of a segment. -/
structure Point (α : Type) where
  time : Int
  price : α
  deriving Repr, BEq, DecidableEq

/-- One ranked cluster as a segment. -/
structure Overlay (α : Type) extends Trend α where
  left : Point α
  right : Point α
  score : α
  /-- The place of the score between the lowest, zero, and the highest, one, of those drawn. -/
  relative : α
  touches : Ascending Int
  role : Role
  side : Side
  lookback : Nat
  violations : Nat
  deriving Repr, BEq, DecidableEq

/-- The colour of the score. -/
def Overlay.scoreColor (o : Overlay Float) : Color :=
  Gradient.color o.relative

variable {α : Type} [Scalar α]

/-- The role of a cluster. By position, a cluster is support if the last close is not below it. -/
def RolePolicy.role (policy : RolePolicy) (s : Series α) (c : Cluster α) : Role :=
  match policy, s.lastClose? with
  | .pivotKind, _ | .pricePosition, none => c.side.role
  | .pricePosition, some close =>
      if c.atBar s.lastIndex ≤ close then .support else .resistance

/-- The position at which the segment of a cluster ends. -/
def RightEdge.index? (edge : RightEdge) (s : Series α) (c : Cluster α) : Option Nat :=
  match edge with
  | .lastTouch => c.lastTouch?.bind s.indexOf?
  | .chartEdge => if s.size = 0 then none else some s.lastIndex

/-- The point of a cluster at the bar in position `i`. -/
def Series.point? (s : Series α) (c : Cluster α) (i : Nat) : Option (Point α) :=
  s.times[i]?.map fun time => ⟨time, c.atBar i⟩

/-- The segment of a cluster from its first touch on; none if its touches are not bars of the
series. -/
def Overlay.ofCluster? (drawing : DrawOptions) (s : Series α) (c : Cluster α) (relative : α) :
    Option (Overlay α) := do
  let start ← c.firstTouch?.bind s.indexOf?
  let stop ← drawing.rightEdge.index? s c
  let left ← s.point? c start
  let right ← s.point? c stop
  return { c with left, right, relative, role := drawing.rolePolicy.role s c }

/-- The segments of ranked clusters in their order. -/
def Overlay.ofClusters (drawing : DrawOptions) (s : Series α) (ranked : List (Cluster α)) :
    List (Overlay α) :=
  (ranked.zip (rescale (ranked.map (·.score)))).filterMap fun (c, relative) =>
    Overlay.ofCluster? drawing s c relative

end Trendline
