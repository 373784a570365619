import Trendline.Line
import Trendline.Params

/-!
Clusters of lines that are nearly the same. Each line joins the first cluster whose founder it is
near to, or founds a new one; only founders are compared with, so that a cluster cannot drift.
-/
namespace Trendline

/-- The representative of some lines. -/
structure Cluster (α : Type) extends Fit α where
  /-- The touches of all its lines. -/
  touches : Ascending Int
  violations : Nat
  /-- The lookback of the founder. -/
  lookback : Nat
  lookbacks : Ascending Nat
  side : Side
  members : Nat
  /-- The first position at which one of its lines starts. -/
  start : Nat
  score : α
  /-- What the score is made of came out of an operation on numbers that has no result. The score is
  then no number, and ranks last; one that was no number from the start ranks first. -/
  invalid : Bool := false
  deriving Repr, BEq, DecidableEq

/-- A founder and the lines that joined it, last first. -/
structure Group (α : Type) where
  founder : Line α
  joined : List (Line α)

variable {α : Type} [Scalar α]

/-- Whether a line is near enough to a founder of the same side to join it. -/
@[specialize]
def Tolerance.admits (tolerance : Tolerance α) (founder line : Line α) : Bool :=
  founder.side = line.side
    && Scalar.abs (line.slope - founder.slope) ≤ tolerance.slope
    && Scalar.abs (line.intercept - founder.intercept) ≤ tolerance.intercept

namespace Group

/-- The lines of a group in the order in which they came. -/
def lines (g : Group α) : List (Line α) :=
  g.founder :: g.joined.reverse

/-- Puts a line into the first group that admits it, or into a new one at the end. -/
def place (tolerance : Tolerance α) (line : Line α) : List (Group α) → List (Group α)
  | [] => [⟨line, []⟩]
  | g :: rest =>
      if tolerance.admits g.founder line then { g with joined := line :: g.joined } :: rest
      else g :: place tolerance line rest

/-- The groups of some lines in the order of their founders. -/
def ofLines (tolerance : Tolerance α) (lines : List (Line α)) : List (Group α) :=
  lines.foldl (fun groups line => place tolerance line groups) []

/-- The mean of a quantity over the lines of a group. -/
@[specialize]
def meanOf (quantity : Line α → α) (g : Group α) : α :=
  Scalar.sum (g.lines.map quantity) / (g.lines.length : α)

/-- The representative of a group. Counts of violations are kept modulo `wordCount`. -/
def cluster (g : Group α) : Cluster α where
  slope := g.meanOf (·.slope)
  intercept := g.meanOf (·.intercept)
  rSquared := g.meanOf (·.rSquared)
  touches := g.lines.foldl (fun times line => times.union line.touches) .empty
  violations := (g.lines.map (·.violations)).foldl (· + ·) 0 % wordCount
  lookback := g.founder.lookback
  lookbacks := .ofList (g.lines.map (·.lookback))
  side := g.founder.side
  members := g.lines.length
  start := g.lines.foldl (fun i line => min i line.start) g.founder.start
  score := 0
  invalid := !Scalar.isNumber (g.meanOf (·.rSquared))

end Group

namespace Cluster

/-- The clusters of some lines in the order of their founders. -/
def ofLines (tolerance : Tolerance α) (lines : List (Line α)) : List (Cluster α) :=
  (Group.ofLines tolerance lines).map Group.cluster

def touchCount (c : Cluster α) : Nat :=
  c.touches.size

def firstTouch? (c : Cluster α) : Option Int :=
  c.touches.least?

def lastTouch? (c : Cluster α) : Option Int :=
  c.touches.greatest?

/-- The goodness of fit, unless an operation without a result left none. -/
def givenRSquared (c : Cluster α) : List α :=
  if c.invalid then [] else [c.rSquared]

/-- The cluster as one line, which starts and ends where the cluster starts. -/
def toLine (c : Cluster α) : Line α :=
  let anchor : Pivot α := ⟨c.start, c.firstTouch?.getD 0, c.atBar c.start, c.side⟩
  { c with first := anchor, second := anchor }

end Cluster

end Trendline
