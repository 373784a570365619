import Trendline.Word

/-!
The numbers that prices, slopes and scores are made of. Every analysis is written once over a
`Scalar`, in a fixed order of operations: run on `Float` it rounds after each of them, read on
`Rat` it is exact.
-/
namespace Trendline

/-- A type of numbers with the operations the analyses use. No law is required: rounded numbers
satisfy few. -/
class Scalar (α : Type) extends
    Zero α, One α, NatCast α, Add α, Sub α, Mul α, Div α, LE α, LT α where
  decideLE : DecidableLE α
  decideLT : DecidableLT α
  /-- The distance from zero. -/
  abs : α → α
  /-- The step from one to the next larger double. A spread of at most this counts as none. -/
  epsilon : α
  /-- Whether the number stands for a real number. -/
  isFinite : α → Bool
  /-- A total order that agrees with `<` and also places what `<` cannot: minus zero before zero,
  and a value that is not a number after everything. -/
  order : α → α → Ordering

attribute [reducible, instance] Scalar.decideLE Scalar.decideLT

namespace Scalar

variable {α : Type} [Scalar α]

/-- The larger of `bound` and `x`, and `bound` if they do not compare. -/
@[inline]
def atLeast (bound x : α) : α :=
  if bound < x then x else bound

/-- The smaller of `bound` and `x`, and `bound` if they do not compare. -/
@[inline]
def atMost (bound x : α) : α :=
  if x < bound then x else bound

/-- `x` moved into the range from `low` to `high`. -/
@[inline]
def clamp (low high x : α) : α :=
  if x < low then low else if high < x then high else x

/-- Whether a value is a number, be it infinite. -/
@[inline]
def isNumber (x : α) : Bool :=
  x ≤ x

/-- The sum, added from the left. -/
@[inline]
def sum (xs : List α) : α :=
  xs.foldl (· + ·) 0

/-- How far `price` is from `reference`, as a share of the size of `reference`. -/
@[inline]
def relativeDistance (price reference : α) : α :=
  abs (price - reference) / atLeast epsilon (abs reference)

/-- Doubles as integers, so that the order of the integers is the total order of the doubles. -/
def doubleRank (x : Float) : Int :=
  let bits := x.toBits.toNat
  if bits < halfWordCount then bits else halfWordCount - 1 - bits

/-- The double nearest to a count below `wordCount`. -/
def doubleOfCount (n : Nat) : Float :=
  n.toUInt64.toFloat

end Scalar

instance : Scalar Float where
  natCast := Scalar.doubleOfCount
  decideLE := inferInstance
  decideLT := inferInstance
  abs x := x.abs
  epsilon := 2.220446049250313e-16
  isFinite x := x.isFinite
  order x y := compare (Scalar.doubleRank x) (Scalar.doubleRank y)

instance : Scalar Rat where
  zero := 0
  one := 1
  natCast n := n
  decideLE := inferInstance
  decideLT := inferInstance
  abs x := if x < 0 then -x else x
  epsilon := mkRat 1 0x10000000000000
  isFinite _ := true
  order x y := if x < y then .lt else if y < x then .gt else .eq

end Trendline
