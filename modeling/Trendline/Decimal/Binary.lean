import Trendline.Word

/-!
The exact value of a double, as a whole number of powers of two.
-/
namespace Trendline.Decimal

/-- The number `significand * 2 ^ exponent` together with its neighbours of the same format: the
next one above lies one unit higher, the next one below one unit lower, or half a unit where the
spacing changes. -/
structure Binary where
  significand : Nat
  exponent : Int
  narrowBelow : Bool
  deriving Repr, DecidableEq

/-- What a double stands for, its sign apart. -/
inductive Magnitude where
  | zero
  | finite (value : Binary)
  | infinite
  | notANumber
  deriving Repr, DecidableEq

/-- The sign bit of a double. -/
def isNegative (x : Float) : Bool :=
  halfWordCount ≤ x.toBits.toNat

/-- How many doubles share one power of two. -/
def fractionCount : Nat := 0x10000000000000

def magnitude (x : Float) : Magnitude :=
  let bits := x.toBits.toNat % halfWordCount
  let power : Nat := bits / fractionCount
  let fraction := bits % fractionCount
  if power = 2047 then
    if fraction = 0 then .infinite else .notANumber
  else if power = 0 then
    if fraction = 0 then .zero else .finite ⟨fraction, -1074, false⟩
  else
    .finite ⟨fraction + fractionCount, (power : Int) - 1075, fraction = 0 && power ≠ 1⟩

end Trendline.Decimal
