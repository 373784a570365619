import Trendline.Decimal.Binary

/-!
The shortest decimal that reads back as a given double: the coarsest power of ten one of whose
multiples lies between the halfway points to the neighbouring doubles, and there the multiple
nearest to the value.
-/
namespace Trendline.Decimal

/-- Which of two equally near decimals is taken. -/
inductive Tie where
  | up
  | even
  deriving Repr, DecidableEq

/-- The number `digits * 10 ^ exponent`. -/
structure Digits where
  digits : Nat
  exponent : Int
  deriving Repr, DecidableEq

/-- A double and its halfway points, each as a multiple of one power of ten, over the common
denominator `unit`. The halfway points themselves read back as the double if `closed`. -/
structure Scaled where
  low : Nat
  value : Nat
  high : Nat
  unit : Nat
  closed : Bool

/-- Measures `b` and its halfway points in multiples of `10 ^ e`. -/
def Binary.scale (b : Binary) (e : Int) : Scaled :=
  let quarter := b.exponent - 2
  let factor := Nat.pow 2 quarter.toNat * Nat.pow 10 (-e).toNat
  { low := (4 * b.significand - if b.narrowBelow then 1 else 2) * factor
    value := 4 * b.significand * factor
    high := (4 * b.significand + 2) * factor
    unit := Nat.pow 2 (-quarter).toNat * Nat.pow 10 e.toNat
    closed := b.significand % 2 = 0 }

/-- Whether the multiple `d` of the power of ten reads back as the double. -/
def Scaled.readsBack (s : Scaled) (d : Nat) : Bool :=
  if s.closed then s.low ≤ d * s.unit && d * s.unit ≤ s.high
  else s.low < d * s.unit && d * s.unit < s.high

/-- The multiple to write, if one reads back: the nearer of the two around the value. -/
def Scaled.nearest? (tie : Tie) (s : Scaled) : Option Nat :=
  let below := s.value / s.unit
  match s.readsBack below, s.readsBack (below + 1) with
  | true, true =>
      match compare (2 * s.value) ((2 * below + 1) * s.unit) with
      | .lt => some below
      | .gt => some (below + 1)
      | .eq => some (if tie = .even && below % 2 = 0 then below else below + 1)
  | true, false => some below
  | false, true => some (below + 1)
  | false, false => none

/-- Whether `b` is at least `10 ^ e`. -/
def Binary.reaches (b : Binary) (e : Int) : Bool :=
  let s := b.scale e
  s.unit ≤ s.value

/-- The count of digits before the decimal point of `b`, zero or less for a `b` below one. The
estimate from the count of binary digits is off by at most one. -/
def Binary.wholeDigits (b : Binary) : Int :=
  let estimate := Int.fdiv ((Nat.log2 b.significand + b.exponent) * 30103) 100000 + 1
  if b.reaches estimate then estimate + 1
  else if b.reaches (estimate - 1) then estimate
  else estimate - 1

/-- Moves the zeros at the end of the digits into the exponent. -/
def Digits.trim : Nat → Digits → Digits
  | 0, d => d
  | fuel + 1, d =>
      if d.digits % 10 = 0 && d.digits ≠ 0 then trim fuel ⟨d.digits / 10, d.exponent + 1⟩ else d

/-- The shortest decimal that reads back as `b`. Seventeen digits are enough for every double. -/
def Binary.shortest (tie : Tie) (b : Binary) : Digits :=
  let whole := b.wholeDigits
  let found := (List.range' 1 17).findSome? fun (count : Nat) =>
    let e := whole - count
    ((b.scale e).nearest? tie).map fun d => Digits.trim 20 ⟨d, e⟩
  found.getD ⟨0, 0⟩

end Trendline.Decimal
