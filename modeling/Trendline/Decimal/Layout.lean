import Trendline.Decimal.Numeral
import Trendline.Decimal.Shortest

/-!
How doubles are written out: which stand in positional notation, which with an exponent, and which
with a fixed count of places.
-/
namespace Trendline.Decimal

/-- The written form of doubles in one place of use. -/
structure Layout where
  tie : Tie
  /-- The least and the greatest count of digits before the point that is written positionally;
  none if every number is. -/
  positional : Option (Int × Int)
  /-- The fraction of a whole number in positional notation. -/
  wholeFraction : List Digit
  deriving Repr, DecidableEq

/-- Writes `d` without an exponent. -/
def Digits.positional (wholeFraction : List Digit) (d : Digits) : Numeral :=
  let ds := digitsOf d.digits
  let point := ds.length + d.exponent
  if point ≤ 0 then
    ⟨false, [.zero], List.replicate (-point).toNat .zero ++ ds, none⟩
  else if d.exponent < 0 then
    ⟨false, ds.take point.toNat, ds.drop point.toNat, none⟩
  else
    ⟨false, ds ++ List.replicate d.exponent.toNat .zero, wholeFraction, none⟩

/-- Writes `d` with one digit before the point and an exponent. -/
def Digits.scientific (d : Digits) : Numeral :=
  let ds := digitsOf d.digits
  ⟨false, ds.take 1, ds.drop 1, some (Exponent.ofInt (ds.length + d.exponent - 1))⟩

namespace Layout

def ofDigits (layout : Layout) (d : Digits) : Numeral :=
  let whole := (digitsOf d.digits).length + d.exponent
  match layout.positional with
  | none => d.positional layout.wholeFraction
  | some (least, greatest) =>
      if least ≤ whole && whole ≤ greatest then d.positional layout.wholeFraction else d.scientific

/-- The numeral of a finite double, with its shortest digits. -/
def numeral? (layout : Layout) (x : Float) : Option Numeral :=
  match magnitude x with
  | .notANumber | .infinite => none
  | .zero => some ⟨isNegative x, [.zero], layout.wholeFraction, none⟩
  | .finite b => some { layout.ofDigits (b.shortest layout.tie) with negative := isNegative x }

/-- The written form of any double. -/
def text (layout : Layout) (x : Float) : String :=
  match layout.numeral? x with
  | some n => n.text
  | none =>
      match magnitude x with
      | .infinite => if isNegative x then "-inf" else "inf"
      | _ => "NaN"

end Layout

/-- The whole number nearest to `num / den`, the even one of two. -/
def roundHalfEven (num den : Nat) : Nat :=
  let q := num / den
  match compare (2 * (num % den)) den with
  | .lt => q
  | .gt => q + 1
  | .eq => if q % 2 = 0 then q else q + 1

/-- A count of units of the last of `places` places, as a numeral. -/
def placed (places count : Nat) : Numeral :=
  let fraction := digitsOf (count % Nat.pow 10 places)
  ⟨false, digitsOf (count / Nat.pow 10 places),
    if places = 0 then [] else List.replicate (places - fraction.length) .zero ++ fraction, none⟩

/-- The exact value of a double rounded to a fixed count of places, written with its sign. -/
def fixed (places : Nat) (x : Float) : String :=
  match magnitude x with
  | .notANumber => "NaN"
  | .infinite => if isNegative x then "-inf" else "inf"
  | .zero => { placed places 0 with negative := isNegative x }.text
  | .finite b =>
      let count := roundHalfEven (b.significand * Nat.pow 10 places * Nat.pow 2 b.exponent.toNat)
        (Nat.pow 2 (-b.exponent).toNat)
      { placed places count with negative := isNegative x }.text

end Trendline.Decimal
