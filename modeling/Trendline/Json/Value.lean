import Trendline.Json.Basic
import Trendline.Scalar
import Trendline.Word

/-!
What the numbers and texts of a document stand for. A number without point and power is exact if
it fits sixty-four bits; every other is gathered into a whole number of sixty-four bits and a power
of ten, and the double is one rounded product or quotient of the two.
-/
namespace Trendline

open Decimal

/-- The value of a number in a document. -/
inductive Number where
  | natural (n : Nat)
  | negative (i : Int)
  | double (x : Float)

namespace Number

/-- The whole digits gathered so far, and how many more there were that no longer fitted. -/
structure Gathered where
  significand : Nat
  exponent : Int
  full : Bool

def Gathered.whole (g : Gathered) (d : Digit) : Gathered :=
  if g.full then { g with exponent := g.exponent + 1 }
  else if wordCount ≤ 10 * g.significand + d.val then
    { g with exponent := g.exponent + 1, full := true }
  else
    { g with significand := 10 * g.significand + d.val }

/-- A fraction digit that does not fit is passed over, and so are those behind it. -/
def Gathered.fraction (g : Gathered) (d : Digit) : Gathered :=
  if g.full then g
  else if wordCount ≤ 10 * g.significand + d.val then { g with full := true }
  else { g with significand := 10 * g.significand + d.val, exponent := g.exponent - 1 }

/-- The double nearest to a power of ten. -/
def powerOfTen (n : Nat) : Float :=
  Float.ofScientific 1 false n

/-- The rounded product of `x` and a power of ten; none if it is too large for a double. A power
below the range of doubles is reached in steps. -/
def scale? : Nat → Float → Int → Option Float
  | 0, x, _ => some x
  | steps + 1, x, e =>
      if e.natAbs ≤ 308 then
        if 0 ≤ e then
          let y := x * powerOfTen e.natAbs
          if y.isInf then none else some y
        else
          some (x / powerOfTen e.natAbs)
      else if x == 0 then some x
      else if 0 ≤ e then none
      else scale? steps (x / powerOfTen 308) (e + 308)

/-- The double that a whole number of sixty-four bits and a power of ten give. Three steps take
every such number to zero. -/
def double? (negative : Bool) (significand : Nat) (e : Int) : Option Number :=
  (scale? 4 (Scalar.doubleOfCount significand) e).map fun x => .double (if negative then -x else x)

/-- The value of a number as written; none if it is too large. A negative number that does not fit
sixty-four bits becomes a double, and so does minus zero. -/
def ofNumeral? (n : Numeral) : Option Number :=
  let whole := n.whole.foldl Gathered.whole ⟨0, 0, false⟩
  if n.fraction.isEmpty && n.exponent.isNone && !whole.full then
    if !n.negative then some (.natural whole.significand)
    else if whole.significand = 0 || halfWordCount < whole.significand then
      double? true whole.significand 0
    else some (.negative (-whole.significand))
  else
    let all := n.fraction.foldl Gathered.fraction { whole with full := false }
    let power := (n.exponent.map Exponent.toInt).getD 0
    double? n.negative all.significand (all.exponent + power)

/-- The nearest double. -/
def toFloat : Number → Float
  | .natural n => Scalar.doubleOfCount n
  | .negative i => -(Scalar.doubleOfCount i.natAbs)
  | .double x => x

end Number

namespace Quoted

/-- The characters that a text stands for; none if it holds a malformed byte or half of a pair of
units. Two units of a pair stand for one character. -/
def chars? : Quoted → Option (List Char)
  | [] => some []
  | .char c :: rest | .escape c :: rest => (chars? rest).map (c :: ·)
  | .malformed :: _ => none
  | .unit n :: rest =>
      if n < 0xD800 ∨ 0xDFFF < n then (chars? rest).map (Char.ofNat n :: ·)
      else
        match rest with
        | .unit low :: rest =>
            if n ≤ 0xDBFF ∧ 0xDC00 ≤ low ∧ low ≤ 0xDFFF then
              (chars? rest).map
                (Char.ofNat (0x10000 + (n - 0xD800) * 0x400 + (low - 0xDC00)) :: ·)
            else none
        | _ => none

def string? (q : Quoted) : Option String :=
  (chars? q).map String.ofList

end Quoted

namespace Json

def depthLimit : Nat := 127

/-- Whether a document can be taken over in full: every number has a value, every text and key
stands for characters, and lists and objects nest at most `limit` deep. -/
def isReadable (limit : Nat) : Json → Bool
  | .null | .bool _ => true
  | .number n => (Number.ofNumeral? n).isSome
  | .text q => (Quoted.string? q).isSome
  | .list items =>
      match limit with
      | 0 => false
      | limit + 1 => items.all fun v => v.isReadable limit
  | .object members =>
      match limit with
      | 0 => false
      | limit + 1 => members.all fun (q, v) => (Quoted.string? q).isSome && v.isReadable limit

end Json

end Trendline
