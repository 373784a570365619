import Trendline.Scalar

/-!
The greatest and the least of a list, and the rescaling of a list to the range from zero to one.
-/
namespace Trendline

variable {α : Type} [Scalar α]

/-- The first of the elements that count which no other beats, and the first element if none
counts. -/
@[specialize]
def foremost? (counts : α → Bool) (beats : α → α → Bool) (xs : List α) : Option α :=
  match xs.filter counts with
  | [] => xs.head?
  | x :: rest => some (rest.foldl (fun best y => if beats y best then y else best) x)

/-- Which elements of a list count for its extremes. Values that are not numbers never do; in lists
of four and more the infinity at the far end does not either, `isNear` being what it is not. -/
@[inline]
def takesPart (xs : List α) (isNear : α → Bool) (x : α) : Bool :=
  if xs.length < 4 then Scalar.isNumber x else Scalar.isFinite x || isNear x

/-- The greatest element of a list, none if it is empty. -/
def greatest? (xs : List α) : Option α :=
  foremost? (takesPart xs (0 < ·)) (fun x y => y < x) xs

/-- The least element of a list, none if it is empty. -/
def least? (xs : List α) : Option α :=
  foremost? (takesPart xs (· < 0)) (fun x y => x < y) xs

/-- The values mapped onto the range from zero (the least) to one (the greatest). Values that
hardly differ all become one. -/
def rescale (xs : List α) : List α :=
  match least? xs, greatest? xs with
  | some low, some high =>
      let span := high - low
      if span ≤ Scalar.epsilon then xs.map fun _ => 1 else xs.map fun x => (x - low) / span
  | _, _ => []

end Trendline
