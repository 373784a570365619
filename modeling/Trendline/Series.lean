import Trendline.Bar
import Trendline.Error
import Trendline.Params
import Trendline.Word

/-!
Series of bars, kept as one column per price, and the rules that a series must obey before it is
analysed.
-/
namespace Trendline

/-- The bars of one symbol in columns. Nothing is promised here: the columns may have different
sizes and hold anything until `validate` has accepted them. -/
structure Series (α : Type) where
  symbol : String
  /-- The usual time between two bars, zero if it is not known. -/
  interval : Int
  times : Array Int
  openings : Array α
  highs : Array α
  lows : Array α
  closings : Array α
  volumes : Array α
  deriving Repr, BEq, DecidableEq

namespace Series

variable {α : Type}

/-- The count of bars. -/
@[inline]
def size (s : Series α) : Nat :=
  s.times.size

/-- The position of the last bar; zero if there is none. -/
def lastIndex (s : Series α) : Nat :=
  s.size - 1

def lastClose? (s : Series α) : Option α :=
  s.closings.back?

/-- The bar in position `i`. A column that ends before has a zero there; `validate` accepts no such
column, but one may be measured as long as nothing is asked of the columns that are too short. -/
def barAt [Zero α] (s : Series α) (i : Nat) : Bar α where
  time := s.times.getD i 0
  opening := s.openings.getD i 0
  high := s.highs.getD i 0
  low := s.lows.getD i 0
  closing := s.closings.getD i 0
  volume := s.volumes.getD i 0

/-- The bars in order, as many as there are times. -/
def bars [Zero α] (s : Series α) : List (Bar α) :=
  (List.range s.size).map s.barAt

/-- The prices that swings on one side are measured on. -/
def pivotPrices (s : Series α) (source : PivotSource) (side : Side) : Array α :=
  match source, side with
  | .close, _ => s.closings
  | .highLow, .high => s.highs
  | .highLow, .low => s.lows

/-- Halves the stretch of `size` times from `base` on until one is left: the last one not after
`time`, if the times ascend and one of them is not after it. -/
def locate (times : Array Int) (time : Int) (base size : Nat) (h : base + size ≤ times.size) :
    Nat :=
  if _big : 1 < size then
    have : base + size / 2 < times.size := by omega
    if time < times[base + size / 2] then
      locate times time base (size - size / 2) (by omega)
    else
      locate times time (base + size / 2) (size - size / 2) (by omega)
  else
    base
termination_by size

/-- The position of the bar at a time. -/
def indexOf? (s : Series α) (time : Int) : Option Nat :=
  let i := locate s.times time 0 s.times.size (by omega)
  if s.times[i]? = some time then some i else none

/-- Stretches of equal numbers, each with its length. -/
def runs : List Int → List (Int × Nat)
  | [] => []
  | x :: xs =>
      match runs xs with
      | (y, n) :: rest => if x = y then (y, n + 1) :: rest else (x, 1) :: (y, n) :: rest
      | [] => [(x, 1)]

/-- The time from each bar to the next, where it fits sixty-four bits. -/
def gaps : List Int → List Int
  | a :: b :: rest =>
      let gap := b - a
      if fitsWord gap then gap :: gaps (b :: rest) else gaps (b :: rest)
  | _ => []

/-- The most frequent of the gaps between some times, the smallest of several, as the width of the
bars; zero if there is none or time does not go forward. -/
def usualGap (times : List Int) : Int :=
  let counted := runs ((gaps times).mergeSort (· ≤ ·))
  let best := counted.foldl (fun best run =>
    match best with
    | none => some run
    | some b => if b.2 < run.2 then some run else some b) none
  match best with
  | some (gap, _) => if 0 < gap then gap else 0
  | none => 0

/-- The columns after the times, by name. -/
def columnSizes (s : Series α) : List (String × Nat) :=
  [("open_prices", s.openings.size), ("high_prices", s.highs.size), ("low_prices", s.lows.size),
    ("close_prices", s.closings.size), ("volumes", s.volumes.size)]

/-- The first column that has not as many entries as there are times. -/
def misaligned? (s : Series α) : Option (SeriesFault α) :=
  (s.columnSizes.find? fun c => c.2 ≠ s.size).map fun c => .misaligned c.1 c.2 s.size

/-- The first of the times from position `i` on that the next one does not exceed. -/
def outOfOrder? (i : Nat) : List Int → Option (SeriesFault α)
  | a :: b :: rest => if b ≤ a then some (.outOfOrder i a b) else outOfOrder? (i + 1) (b :: rest)
  | _ => none

variable [Scalar α]

def barFault? (i : Nat) (bar : Bar α) : Option (SeriesFault α) :=
  if !bar.isFinite then some (.notFinite i bar.time)
  else if bar.high < bar.low then some (.inverted i bar.time bar.high bar.low)
  else none

/-- The first rule that a series breaks: it has bars, its columns have one size, its times ascend,
its prices are finite and no high is below its low. -/
def fault? (s : Series α) : Option (SeriesFault α) :=
  (if s.size = 0 then some .empty else none)
    <|> s.misaligned?
    <|> outOfOrder? 0 s.times.toList
    <|> (List.range s.size).findSome? fun i => barFault? i (s.barAt i)

def validate (s : Series α) : Except (Error α) Unit :=
  match s.fault? with
  | some fault => .error (.series s.symbol fault)
  | none => .ok ()

/-- The columns of some bars. -/
def columnsOf (symbol : String) (bars : List (Bar α)) : Series α where
  symbol
  interval := usualGap (bars.map (·.time))
  times := (bars.map (·.time)).toArray
  openings := (bars.map (·.opening)).toArray
  highs := (bars.map (·.high)).toArray
  lows := (bars.map (·.low)).toArray
  closings := (bars.map (·.closing)).toArray
  volumes := (bars.map (·.volume)).toArray

/-- The series of some bars, if it obeys the rules. -/
def ofBars (symbol : String) (bars : List (Bar α)) : Except (Error α) (Series α) := do
  let s := columnsOf symbol bars
  s.validate
  return s

end Series

end Trendline
