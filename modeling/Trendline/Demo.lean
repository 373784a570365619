import Trendline.Document.Store
import Trendline.Interval

/-!
Made-up series to try the program on: a wave above a rising floor, which it touches where it is
lowest, with a little jitter that is the same every time.
-/
namespace Trendline.Demo

def programName : String := "make_demo_series"

def symbols : List String :=
  ["BTCUSDT", "ETHUSDT", "SOLUSDT"]

/-- How many bars each series has. -/
def size : Nat := 250

/-- The time of the first bar, the start of the year 2024. -/
def start : Int := 1704067200000

/-- The angle of a full turn. -/
def turn : Float := 6.283185307179586

/-- The bar in position `i` of the series with number `k`. -/
def bar (k i : Nat) : Bar Float :=
  let number := Scalar.doubleOfCount k
  let x := Scalar.doubleOfCount i
  let base := 100 * (number + 1)
  let drift := 0.002 * base
  let amplitude := 0.04 * base
  let period := 18 + 6 * number
  let floor := base * 0.97 + drift * x
  let wave := amplitude * (x * turn / period).sin
  let jitter := 0.003 * base * (x * 12.9898 + number * 78.233).sin
  let closing := Scalar.atLeast floor (floor + amplitude + wave + jitter)
  let opening := closing - jitter * 0.5
  { time := start + i * dayInterval
    opening
    high := Scalar.atLeast opening closing + 0.004 * base
    low := Scalar.atLeast floor (Scalar.atMost opening closing - 0.004 * base)
    closing
    volume := 1000 + 250 * (x / 7).cos.abs }

/-- The series with number `k`. -/
def series (symbol : String) (k : Nat) : Except Failure (Series Float) :=
  match Series.ofBars symbol ((List.range size).map (bar k)) with
  | .ok s => .ok s
  | .error e => .error (.invalidDemo symbol e)

def collection : Except Failure (Collection Float) := do
  let all ← symbols.zipIdx.mapM fun (symbol, k) => series symbol k
  return ⟨"Demo Series Collection", SeriesFile.newest, all⟩

/-- Where the series are saved. -/
def path : String :=
  seriesFilePath dayInterval

/-- What is printed once they are saved. -/
def report (c : Collection Float) : String :=
  "✅ Demo series written to " ++ Text.literal path ++ " with " ++ natText c.series.length
    ++ " symbols x " ++ natText size ++ " bars.\n"

variable {m : Type → Type} [Monad m]

/-- Saves the series, with the given time of writing, and gives what is to be printed. -/
def save (files : FileSystem m) (time : Int) : m (Except Failure String) := do
  match collection with
  | .error f => return .error f
  | .ok c =>
      let file : SeriesFile Float := ⟨SeriesFile.newest, time, dayInterval, c⟩
      match ← file.save files path .compact with
      | .error f => return .error f
      | .ok () => return .ok (report c)

end Trendline.Demo
