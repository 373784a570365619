import Trendline.Collection
import Trendline.Json.Decode
import Trendline.Json.Printer
import Trendline.Json.Reader

/-!
Series in documents: a series file, the collection it holds, and plain bars. What is written can be
read back; keys that are no fields are passed over.
-/
namespace Trendline

open Json

/-- A collection as it is stored, with the version of the layout, the time of writing and the
width of the bars. -/
structure SeriesFile (α : Type) where
  version : α
  time : Int
  interval : Int
  data : Collection α
  deriving Repr, BEq, DecidableEq

namespace Bar

def form : RecordForm where
  fields := ["timestamp_ms", "open", "high", "low", "close", "volume"]
  allowsOthers := true
  allowsShort := false

def decode? (v : Json) : Option (Bar Float) := do
  let ms ← v.members? form
  return {
    time := ← required? ms "timestamp_ms" int?
    opening := ← required? ms "open" float?
    high := ← required? ms "high" float?
    low := ← required? ms "low" float?
    closing := ← required? ms "close" float?
    volume := ← required? ms "volume" float? }

end Bar

namespace Series

def form : RecordForm where
  fields := ["symbol", "interval_ms", "timestamps_ms", "open_prices", "high_prices", "low_prices",
    "close_prices", "volumes"]
  allowsOthers := true
  allowsShort := false

def column? (ms : List (String × Json)) (field : String) : Option (Array Float) :=
  (required? ms field (list? float?)).map List.toArray

/-- A series that does not give its interval has none. -/
def decode? (v : Json) : Option (Series Float) := do
  let ms ← v.members? form
  return {
    symbol := ← required? ms "symbol" string?
    interval := ← defaulted? ms "interval_ms" 0 int?
    times := (← required? ms "timestamps_ms" (list? int?)).toArray
    openings := ← column? ms "open_prices"
    highs := ← column? ms "high_prices"
    lows := ← column? ms "low_prices"
    closings := ← column? ms "close_prices"
    volumes := ← column? ms "volumes" }

def columnJson (xs : Array Float) : Json :=
  .ofList ofFloat xs.toList

def toJson (s : Series Float) : Json :=
  .ofMembers [
    ("symbol", .ofString s.symbol),
    ("interval_ms", .ofInt s.interval),
    ("timestamps_ms", .ofList .ofInt s.times.toList),
    ("open_prices", columnJson s.openings),
    ("high_prices", columnJson s.highs),
    ("low_prices", columnJson s.lows),
    ("close_prices", columnJson s.closings),
    ("volumes", columnJson s.volumes)]

end Series

namespace Collection

def form : RecordForm where
  fields := ["name", "version", "series_data"]
  allowsOthers := true
  allowsShort := false

def decode? (v : Json) : Option (Collection Float) := do
  let ms ← v.members? form
  return {
    name := ← required? ms "name" string?
    version := ← required? ms "version" float?
    series := ← required? ms "series_data" (list? Series.decode?) }

def toJson (c : Collection Float) : Json :=
  .ofMembers [
    ("name", .ofString c.name),
    ("version", .ofFloat c.version),
    ("series_data", .ofList Series.toJson c.series)]

end Collection

namespace SeriesFile

/-- The newest version of the layout. -/
def newest : Float := 1

def form : RecordForm where
  fields := ["version", "timestamp_ms", "interval_ms", "data"]
  allowsOthers := true
  allowsShort := false

def decode? (v : Json) : Option (SeriesFile Float) := do
  let ms ← v.members? form
  return {
    version := ← required? ms "version" float?
    time := ← required? ms "timestamp_ms" int?
    interval := ← required? ms "interval_ms" int?
    data := ← required? ms "data" Collection.decode? }

def toJson (file : SeriesFile Float) : Json :=
  .ofMembers [
    ("version", .ofFloat file.version),
    ("timestamp_ms", .ofInt file.time),
    ("interval_ms", .ofInt file.interval),
    ("data", file.data.toJson)]

/-- The text of a series file. -/
def render (spacing : Spacing) (file : SeriesFile Float) : String :=
  file.toJson.render spacing

/-- The series file that a text holds. Values that are passed over need not be readable. -/
def ofText? (text : Text.Source) : Option (SeriesFile Float) :=
  (parse? text).bind decode?

end SeriesFile

/-- The layouts in which series come. -/
inductive SeriesDocument where
  | file (file : SeriesFile Float)
  | collection (collection : Collection Float)
  | bars (bars : List (Bar Float))

namespace SeriesDocument

/-- The first layout that a document has. -/
def decode? (v : Json) : Option SeriesDocument :=
  (SeriesFile.decode? v).map .file
    <|> (Collection.decode? v).map .collection
    <|> (v.list? Bar.decode?).map .bars

/-- The series that a text holds, in any layout. Since it is open which layout that is, every value
in the text must be readable. -/
def ofText? (text : Text.Source) : Option SeriesDocument := do
  let v ← parse? text
  if v.isReadable depthLimit then decode? v else none

end SeriesDocument

end Trendline
