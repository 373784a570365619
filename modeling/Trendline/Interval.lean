/-!
Widths of bars, their short names, and the names of the files that hold series of a width.
-/
namespace Trendline

/-- The short names of the widths in common use, in milliseconds. -/
def intervalNames : List (Int × String) :=
  [(1000, "1s"), (60000, "1m"), (300000, "5m"), (900000, "15m"), (1800000, "30m"),
    (3600000, "1h"), (14400000, "4h"), (86400000, "1d"), (604800000, "1w")]

/-- The width of daily bars. -/
def dayInterval : Int := 86400000

def intervalName (ms : Int) : String :=
  (intervalNames.lookup ms).getD "unknown"

/-- The directory of series files, from the working directory. -/
def seriesDirectory : String := "series_data"

/-- The name of the file for series of a width, which carries the version of its layout. -/
def seriesFileName (interval : Int) : String :=
  "series_" ++ intervalName interval ++ "_v1.json"

def seriesFilePath (interval : Int) : String :=
  seriesDirectory ++ "/" ++ seriesFileName interval

end Trendline
