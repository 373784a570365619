import Trendline.Decimal.Numeral

/-!
Instants as dates and times of day in UTC, by the Gregorian calendar carried back before its
introduction.
-/
namespace Trendline

structure Date where
  year : Int
  month : Nat
  day : Nat
  deriving Repr, DecidableEq

namespace Date

/-- The date so many days after the first of January 1970. Years are counted from March, so that
the leap day ends its year; every four hundred years have the same count of days. -/
def ofDay (days : Int) : Date :=
  let fromMarch := days + 719468
  let cycle := fromMarch / 146097
  let inCycle := (fromMarch % 146097).toNat
  let yearInCycle := (inCycle - inCycle / 1460 + inCycle / 36524 - inCycle / 146096) / 365
  let inYear := inCycle - (365 * yearInCycle + yearInCycle / 4 - yearInCycle / 100)
  let monthFromMarch := (5 * inYear + 2) / 153
  let month := if monthFromMarch < 10 then monthFromMarch + 3 else monthFromMarch - 9
  { year := cycle * 400 + yearInCycle + if month ≤ 2 then 1 else 0
    month
    day := inYear - (153 * monthFromMarch + 2) / 5 + 1 }

/-- A number with zeros in front up to the given width. -/
def padded (width n : Nat) : String :=
  let ds := Decimal.digitsOf n
  String.ofList (List.replicate (width - ds.length) '0' ++ ds.map Decimal.Digit.char)

/-- At least four digits; a year that needs more carries a plus sign. -/
def yearText (year : Int) : String :=
  (if year < 0 then "-" else if year > 9999 then "+" else "") ++ padded 4 year.natAbs

def text (d : Date) : String :=
  yearText d.year ++ "-" ++ padded 2 d.month ++ "-" ++ padded 2 d.day

end Date

/-- The milliseconds for which there is a date. -/
def firstInstant : Int := -8334601228800000

def lastInstant : Int := 8210266876799999

/-- The date and the time of day, to the minute, of an instant in milliseconds since the start of
1970. An instant out of range is written as the count of milliseconds. -/
def utcText (ms : Int) : String :=
  if firstInstant ≤ ms ∧ ms ≤ lastInstant then
    let minute := (ms / 60000 % 1440).toNat
    (Date.ofDay (ms / 86400000)).text ++ " " ++ Date.padded 2 (minute / 60) ++ ":"
      ++ Date.padded 2 (minute % 60)
  else
    (Decimal.Numeral.ofInt ms).text ++ "ms"

end Trendline
