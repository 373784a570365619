/-!
Words of sixty-four bits, in which counts and times are kept and doubles are stored.
-/
namespace Trendline

/-- How many values a word has. -/
def wordCount : Nat := 0x10000000000000000

/-- How many values of a word with a sign are negative. -/
def halfWordCount : Nat := 0x8000000000000000

/-- Whether an integer fits a word with a sign. -/
def fitsWord (i : Int) : Bool :=
  -halfWordCount ≤ i && i < halfWordCount

end Trendline
