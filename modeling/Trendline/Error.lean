import Trendline.Decimal.Layout

/-!
Why an analysis refuses its input, and how it says so.
-/
namespace Trendline

/-- What is wrong with a series. -/
inductive SeriesFault (α : Type) where
  | empty
  | misaligned (column : String) (size expected : Nat)
  /-- The bar after bar `i` is not later than it. -/
  | outOfOrder (i : Nat) (time next : Int)
  | notFinite (i : Nat) (time : Int)
  | inverted (i : Nat) (time : Int) (high low : α)
  deriving Repr, DecidableEq

/-- What is wrong with a parameter. -/
inductive ParamFault (α : Type) where
  | noLookback
  | zeroLookback
  /-- Swings were asked for in windows without neighbours. -/
  | emptyWindow
  | notPositive (field : String) (x : α)
  | negative (field : String) (x : α)
  | notFinite (field : String) (x : α)
  | belowOne (field : String)
  | spansCrossed (most least : Nat)
  deriving Repr, DecidableEq

inductive Error (α : Type) where
  | series (symbol : String) (fault : SeriesFault α)
  | param (fault : ParamFault α)
  deriving Repr, DecidableEq

/-- Numbers in messages have their shortest digits, the greater of two, and never an exponent. -/
def messageLayout : Decimal.Layout :=
  ⟨.up, none, []⟩

def intText (i : Int) : String :=
  (Decimal.Numeral.ofInt i).text

def natText (n : Nat) : String :=
  (Decimal.Numeral.ofNat n).text

namespace SeriesFault

def reason (symbol : String) : SeriesFault Float → String
  | .empty => "series '" ++ symbol ++ "' is empty"
  | .misaligned column size expected =>
      "series '" ++ symbol ++ "': column " ++ column ++ " has " ++ natText size
        ++ " values but there are " ++ natText expected ++ " timestamps"
  | .outOfOrder i time next =>
      "series '" ++ symbol ++ "': timestamps must be strictly ascending, bar " ++ natText (i + 1)
        ++ " (" ++ intText next ++ ") follows bar " ++ natText i ++ " (" ++ intText time ++ ")"
  | .notFinite i time =>
      "series '" ++ symbol ++ "': bar " ++ natText i ++ " (ts " ++ intText time
        ++ ") has a non-finite price or volume"
  | .inverted i time high low =>
      "series '" ++ symbol ++ "': bar " ++ natText i ++ " (ts " ++ intText time ++ ") has high "
        ++ messageLayout.text high ++ " below low " ++ messageLayout.text low

end SeriesFault

namespace ParamFault

/-- The parameter at fault. -/
def field {α : Type} : ParamFault α → String
  | .noLookback | .zeroLookback | .emptyWindow => "lookbacks"
  | .notPositive field _ | .negative field _ | .notFinite field _ | .belowOne field => field
  | .spansCrossed _ _ => "max_pair_span_bars"

def reason : ParamFault Float → String
  | .noLookback => "at least one lookback is required"
  | .zeroLookback => "every lookback must be >= 1 (got 0)"
  | .emptyWindow => "pivot extraction needs lookback >= 1 (got 0)"
  | .notPositive _ x => "must be finite and > 0 (got " ++ messageLayout.text x ++ ")"
  | .negative _ x => "must be finite and >= 0 (got " ++ messageLayout.text x ++ ")"
  | .notFinite _ x => "must be finite (got " ++ messageLayout.text x ++ ")"
  | .belowOne _ => "must be >= 1 (got 0)"
  | .spansCrossed most least =>
      "must be >= min_pair_span_bars (" ++ natText most ++ " < " ++ natText least ++ ")"

end ParamFault

def Error.message : Error Float → String
  | .series symbol fault => "Validation failed during series validation: " ++ fault.reason symbol
  | .param fault => "Invalid parameter '" ++ fault.field ++ "': " ++ fault.reason

end Trendline
