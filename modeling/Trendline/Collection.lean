import Trendline.Series

/-!
Collections of series. Several series may be of one symbol; then the first of them counts.
-/
namespace Trendline

/-- Some series under one name. -/
structure Collection (α : Type) where
  name : String
  version : α
  series : List (Series α)
  deriving Repr, BEq, DecidableEq

namespace Collection

variable {α : Type}

/-- The first series of a symbol. -/
def find? (c : Collection α) (symbol : String) : Option (Series α) :=
  c.series.find? (·.symbol = symbol)

/-- The symbols in order, each once. -/
def symbols (c : Collection α) : Ascending String :=
  .ofList (c.series.map (·.symbol))

theorem mem_symbols_iff {c : Collection α} {s : String} :
    s ∈ c.symbols ↔ ∃ series, c.find? s = some series := by
  rw [symbols, Ascending.mem_ofList, ← Option.isSome_iff_exists, find?, List.find?_isSome]
  simp [List.mem_map]

theorem find?_eq_none {c : Collection α} {s : String} (unknown : s ∉ c.symbols) :
    c.find? s = none := by
  rw [mem_symbols_iff, ← Option.isSome_iff_exists, Bool.not_eq_true,
    Option.isSome_eq_false_iff, Option.isNone_iff_eq_none] at unknown
  exact unknown

end Collection

end Trendline
