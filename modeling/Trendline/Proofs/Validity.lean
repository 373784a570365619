import Mathlib.Data.List.Chain
import Trendline.Series

/-!
What the checks before an analysis establish. A series passes exactly if it is well formed, and so
do parameters; everything that an analysis relies on is a field here.
-/

namespace Trendline

variable {α : Type} [Scalar α]

namespace Series

structure WellFormed (s : Series α) : Prop where
  size_pos : 0 < s.size
  columns : ∀ c ∈ s.columnSizes, c.2 = s.size
  ascending : s.times.toList.Pairwise (· < ·)
  finite : ∀ i < s.size, (s.barAt i).isFinite = true
  upright : ∀ i < s.size, ¬ (s.barAt i).high < (s.barAt i).low

omit [Scalar α] in
theorem misaligned?_eq_none_iff {s : Series α} :
    s.misaligned? = none ↔ ∀ c ∈ s.columnSizes, c.2 = s.size := by
  simp [misaligned?]

omit [Scalar α] in
theorem outOfOrder?_eq_none_iff (i : Nat) (times : List Int) :
    (outOfOrder? i times : Option (SeriesFault α)) = none ↔ times.Pairwise (· < ·) := by
  rw [← List.isChain_iff_pairwise]
  fun_induction outOfOrder? (α := α) i times with
  | case1 i a b rest le => simp [Int.not_lt.mpr le]
  | case2 i a b rest lt ih => simp [ih, Int.not_le.mp lt]
  | case3 times i short =>
      match times, short with
      | [], _ => simp
      | [a], _ => simp
      | a :: b :: rest, short => exact (short a b rest rfl).elim

theorem barFault?_eq_none_iff {i : Nat} {bar : Bar α} :
    barFault? i bar = none ↔ bar.isFinite = true ∧ ¬ bar.high < bar.low := by
  unfold barFault?
  cases bar.isFinite <;> simp

theorem fault?_eq_none_iff {s : Series α} : s.fault? = none ↔ s.WellFormed := by
  have parts : s.fault? = none ↔ (s.size = 0 → False) ∧ s.misaligned? = none ∧
      (outOfOrder? 0 s.times.toList : Option (SeriesFault α)) = none ∧
      ∀ i < s.size, barFault? i (s.barAt i) = none := by
    simp [fault?]
  simp only [parts, misaligned?_eq_none_iff, outOfOrder?_eq_none_iff, barFault?_eq_none_iff]
  constructor
  · intro ⟨nonempty, columns, ascending, bars⟩
    exact ⟨Nat.pos_of_ne_zero nonempty, columns, ascending, fun i h => (bars i h).1,
      fun i h => (bars i h).2⟩
  · intro wf
    exact ⟨fun zero => Nat.ne_of_gt wf.size_pos zero, wf.columns, wf.ascending,
      fun i h => ⟨wf.finite i h, wf.upright i h⟩⟩

theorem validate_eq_ok_iff {s : Series α} : s.validate = .ok () ↔ s.WellFormed := by
  rw [← fault?_eq_none_iff, validate]
  cases s.fault? with
  | none | some fault => simp

theorem validate_eq_error_iff {s : Series α} {e : Error α} :
    s.validate = .error e ↔ ∃ fault, s.fault? = some fault ∧ .series s.symbol fault = e := by
  rw [validate]
  cases s.fault? with
  | none | some fault => simp

namespace WellFormed

variable {s : Series α}

theorem highs_size (wf : s.WellFormed) : s.highs.size = s.size :=
  wf.columns ("high_prices", _) (by simp [columnSizes])

theorem lows_size (wf : s.WellFormed) : s.lows.size = s.size :=
  wf.columns ("low_prices", _) (by simp [columnSizes])

theorem closings_size (wf : s.WellFormed) : s.closings.size = s.size :=
  wf.columns ("close_prices", _) (by simp [columnSizes])

theorem pivotPrices_size (wf : s.WellFormed) (source : PivotSource) (side : Side) :
    (s.pivotPrices source side).size = s.size := by
  cases source with
  | close => exact wf.closings_size
  | highLow =>
      cases side with
      | high => exact wf.highs_size
      | low => exact wf.lows_size

/-- The prices that swings are measured on are finite. -/
theorem pivotPrices_finite (wf : s.WellFormed) (source : PivotSource) (side : Side) {x : α}
    (mem : x ∈ s.pivotPrices source side) : Scalar.isFinite x = true := by
  obtain ⟨i, h, rfl⟩ := Array.mem_iff_getElem.mp mem
  have inside : i < s.size := wf.pivotPrices_size source side ▸ h
  have bar := wf.finite i inside
  simp only [Bar.isFinite, barAt, Bool.and_eq_true] at bar
  obtain ⟨⟨⟨⟨-, high⟩, low⟩, closing⟩, -⟩ := bar
  have entry {xs : Array α} (h : i < xs.size) (fine : Scalar.isFinite (xs.getD i 0) = true) :
      Scalar.isFinite xs[i] = true := by
    rwa [Array.getD_eq_getD_getElem?, Array.getElem?_eq_getElem h] at fine
  cases source with
  | close => exact entry h closing
  | highLow =>
      cases side with
      | high => exact entry h high
      | low => exact entry h low

end WellFormed

end Series

namespace Params

structure WellFormed (p : Params α) : Prop where
  lookbacks_ne_nil : p.lookbacks ≠ []
  lookback_pos : ∀ l ∈ p.lookbacks, 0 < l
  tolerance : Scalar.isFinite p.touches.tolerance = true ∧ ¬ p.touches.tolerance ≤ 0
  minTouches_pos : 0 < p.minTouches
  slope : Scalar.isFinite p.merging.slope = true ∧ ¬ p.merging.slope < 0
  intercept : Scalar.isFinite p.merging.intercept = true ∧ ¬ p.merging.intercept < 0
  dedupe : Scalar.isFinite p.pivots.dedupe = true ∧ ¬ p.pivots.dedupe < 0
  breakTolerance :
    Scalar.isFinite p.touches.breakTolerance = true ∧ ¬ p.touches.breakTolerance < 0
  minSpan_pos : 0 < p.pairs.minSpan
  maxSpan : ∀ most ∈ p.pairs.maxSpan, p.pairs.minSpan ≤ most
  weights : ∀ w ∈ [p.scoring.rSquaredWeight, p.scoring.touchesWeight, p.scoring.recencyWeight,
    p.scoring.violationWeight, p.scoring.proximityWeight], Scalar.isFinite w = true ∧ ¬ w < 0
  touchNorm : Scalar.isFinite p.scoring.touchNorm = true ∧ ¬ p.scoring.touchNorm ≤ 0
  minScore : ∀ x ∈ p.scoring.minScore, Scalar.isFinite x = true

variable {p : Params α} {field : String}

theorem requirePositive_eq_none_iff {x : α} :
    requirePositive field x = none ↔ Scalar.isFinite x = true ∧ ¬ x ≤ 0 := by
  simp [requirePositive]

theorem requireNonNegative_eq_none_iff {x : α} :
    requireNonNegative field x = none ↔ Scalar.isFinite x = true ∧ ¬ x < 0 := by
  simp [requireNonNegative]

omit [Scalar α] in
theorem requireOne_eq_none_iff {n : Nat} :
    (requireOne field n : Option (ParamFault α)) = none ↔ 0 < n := by
  simp [requireOne, Nat.pos_iff_ne_zero]

omit [Scalar α] in
theorem requireLookbacks_eq_none_iff {lookbacks : List Nat} :
    (requireLookbacks lookbacks : Option (ParamFault α)) = none ↔
      lookbacks ≠ [] ∧ ∀ l ∈ lookbacks, 0 < l := by
  unfold requireLookbacks
  by_cases empty : lookbacks = []
  · simp [empty]
  · by_cases zero : 0 ∈ lookbacks
    · simp [empty, zero]
    · have positive : ∀ l ∈ lookbacks, 0 < l := fun l mem =>
        Nat.pos_of_ne_zero fun eq => zero (eq ▸ mem)
      simpa [empty, zero] using positive

omit [Scalar α] in
theorem requireSpans_eq_none_iff {pairs : PairOptions} :
    (requireSpans pairs : Option (ParamFault α)) = none ↔
      ∀ most ∈ pairs.maxSpan, pairs.minSpan ≤ most := by
  unfold requireSpans
  cases pairs.maxSpan <;> simp

theorem requireMinScore_eq_none_iff {scoring : Scoring α} :
    requireMinScore scoring = none ↔ ∀ x ∈ scoring.minScore, Scalar.isFinite x = true := by
  unfold requireMinScore
  cases scoring.minScore <;> simp

theorem fault?_eq_none_iff : p.fault? = none ↔ p.WellFormed := by
  unfold fault?
  simp only [Option.orElse_eq_orElse, Option.orElse_eq_or, Option.or_eq_none_iff,
    requirePositive_eq_none_iff, requireNonNegative_eq_none_iff, requireOne_eq_none_iff,
    requireLookbacks_eq_none_iff, requireSpans_eq_none_iff, requireMinScore_eq_none_iff]
  constructor
  · intro ⟨⟨nonempty, positive⟩, tolerance, minTouches, slope, intercept, dedupe, breaks, minSpan,
      maxSpan, w₁, w₂, w₃, w₄, w₅, touchNorm, minScore⟩
    refine ⟨nonempty, positive, tolerance, minTouches, slope, intercept, dedupe, breaks, minSpan,
      maxSpan, ?_, touchNorm, minScore⟩
    simp only [List.forall_mem_cons, List.not_mem_nil, false_imp_iff, implies_true, and_true]
    exact ⟨w₁, w₂, w₃, w₄, w₅⟩
  · intro wf
    have weights := wf.weights
    simp only [List.forall_mem_cons, List.not_mem_nil, false_imp_iff, implies_true, and_true]
      at weights
    obtain ⟨w₁, w₂, w₃, w₄, w₅⟩ := weights
    exact ⟨⟨wf.lookbacks_ne_nil, wf.lookback_pos⟩, wf.tolerance, wf.minTouches_pos, wf.slope,
      wf.intercept, wf.dedupe, wf.breakTolerance, wf.minSpan_pos, wf.maxSpan, w₁, w₂, w₃, w₄, w₅,
      wf.touchNorm, wf.minScore⟩

omit [Scalar α] in
theorem orElse_ne {o o' : Option (ParamFault α)} {fault : ParamFault α} (h : o ≠ some fault)
    (h' : o' ≠ some fault) : (o <|> o') ≠ some fault := by
  cases o with
  | none => exact h'
  | some _ => exact h

/-- No rule is about windows without neighbours: they are refused as lookbacks. -/
theorem fault?_ne_emptyWindow (p : Params α) : p.fault? ≠ some .emptyWindow := by
  unfold fault?
  repeat' apply orElse_ne
  all_goals
    simp only [requireLookbacks, requirePositive, requireNonNegative, requireOne, requireSpans,
      requireMinScore]
    grind

theorem validate_eq_ok_iff : p.validate = .ok () ↔ p.WellFormed := by
  rw [← fault?_eq_none_iff, validate]
  cases p.fault? with
  | none | some fault => simp

theorem validate_eq_error_iff {e : Error α} :
    p.validate = .error e ↔ ∃ fault, p.fault? = some fault ∧ .param fault = e := by
  rw [validate]
  cases p.fault? with
  | none | some fault => simp

end Params

/-- A price that rises and falls by one from bar to bar. -/
def zigzagPrices : Array Float := #[1, 2, 3, 2, 1, 2, 3, 2, 1]

def zigzag : Series Float :=
  ⟨"zigzag", 60, #[0, 60, 120, 180, 240, 300, 360, 420, 480], zigzagPrices, zigzagPrices,
    zigzagPrices, zigzagPrices, zigzagPrices⟩

/-- The defaults with narrow windows, of two widths, and lines of two touches. -/
def zigzagParams : Params Float :=
  { Params.default with lookbacks := [2, 1], minTouches := 2 }

/-- A zigzag with a rising course, one line along its tops and one along its bottoms. -/
def rising : Series Float where
  symbol := "rising"
  interval := 60
  times := #[0, 60, 120, 180, 240, 300, 360, 420, 480]
  openings := #[2, 1, 2.5, 4, 3, 2, 3.5, 5, 4]
  highs := #[2.5, 1.5, 3, 4.5, 3.5, 2.5, 4, 5.5, 4.5]
  lows := #[1.5, 0.5, 2, 3.5, 2.5, 1.5, 3, 4.5, 3.5]
  closings := #[2, 1, 2.5, 4, 3, 2, 3.5, 5, 4]
  volumes := #[1, 1, 1, 1, 1, 1, 1, 1, 1]

/-- The same with lines that touch the extremes of the bars. -/
def risingParams : Params Float :=
  { zigzagParams with touches := { zigzagParams.touches with reference := .wick } }

/-- Three tops, of which the second is hardly higher than the first, and the bottoms between them. -/
def threeTops : Series Float :=
  let prices := #[90, 100, 90, 80, 90, 100.1, 90, 110, 85]
  ⟨"tops", 60, #[0, 60, 120, 180, 240, 300, 360, 420, 480], prices, prices, prices, prices,
    #[1, 1, 1, 1, 1, 1, 1, 1, 1]⟩

/-- Swings within half a percent of an earlier one are passed over. -/
def distinctSwings : PivotOptions Float :=
  ⟨.highLow, 0.005⟩

end Trendline
