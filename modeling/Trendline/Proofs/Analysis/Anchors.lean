import Mathlib.Tactic.FieldSimp
import Mathlib.Tactic.Linarith
import Trendline.Proofs.Analysis.Counts
import Trendline.Proofs.Ascending
import Trendline.Proofs.Scalar.Rational

/-!
Lines in exact arithmetic. A line through two swings meets both of them, so where bars are compared
with it by the prices that swings are measured on, the bars of both swings touch it.
-/

namespace Trendline

section TwoPoints

theorem sum_pair (u v : Rat) : Scalar.sum [u, v] = u + v := by
  change 0 + u + v = u + v
  rw [zero_add]

theorem mean_pair (u v : Rat) : mean [u, v] = (u + v) / 2 := by
  change 0 + (u - 0) / ((0 + 1 : Nat) : Rat)
    + (v - (0 + (u - 0) / ((0 + 1 : Nat) : Rat))) / ((1 + 1 : Nat) : Rat) = _
  push_cast
  ring

variable {x₁ x₂ : Rat} (y₁ y₂ : Rat)

/-- The line through two points, by its slope and the point halfway between them. -/
def Trend.through (x₁ y₁ x₂ y₂ : Rat) : Trend Rat :=
  ⟨(y₂ - y₁) / (x₂ - x₁), (y₁ + y₂) / 2 - (y₂ - y₁) / (x₂ - x₁) * ((x₁ + x₂) / 2)⟩

theorem Trend.value_through (apart : x₁ < x₂) :
    (through x₁ y₁ x₂ y₂).value x₁ = y₁ ∧ (through x₁ y₁ x₂ y₂).value x₂ = y₂ := by
  have ne : x₂ - x₁ ≠ 0 := sub_ne_zero.mpr apart.ne'
  constructor <;>
    · simp only [value, through]
      field_simp
      ring

/-- The line of least squares through two points that stand apart runs through both of them. -/
theorem Fit.ofPoints?_pair (apart : 1 ≤ x₂ - x₁) :
    ofPoints? [(x₁, y₁), (x₂, y₂)] = some ⟨Trend.through x₁ y₁ x₂ y₂, 1⟩ := by
  have sxx : (x₁ - (x₁ + x₂) / 2) * (x₁ - (x₁ + x₂) / 2)
      + (x₂ - (x₁ + x₂) / 2) * (x₂ - (x₁ + x₂) / 2) = (x₂ - x₁) * (x₂ - x₁) / 2 := by ring
  have sxy : (x₁ - (x₁ + x₂) / 2) * (y₁ - (y₁ + y₂) / 2)
      + (x₂ - (x₁ + x₂) / 2) * (y₂ - (y₁ + y₂) / 2) = (x₂ - x₁) * (y₂ - y₁) / 2 := by ring
  have spread : ¬ (x₂ - x₁) * (x₂ - x₁) / 2 ≤ Scalar.epsilon := by
    have := Rational.epsilon_lt_quarter
    nlinarith
  have slope : (x₂ - x₁) * (y₂ - y₁) / 2 / ((x₂ - x₁) * (x₂ - x₁) / 2)
      = (y₂ - y₁) / (x₂ - x₁) := by
    have : x₂ - x₁ ≠ 0 := by linarith
    field_simp
  have full : Scalar.clamp 0 1 (1 : Rat) = 1 := by decide
  obtain ⟨left, right⟩ := Trend.value_through y₁ y₂ (show x₁ < x₂ by linarith)
  simp only [Trend.through] at left right
  simp only [ofPoints?, List.length_cons, List.length_nil, List.map_cons, List.map_nil, mean_pair,
    sum_pair, sxx, sxy, if_neg spread, slope, left, right]
  simp [Trend.through, full]

end TwoPoints

namespace TouchOptions

variable {options : TouchOptions Rat} {side : Side} {bar : Bar Rat} {projected : Rat}

/-- A bar touches a line at the very price that is compared with it. -/
theorem touches_of_price_eq (positive : 0 < options.tolerance)
    (same : options.reference.price side bar projected = projected) :
    options.touches side bar projected = true := by
  have slack : 0 ≤ options.tolerance * Scalar.abs projected := by
    rw [Rational.abs_eq_abs]
    positivity
  cases reference : options.reference with
  | close | wick =>
      rw [reference] at same
      simp only [touches, reference, same, Scalar.relativeDistance, Rational.abs_eq_abs, sub_self,
        abs_zero, zero_div]
      exact decide_eq_true positive.le
  | range =>
      rw [reference] at same
      simp only [Reference.price, Scalar.clamp] at same
      simp only [touches, reference, Bar.spans, Bool.and_eq_true, decide_eq_true_eq]
      split_ifs at same with below above
      · exact absurd same below.ne'
      · exact absurd same above.ne
      · constructor <;> linarith

end TouchOptions

variable {α : Type} [Scalar α]

/-- Whether bars are compared with a line by the prices that swings are measured on. -/
def Params.ComparesSwingPrices (p : Params α) : Prop :=
  p.pivots.source = .highLow ∧ (p.touches.reference = .wick ∨ p.touches.reference = .range) ∨
    p.pivots.source = .close ∧ p.touches.reference = .close

/-- A swing of the series in a window of some width. -/
def Series.IsSwing (s : Series α) (options : PivotOptions α) (q : Pivot α) : Prop :=
  ∃ lookback swings, s.swings lookback options = .ok swings ∧ (q ∈ swings.highs ∨ q ∈ swings.lows)

namespace Series.IsSwing

variable {s : Series α} {p : Params α} {q r : Pivot α}

theorem exists_swing? {options : PivotOptions α} (h : s.IsSwing options q) :
    ∃ lookback, s.swing? options.source lookback q.index q.side = some q := by
  obtain ⟨lookback, swings, found, mem⟩ := h
  by_cases none : lookback < 1
  · simp [Series.swings, none] at found
  · rw [swings_eq_ok (by omega), Except.ok.injEq] at found
    subst found
    refine ⟨lookback, ?_⟩
    rcases mem with mem | mem
    all_goals
      have raw := (s.swingsOn_sublist lookback options _).subset mem
      rw [(stands_of_mem_swingsOn mem).side_eq]
      exact (mem_rawSwingsOn_iff.mp raw).2.2

theorem time?_eq {options : PivotOptions α} (h : s.IsSwing options q) :
    s.times[q.index]? = some q.time := by
  obtain ⟨lookback, found⟩ := h.exists_swing?
  exact (swing?_eq_some_iff.mp found).2.2.1

theorem price?_eq {options : PivotOptions α} (h : s.IsSwing options q) :
    (s.pivotPrices options.source q.side)[q.index]? = some q.price := by
  obtain ⟨lookback, found⟩ := h.exists_swing?
  exact (swing?_eq_some_iff.mp found).2.2.2.1

/-- The price of a swing is the one compared with a line that meets it. -/
theorem price_eq [LawfulScalar α] (h : s.IsSwing p.pivots q) (wf : s.WellFormed)
    (compared : p.ComparesSwingPrices) :
    p.touches.reference.price q.side (s.barAt q.index) q.price = q.price := by
  obtain ⟨inside, -⟩ := Array.getElem?_eq_some_iff.mp h.time?_eq
  have upright := wf.upright q.index inside
  have price := h.price?_eq
  rcases compared with ⟨source, wick | range⟩ | ⟨source, close⟩
  all_goals cases side : q.side
  all_goals
    simp_all [pivotPrices, Reference.price, Bar.extreme, barAt, Scalar.clamp,
      LawfulScalar.lt_irrefl, Array.getD_eq_getD_getElem?]

end Series.IsSwing

namespace Line

/-- The bar in position `i` touches the line, so its time is among the touches. -/
theorem mem_touchTimes {s : Series α} {options : TouchOptions α} {line : Line α} {i : Nat} {t : Int}
    (entry : s.times[i]? = some t) (touching : line.touchesBar options (s.barAt i) i = true) :
    t ∈ line.touchTimes options s.bars := by
  obtain ⟨inside, -⟩ := Array.getElem?_eq_some_iff.mp entry
  have time : (s.barAt i).time = t := by
    simp [Series.barAt, Array.getD_eq_getD_getElem?, entry]
  rw [touchTimes, Ascending.mem_ofList, Series.zipIdx_bars, ← time]
  exact List.mem_map_of_mem (List.mem_filter.mpr
    ⟨List.mem_map_of_mem (f := fun i => (s.barAt i, i)) (List.mem_range.mpr inside), touching⟩)

/-- A line that runs through both of its swings, with a full fit. -/
structure MeetsAnchors (line : Line Rat) : Prop where
  first : line.atBar line.first.index = line.first.price
  second : line.atBar line.second.index = line.second.price
  full : line.rSquared = 1

/-- A line that is touched by the bars of both of its swings. -/
structure TouchesAnchors (s : Series α) (options : TouchOptions α) (line : Line α) : Prop where
  first : line.first.time ∈ line.touchTimes options s.bars
  second : line.second.time ∈ line.touchTimes options s.bars

/-- A line that starts and ends at swings of the series which stand on one side. -/
structure Anchored (s : Series α) (options : PivotOptions α) (line : Line α) : Prop where
  first : s.IsSwing options line.first
  second : s.IsSwing options line.second
  first_side : line.first.side = line.side
  second_side : line.second.side = line.side
  forward : line.first.time ≠ line.second.time

end Line

namespace PairOptions

variable {options : PairOptions} {lookback : Nat}

theorem line?_swap {q r : Pivot α} (apart : q.index ≠ r.index) :
    line? lookback q r = line? lookback r q := by
  rcases Nat.lt_or_gt_of_ne apart with less | less
  all_goals simp [line?, Nat.le_of_lt less, Nat.not_le_of_lt less]

/-- A line that is drawn comes from two swings in the order of their bars. -/
theorem exists_ordered {s : Series α} {pivots : PivotOptions α} {swings : List (Pivot α)}
    {line : Line α} (stand : ∀ q ∈ swings, s.IsSwing pivots q)
    (mem : line ∈ options.lines lookback swings) :
    ∃ q r, s.IsSwing pivots q ∧ s.IsSwing pivots r ∧ q.side = r.side ∧ q.time ≠ r.time ∧
      q.index < r.index ∧ line? lookback q r = some line := by
  obtain ⟨q, r, pair, admitted, found⟩ := mem_lines_iff.mp mem
  obtain ⟨hq, hr, -⟩ := of_mem_pairs (List.pairwise_of_forall fun _ _ => trivial) pair
  have first := stand q hq
  have second := stand r hr
  simp only [admits, Bool.and_eq_true, decide_eq_true_eq] at admitted
  obtain ⟨⟨⟨sides, times⟩, -⟩, -⟩ := admitted
  have apart : q.index ≠ r.index := fun same =>
    times (Option.some.inj (first.time?_eq.symm.trans (same ▸ second.time?_eq)))
  rcases Nat.lt_or_gt_of_ne apart with less | less
  · exact ⟨q, r, first, second, sides, times, less, found⟩
  · exact ⟨r, q, second, first, sides.symm, times.symm, less, line?_swap apart ▸ found⟩

theorem anchored_of_mem_lines {s : Series α} {pivots : PivotOptions α} {swings : List (Pivot α)}
    {line : Line α} (stand : ∀ q ∈ swings, s.IsSwing pivots q)
    (mem : line ∈ options.lines lookback swings) : line.Anchored s pivots := by
  obtain ⟨q, r, hq, hr, sides, times, ordered, found⟩ := exists_ordered stand mem
  obtain ⟨rfl, rfl, side, -⟩ := of_line? found ordered
  exact ⟨hq, hr, side.symm, side ▸ sides.symm, times⟩

/-- A line runs through the two swings that it is drawn from. -/
theorem meetsAnchors_of_line? {q r : Pivot Rat} {line : Line Rat} (ordered : q.index < r.index)
    (found : line? lookback q r = some line) : line.MeetsAnchors := by
  have apart : (1 : Rat) ≤ (r.index : Rat) - (q.index : Rat) := by
    have : ((q.index + 1 : Nat) : Rat) ≤ (r.index : Rat) := by exact_mod_cast ordered
    push_cast at this
    linarith
  have less : (q.index : Rat) < (r.index : Rat) := by linarith
  obtain ⟨left, right⟩ := Trend.value_through q.price r.price less
  simp only [line?, if_pos (Nat.le_of_lt ordered)] at found
  cases found.symm.trans (congrArg (Option.map _) (Fit.ofPoints?_pair q.price r.price apart))
  exact ⟨left, right, rfl⟩

end PairOptions

section Exact

variable {s : Series Rat} {p : Params Rat}

/-- A bar at which a line has the price of a swing touches it. -/
theorem Series.IsSwing.touched {q : Pivot Rat} {line : Line Rat} (swing : s.IsSwing p.pivots q)
    (wf : s.WellFormed) (positive : 0 < p.touches.tolerance) (compared : p.ComparesSwingPrices)
    (side : q.side = line.side) (meets : line.atBar q.index = q.price) :
    q.time ∈ line.touchTimes p.touches s.bars := by
  apply Line.mem_touchTimes swing.time?_eq
  rw [Line.touchesBar, ← side, meets]
  exact TouchOptions.touches_of_price_eq positive (swing.price_eq wf compared)

theorem Line.Anchored.touchesAnchors {line : Line Rat} (anchored : line.Anchored s p.pivots)
    (meets : line.MeetsAnchors) (wf : s.WellFormed) (positive : 0 < p.touches.tolerance)
    (compared : p.ComparesSwingPrices) : line.TouchesAnchors s p.touches :=
  ⟨anchored.first.touched wf positive compared anchored.first_side meets.first,
    anchored.second.touched wf positive compared anchored.second_side meets.second⟩

/-- Two touches are enough where no more are asked for. -/
theorem Line.Anchored.isKept_measure {line : Line Rat} (anchored : line.Anchored s p.pivots)
    (touches : line.TouchesAnchors s p.touches) (few : p.minTouches ≤ 2) :
    isKept p.minTouches (measure p.touches s s.bars line) = true := by
  have both : [line.first.time, line.second.time].Nodup := by simpa using anchored.forward
  have listed : [line.first.time, line.second.time] ⊆ (line.touchTimes p.touches s.bars).toList :=
    List.cons_subset.mpr ⟨touches.first, List.cons_subset.mpr ⟨touches.second, List.nil_subset _⟩⟩
  have two : 2 ≤ (line.touchTimes p.touches s.bars).size := (both.subperm listed).length_le
  rw [isKept, touchCount, measure_touches]
  exact decide_eq_true (few.trans two)

/-- No line through swings is dropped for want of touches. -/
theorem Series.touchedLines_eq_measure {lines : List (Line Rat)} (few : p.minTouches ≤ 2)
    (anchored : ∀ line ∈ lines, line.Anchored s p.pivots ∧ line.TouchesAnchors s p.touches) :
    s.touchedLines p.touches p.minTouches lines = s.measure p.touches lines := by
  apply List.filter_eq_self.mpr
  intro line mem
  obtain ⟨drawn, drawn_mem, rfl⟩ := List.mem_map.mp mem
  obtain ⟨ends, touches⟩ := anchored drawn drawn_mem
  exact ends.isKept_measure touches few

theorem Series.isSwing_of_mem_swingsOn {options : PivotOptions Rat} {lookback : Nat} {side : Side}
    {q : Pivot Rat} (positive : 0 < lookback) (mem : q ∈ s.swingsOn lookback options side) :
    s.IsSwing options q := by
  refine ⟨lookback, _, swings_eq_ok positive, ?_⟩
  cases side with
  | high => exact .inl mem
  | low => exact .inr mem

/-- Where the prices compared with a line are those that swings are measured on, every line through
two swings meets both, its touches have both, and asking for two touches drops no line. -/
theorem fitted_lines_touch_anchors (valid : s.validate = .ok ()) (inRange : p.validate = .ok ())
    (compared : p.ComparesSwingPrices) :
    (∀ swings, (∀ q ∈ swings, s.IsSwing p.pivots q) → ∀ (options : PairOptions) (lookback : Nat),
      (∀ line ∈ options.lines lookback swings,
        line.MeetsAnchors ∧ line.TouchesAnchors s p.touches) ∧
      (p.minTouches ≤ 2 →
        s.touchedLines p.touches p.minTouches (options.lines lookback swings)
          = s.measure p.touches (options.lines lookback swings))) ∧
    ∃ a, s.analyze p = .ok a ∧
      a.stats.lookbacks.map (·.lookback) = p.sortedLookbacks.toList ∧
      (p.minTouches ≤ 2 → ∀ entry ∈ a.stats.lookbacks, entry.kept = entry.candidates) := by
  have hs := Series.validate_eq_ok_iff.mp valid
  have hp := Params.validate_eq_ok_iff.mp inRange
  have positive : 0 < p.touches.tolerance := not_le.mp hp.tolerance.2
  have meets {swings : List (Pivot Rat)} (stand : ∀ q ∈ swings, s.IsSwing p.pivots q)
      {options : PairOptions} {lookback : Nat} {line : Line Rat}
      (mem : line ∈ options.lines lookback swings) :
      line.Anchored s p.pivots ∧ line.MeetsAnchors ∧ line.TouchesAnchors s p.touches := by
    have anchored := PairOptions.anchored_of_mem_lines stand mem
    obtain ⟨q, r, -, -, -, -, ordered, found⟩ := PairOptions.exists_ordered stand mem
    have meets := PairOptions.meetsAnchors_of_line? ordered found
    exact ⟨anchored, meets, anchored.touchesAnchors meets hs positive compared⟩
  refine ⟨fun swings stand options lookback => ⟨fun line mem => (meets stand mem).2, fun few => ?_⟩,
    _, Series.analyze_eq_ok hs hp, s.lookbacks_lookbackStats p, ?_⟩
  · exact Series.touchedLines_eq_measure few fun line mem => ⟨(meets stand mem).1,
      (meets stand mem).2.2⟩
  · intro few entry mem
    obtain ⟨lookback, asked, rfl⟩ := List.mem_map.mp mem
    have inside : 0 < lookback := hp.lookback_pos lookback (Ascending.mem_ofList.mp asked)
    have drawn : ∀ line ∈ s.drawnLines p lookback,
        line.Anchored s p.pivots ∧ line.TouchesAnchors s p.touches := by
      intro line mem
      obtain ⟨side, mem⟩ := Series.mem_drawnLines_iff.mp mem
      have found := meets (fun q hq => Series.isSwing_of_mem_swingsOn inside hq) mem
      exact ⟨found.1, found.2.2⟩
    change (s.keptLines p lookback).length = (s.drawnLines p lookback).length
    rw [Series.keptLines, Series.touchedLines_eq_measure few drawn, Series.measure, List.length_map]

end Exact

/-- A rising zigzag in exact numbers; its bars reach half a unit to either side of their closes. -/
def exactRising : Series Rat where
  symbol := "rising"
  interval := 60
  times := #[0, 60, 120, 180, 240, 300, 360, 420, 480]
  openings := #[2, 1, 5 / 2, 4, 3, 2, 7 / 2, 5, 4]
  highs := #[5 / 2, 3 / 2, 3, 9 / 2, 7 / 2, 5 / 2, 4, 11 / 2, 9 / 2]
  lows := #[3 / 2, 1 / 2, 2, 7 / 2, 5 / 2, 3 / 2, 3, 9 / 2, 7 / 2]
  closings := #[2, 1, 5 / 2, 4, 3, 2, 7 / 2, 5, 4]
  volumes := #[1, 1, 1, 1, 1, 1, 1, 1, 1]

/-- Narrow windows of two widths, bars that touch with any of their prices and lines of two
touches. -/
def exactParams : Params Rat where
  lookbacks := [2, 1]
  pivots := ⟨.highLow, 0⟩
  pairs := ⟨1, none⟩
  touches := ⟨1 / 200, .range, .close, 3 / 2000, true⟩
  minTouches := 2
  merging := ⟨1 / 20, 1⟩
  scoring := ⟨.weighted, 2 / 5, 2 / 5, 1 / 5, 1 / 2, 0, 10, none⟩
  topN := none
  drawing := ⟨.lastTouch, .pivotKind⟩
  parallel := true

/-- Two tops and two bottoms give two lines, and both are kept. -/
theorem fitted_lines_touch_anchors_rising :
    (exactRising.validate = .ok () ∧ exactParams.validate = .ok () ∧
      exactParams.ComparesSwingPrices ∧
      (exactRising.analyze exactParams).toOption.map (·.stats)
        = some ⟨9, [⟨1, 2, 2, 2, 2⟩, ⟨2, 1, 1, 0, 0⟩], 2⟩) ∧
    (∀ swings, (∀ q ∈ swings, exactRising.IsSwing exactParams.pivots q) →
      ∀ (options : PairOptions) (lookback : Nat),
      (∀ line ∈ options.lines lookback swings,
        line.MeetsAnchors ∧ line.TouchesAnchors exactRising exactParams.touches) ∧
      (exactParams.minTouches ≤ 2 →
        exactRising.touchedLines exactParams.touches exactParams.minTouches
            (options.lines lookback swings)
          = exactRising.measure exactParams.touches (options.lines lookback swings))) ∧
    ∃ a, exactRising.analyze exactParams = .ok a ∧
      a.stats.lookbacks.map (·.lookback) = exactParams.sortedLookbacks.toList ∧
      (exactParams.minTouches ≤ 2 →
        ∀ entry ∈ a.stats.lookbacks, entry.kept = entry.candidates) :=
  ⟨⟨by decide +kernel, by decide +kernel, .inl ⟨rfl, .inr rfl⟩, by decide +kernel⟩,
    fitted_lines_touch_anchors (by decide +kernel) (by decide +kernel) (.inl ⟨rfl, .inr rfl⟩)⟩

end Trendline
