import Trendline.Proofs.Analysis.Overlays
import Trendline.Proofs.Checked.Steps

/-!
Checked swings, lines and touches. Windows stay inside the series because the loop leaves `lookback`
bars on either side, and every bar that a line is measured on is one of the series.
-/

namespace Trendline

namespace Checked

variable {α : Type} [Scalar α]

section Swings

def exceeds (side : Side) (price : α) (others : Array α) : Except (Halt α) Bool := do
  match side with
  | .high => return decide ((← greatest others.toList) < price)
  | .low => return decide (price < (← least others.toList))

theorem exceeds_eq_ok (side : Side) (price : α) {others : Array α} (nonempty : 0 < others.size) :
    exceeds side price others = .ok (side.exceeds price others) := by
  have listed : others.toList ≠ [] := fun empty => by simp_all
  cases side with
  | high =>
      obtain ⟨best, found, eq⟩ := greatest_of_ne_nil listed
      simp only [exceeds, Side.exceeds, found, eq]
      rfl
  | low =>
      obtain ⟨best, found, eq⟩ := least_of_ne_nil listed
      simp only [exceeds, Side.exceeds, found, eq]
      rfl

/-- The swing at bar `i` on one side. The window after the bar is looked at only if the bar exceeds
the one before, and ends with its last bar. -/
def swing? (s : Series α) (source : PivotSource) (lookback i : Nat) (side : Side) :
    Except (Halt α) (Option (Pivot α)) := do
  let prices := s.pivotPrices source side
  let price ← entry prices i
  let before ← window prices (← sub i lookback) i
  if ← exceeds side price before then
    let start ← add i 1
    let stop ← add (← add i lookback) 1
    let after ← window prices start stop
    if ← exceeds side price after then
      return some ⟨i, ← entry s.times i, price, side⟩
    else
      return none
  else
    return none

theorem swing?_eq_ok {s : Series α} (wf : s.WellFormed) (short : s.size < wordCount)
    {lookback i : Nat} (positive : 0 < lookback) (before : lookback ≤ i)
    (after : i + lookback < s.size) (source : PivotSource) (side : Side) :
    swing? s source lookback i side = .ok (s.swing? source lookback i side) := by
  have size := wf.pivotPrices_size source side
  have inside : i < s.times.size := by
    change i < s.size
    omega
  have inPrices : i < (s.pivotPrices source side).size := by omega
  have time := Array.getElem?_eq_getElem inside
  have price := Array.getElem?_eq_getElem inPrices
  have left : (window (s.pivotPrices source side) (i - lookback) i : Except (Halt α) _)
      = .ok ((s.pivotPrices source side).extract (i - lookback) i) :=
    window_of_le (Nat.sub_le i lookback) (by omega)
  have right : (window (s.pivotPrices source side) (i + 1) (i + lookback + 1) : Except (Halt α) _)
      = .ok ((s.pivotPrices source side).extract (i + 1) (i + lookback + 1)) :=
    window_of_le (by omega) (by omega)
  rw [Nat.add_right_comm i lookback 1] at right
  unfold swing? Series.swing?
  simp only [entry_of_getElem? price, price, time, entry_of_getElem? time, sub_of_le before, left,
    ok_bind, Option.bind_eq_bind, Option.bind_some]
  rw [exceeds_eq_ok side _ (by rw [Array.size_extract]; omega), ok_bind]
  cases side.exceeds (s.pivotPrices source side)[i]
      ((s.pivotPrices source side).extract (i - lookback) i) with
  | false => rfl
  | true =>
      rw [if_pos rfl, add_of_lt (by omega), ok_bind, add_of_lt (by omega), ok_bind,
        add_of_lt (by omega), ok_bind, Nat.add_right_comm i lookback 1, right, ok_bind,
        exceeds_eq_ok side _ (by rw [Array.size_extract]; omega), ok_bind, Bool.true_and]
      split <;> rfl

/-- Every swing in the order of the bars. The width of a window that no word holds counts as the
largest word, and a series that is not as wide has no swings. -/
def rawSwings (s : Series α) (source : PivotSource) (lookback : Nat) :
    Except (Halt α) (List (Pivot α)) := do
  let width := min (min (2 * lookback) (wordCount - 1) + 1) (wordCount - 1)
  if s.size < width then
    return []
  let stop ← sub s.size lookback
  let found ← (List.range' lookback (stop - lookback)).mapM fun i =>
    [Side.high, Side.low].filterMapM (swing? s source lookback i)
  return found.flatten

theorem rawSwings_eq_ok {s : Series α} (wf : s.WellFormed) (short : s.size < wordCount)
    {lookback : Nat} (positive : 0 < lookback) (narrow : lookback < wordCount)
    (source : PivotSource) :
    rawSwings s source lookback = .ok (s.rawSwings source lookback) := by
  unfold rawSwings Series.rawSwings
  dsimp only
  split
  -- Not one window fits, so the range that is looped over is empty as well.
  case isTrue small =>
    rw [Nat.sub_eq_zero_of_le (by omega)]
    rfl
  case isFalse wide =>
    have each : ∀ i ∈ List.range' lookback (s.size - lookback - lookback),
        [Side.high, Side.low].filterMapM (swing? s source lookback i)
          = .ok ([Side.high, Side.low].filterMap (s.swing? source lookback i)) := by
      intro i mem
      rw [List.mem_range'_1] at mem
      exact filterMapM_eq_ok fun side _ =>
        swing?_eq_ok wf short positive (by omega) (by omega) source side
    rw [sub_of_le (by omega), ok_bind, mapM_eq_ok each, ok_bind, Nat.sub_sub, ← Nat.two_mul]
    rfl

def swings (s : Series α) (lookback : Nat) (options : PivotOptions α) :
    Except (Halt α) (Swings α) := do
  if lookback < 1 then
    .error (.refused (.param .emptyWindow))
  else
    let taken := thinOut options.near [] (← rawSwings s options.source lookback)
    return ⟨taken.filter (·.side = .high), taken.filter (·.side = .low)⟩

theorem swings_eq {s : Series α} (wf : s.WellFormed) (short : s.size < wordCount) {lookback : Nat}
    (narrow : lookback < wordCount) (options : PivotOptions α) :
    swings s lookback options = (s.swings lookback options).mapError .refused := by
  unfold swings Series.swings
  split
  · rfl
  · rw [rawSwings_eq_ok wf short (by omega) narrow]
    rfl

end Swings

section Fits

/-- The line of least squares, with its share of the variation moved into the range from zero to
one. -/
def fit? (points : List (α × α)) : Except (Halt α) (Option (Fit α)) := do
  if points.length < 2 then
    return none
  let meanX := mean (points.map (·.1))
  let meanY := mean (points.map (·.2))
  let deviations := points.map fun p => (p.1 - meanX, p.2 - meanY)
  let sxx : α := Scalar.sum (deviations.map fun d => d.1 * d.1)
  let sxy : α := Scalar.sum (deviations.map fun d => d.1 * d.2)
  let syy : α := Scalar.sum (deviations.map fun d => d.2 * d.2)
  if sxx ≤ Scalar.epsilon then
    return none
  let slope := sxy / sxx
  let line : Trend α := ⟨slope, meanY - slope * meanX⟩
  if syy ≤ Scalar.epsilon then
    return some ⟨line, 1⟩
  let residuals := points.map fun p => p.2 - line.value p.1
  return some ⟨line, ← clamp 0 1 (1 - Scalar.sum (residuals.map fun r => r * r) / syy)⟩

theorem fit?_eq_ok [LawfulScalar α] (points : List (α × α)) :
    fit? points = .ok (Fit.ofPoints? points) := by
  unfold fit? Fit.ofPoints?
  dsimp only
  simp only [clamp_of_le LawfulScalar.zero_le_one, ok_bind, pure_eq_ok]
  split
  · rfl
  · split
    · rfl
    · split <;> rfl

def line? (lookback : Nat) (p q : Pivot α) : Except (Halt α) (Option (Line α)) := do
  let (first, second) := if p.index ≤ q.index then (p, q) else (q, p)
  let fit ← fit? [((first.index : α), first.price), ((second.index : α), second.price)]
  return fit.map fun fit =>
    { fit with
      touches := .empty, violations := 0, lookback, side := first.side, first, second }

def lines (options : PairOptions) (lookback : Nat) (swings : List (Pivot α)) :
    Except (Halt α) (List (Line α)) :=
  ((pairs swings).filter fun (p, q) => options.admits p q).filterMapM fun (p, q) =>
    line? lookback p q

theorem lines_eq_ok [LawfulScalar α] (options : PairOptions) (lookback : Nat)
    (swings : List (Pivot α)) :
    lines options lookback swings = .ok (options.lines lookback swings) := by
  apply filterMapM_eq_ok
  intro (p, q) _
  unfold line? PairOptions.line?
  dsimp only
  split <;>
    · rw [fit?_eq_ok]
      rfl

end Fits

section Touches

variable {s : Series α} {i : Nat}

def extreme (s : Series α) (side : Side) (i : Nat) : Except (Halt α) α :=
  match side with
  | .high => entry s.highs i
  | .low => entry s.lows i

theorem extreme_eq_ok (wf : s.WellFormed) (inside : i < s.size) (side : Side) :
    extreme s side i = .ok ((s.barAt i).extreme side) := by
  cases side with
  | high => exact entry_of_lt (wf.highs_size.symm ▸ inside) 0
  | low => exact entry_of_lt (wf.lows_size.symm ▸ inside) 0

theorem closing_eq_ok (wf : s.WellFormed) (inside : i < s.size) :
    (entry s.closings i : Except (Halt α) α) = .ok (s.barAt i).closing :=
  entry_of_lt (wf.closings_size.symm ▸ inside) 0

def price (s : Series α) (reference : Reference) (side : Side) (i : Nat) (projected : α) :
    Except (Halt α) α := do
  match reference with
  | .close => entry s.closings i
  | .wick => extreme s side i
  | .range => clamp (← extreme s .low i) (← extreme s .high i) projected

theorem price_eq_ok [LawfulScalar α] (wf : s.WellFormed) (inside : i < s.size)
    (reference : Reference) (side : Side) (projected : α) :
    price s reference side i projected = .ok (reference.price side (s.barAt i) projected) := by
  cases reference with
  | close => exact closing_eq_ok wf inside
  | wick => exact extreme_eq_ok wf inside side
  | range =>
      have upright : (s.barAt i).low ≤ (s.barAt i).high := by
        have finite := wf.finite i inside
        simp only [Bar.isFinite, Bool.and_eq_true] at finite
        exact LawfulScalar.le_of_not_lt finite.1.1.2 finite.1.1.1.2 (wf.upright i inside)
      unfold price
      dsimp only
      rw [extreme_eq_ok wf inside, ok_bind, extreme_eq_ok wf inside, ok_bind]
      exact clamp_of_le upright projected

def touches (options : TouchOptions α) (s : Series α) (side : Side) (i : Nat) (projected : α) :
    Except (Halt α) Bool := do
  match options.reference with
  | .range => return (← bar s i).spans projected (options.tolerance * Scalar.abs projected)
  | reference =>
      let price ← price s reference side i projected
      return decide (Scalar.relativeDistance price projected ≤ options.tolerance)

theorem touches_eq_ok [LawfulScalar α] (wf : s.WellFormed) (inside : i < s.size)
    (options : TouchOptions α) (side : Side) (projected : α) :
    touches options s side i projected = .ok (options.touches side (s.barAt i) projected) := by
  unfold touches TouchOptions.touches
  cases options.reference with
  | range =>
      dsimp only
      rw [bar_eq_ok wf.columns inside]
      rfl
  | close | wick =>
      dsimp only
      rw [price_eq_ok wf inside]
      rfl

def breaks (options : TouchOptions α) (s : Series α) (side : Side) (i : Nat) (projected : α) :
    Except (Halt α) Bool := do
  let price ← match options.breakRule with
    | .off => return false
    | .close => entry s.closings i
    | .wick => extreme s side i
  let margin := options.breakTolerance * Scalar.abs projected
  match side with
  | .low => return decide (price < projected - margin)
  | .high => return decide (projected + margin < price)

theorem breaks_eq_ok (wf : s.WellFormed) (inside : i < s.size) (options : TouchOptions α)
    (side : Side) (projected : α) :
    breaks options s side i projected = .ok (options.breaks side (s.barAt i) projected) := by
  unfold breaks TouchOptions.breaks
  cases options.breakRule with
  | off => rfl
  | close =>
      rw [closing_eq_ok wf inside]
      cases side with
      | low | high => rfl
  | wick =>
      rw [extreme_eq_ok wf inside]
      cases side with
      | low | high => rfl

/-- What a bar is to a line: the time at which it touches it, and whether it breaks it. -/
def judge (options : TouchOptions α) (s : Series α) (line : Line α) (i : Nat) :
    Except (Halt α) (Option Int × Bool) := do
  let projected := line.atBar i
  if ← touches options s line.side i projected then
    return (some (← entry s.times i), false)
  else if line.start ≤ i then
    return (none, ← breaks options s line.side i projected)
  else
    return (none, false)

def verdict (options : TouchOptions α) (s : Series α) (line : Line α) (i : Nat) :
    Option Int × Bool :=
  (if line.touchesBar options (s.barAt i) i then some (s.barAt i).time else none,
    line.brokenBy options (s.barAt i) i)

theorem judge_eq_ok [LawfulScalar α] (wf : s.WellFormed) (inside : i < s.size)
    (options : TouchOptions α) (line : Line α) :
    judge options s line i = .ok (verdict options s line i) := by
  unfold judge verdict
  dsimp only
  rw [touches_eq_ok wf inside, ok_bind]
  change (if line.touchesBar options (s.barAt i) i = true then _ else _) = _
  unfold Line.brokenBy
  cases line.touchesBar options (s.barAt i) i with
  | true =>
      rw [if_pos rfl, entry_of_lt inside 0]
      rfl
  | false =>
      rw [if_neg Bool.false_ne_true, breaks_eq_ok wf inside]
      by_cases started : line.start ≤ i
      · rw [if_pos started, decide_eq_true started]
        rfl
      · rw [if_neg started, decide_eq_false started]
        rfl

theorem touchTimes_eq (options : TouchOptions α) (s : Series α) (line : Line α) :
    line.touchTimes options s.bars
      = .ofList (((List.range s.size).map (verdict options s line)).filterMap (·.1)) := by
  rw [Line.touchTimes, Series.zipIdx_bars, List.filter_map, List.map_map, List.filterMap_map,
    ← List.filterMap_eq_filter, List.map_filterMap]
  congr 2
  funext i
  by_cases touching : line.touchesBar options (s.barAt i) i = true
  · simp [verdict, Option.guard, touching]
  · simp [verdict, Option.guard, touching]

theorem breakCount_eq (options : TouchOptions α) (s : Series α) (line : Line α) :
    line.breakCount options s.bars
      = ((List.range s.size).map (verdict options s line)).countP (·.2) := by
  rw [Line.breakCount, Series.zipIdx_bars, List.countP_map, List.countP_map]
  rfl

/-- The bar at a time as a point to be fitted. -/
def touchPoint? (line : Line α) (s : Series α) (reference : Reference) (time : Int) :
    Except (Halt α) (Option (α × α)) := do
  match s.indexOf? time with
  | none => return none
  | some i => return some ((i : α), ← price s reference line.side i (line.atBar i))

theorem touchPoint?_eq_ok [LawfulScalar α] (wf : s.WellFormed) (line : Line α)
    (reference : Reference) (time : Int) :
    touchPoint? line s reference time = .ok ((s.indexOf? time).bind fun i =>
      some ((i : α), reference.price line.side (s.barAt i) (line.atBar i))) := by
  unfold touchPoint?
  cases found : s.indexOf? time with
  | none => rfl
  | some i =>
      have entry := (Series.indexOf?_eq_some_iff wf.ascending).mp found
      dsimp only
      rw [price_eq_ok wf (Array.getElem?_eq_some_iff.mp entry).1]
      rfl

def touchFit? (line : Line α) (s : Series α) (reference : Reference) :
    Except (Halt α) (Option α) := do
  let points ← line.touches.toList.filterMapM (touchPoint? line s reference)
  return (← fit? points).map (·.rSquared)

theorem touchFit?_eq_ok [LawfulScalar α] (wf : s.WellFormed) (line : Line α)
    (reference : Reference) : touchFit? line s reference = .ok (line.touchFit? s reference) := by
  unfold touchFit?
  rw [filterMapM_eq_ok fun time _ => touchPoint?_eq_ok wf line reference time, ok_bind, fit?_eq_ok]
  rfl

def measure (options : TouchOptions α) (s : Series α) (line : Line α) :
    Except (Halt α) (Line α) := do
  let judged ← (List.range s.size).mapM (judge options s line)
  let measured :=
    { line with
      touches := .ofList (judged.filterMap (·.1))
      violations := judged.countP (·.2) }
  if options.regression then
    let fit ← touchFit? measured s options.reference
    return { measured with rSquared := fit.getD line.rSquared }
  else
    return measured

theorem measure_eq_ok [LawfulScalar α] (wf : s.WellFormed) (options : TouchOptions α)
    (line : Line α) : measure options s line = .ok (line.measure options s s.bars) := by
  unfold measure Line.measure
  rw [mapM_eq_ok fun i mem => judge_eq_ok wf (List.mem_range.mp mem) options line, ok_bind,
    touchTimes_eq, breakCount_eq]
  dsimp only
  cases options.regression with
  | true =>
      rw [if_pos rfl, if_pos rfl, touchFit?_eq_ok wf]
      rfl
  | false => rfl

end Touches

end Checked

end Trendline
