import Trendline.Proofs.Checked.Lines
import Trendline.Proofs.Double.Order

/-!
Swings as the strict extremes of windows. Where nothing is thinned out, a side has one swing for
every bar with a whole window around it whose price lies strictly beyond all others of the window,
and the prices of the other side have no say in it.
-/

namespace Trendline

variable {α : Type} [Scalar α]

namespace Series

/-- The price that swings on one side are measured on, at the bar in position `i`. -/
def priceAt (s : Series α) (source : PivotSource) (side : Side) (i : Nat) : α :=
  (s.pivotPrices source side).getD i 0

/-- The window of `lookback` bars to either side of bar `i` is inside the series, and the price of
the bar lies strictly beyond that of every other bar of the window. -/
structure IsExtreme (s : Series α) (source : PivotSource) (lookback : Nat) (side : Side) (i : Nat) :
    Prop where
  before : lookback ≤ i
  after : i + lookback < s.size
  beyond : ∀ j, i - lookback ≤ j → j ≤ i + lookback → j ≠ i →
    side.Beyond (s.priceAt source side i) (s.priceAt source side j)

/-- A list of swings of one side: one for each extreme, in the order of the bars, with what the
series holds there. -/
structure ListsExtremes (s : Series α) (source : PivotSource) (lookback : Nat) (side : Side)
    (swings : List (Pivot α)) : Prop where
  ascending : swings.Pairwise (·.index < ·.index)
  mem_iff : ∀ i, i ∈ swings.map (·.index) ↔ s.IsExtreme source lookback side i
  side_eq : ∀ q ∈ swings, q.side = side
  time_eq : ∀ q ∈ swings, s.times[q.index]? = some q.time
  price_eq : ∀ q ∈ swings, q.price = s.priceAt source side q.index

variable {s s' : Series α} {source : PivotSource} {lookback : Nat} {side : Side}

theorem pivotPrices_getElem? (wf : s.WellFormed) (source : PivotSource) (side : Side) {i : Nat}
    (inside : i < s.size) :
    (s.pivotPrices source side)[i]? = some (s.priceAt source side i) := by
  rw [← wf.pivotPrices_size source side] at inside
  rw [priceAt, Array.getD_eq_getD_getElem?, Array.getElem?_eq_getElem inside, Option.getD_some]

theorem swing?_eq_some_iff_isExtreme [LawfulScalar α] (wf : s.WellFormed) (positive : 0 < lookback)
    {i : Nat} {q : Pivot α} (before : lookback ≤ i) (after : i + lookback < s.size) :
    s.swing? source lookback i side = some q ↔
      q.index = i ∧ q.side = side ∧ s.times[i]? = some q.time ∧
        q.price = s.priceAt source side i ∧ s.IsExtreme source lookback side i := by
  rw [swing?_eq_some_iff_beyond wf positive before after,
    pivotPrices_getElem? wf source side (by omega : i < s.size), Option.some.injEq]
  refine and_congr_right' (and_congr_right' (and_congr_right' ?_))
  constructor
  · intro ⟨price, beyond⟩
    refine ⟨price.symm, before, after, fun j low high other => ?_⟩
    rw [price]
    exact beyond j _ (by omega) high other (pivotPrices_getElem? wf source side (by omega))
  · intro ⟨price, extreme⟩
    refine ⟨price.symm, fun j y low high other found => ?_⟩
    rw [pivotPrices_getElem? wf source side (by omega), Option.some.injEq] at found
    rw [price, ← found]
    exact extreme.beyond j (by omega) high other

theorem listsExtremes_rawSwingsOn [LawfulScalar α] (wf : s.WellFormed) (positive : 0 < lookback)
    (source : PivotSource) (side : Side) :
    s.ListsExtremes source lookback side (s.rawSwingsOn source lookback side) := by
  have spec {q : Pivot α} (mem : q ∈ s.rawSwingsOn source lookback side) := by
    obtain ⟨before, after, found⟩ := mem_rawSwingsOn_iff.mp mem
    exact (swing?_eq_some_iff_isExtreme wf positive before after).mp found
  refine ⟨s.rawSwingsOn_ascending source lookback side, fun i => ⟨?_, fun extreme => ?_⟩,
    fun q mem => (spec mem).2.1, fun q mem => (spec mem).2.2.1, fun q mem => (spec mem).2.2.2.1⟩
  · intro listed
    obtain ⟨q, mem, rfl⟩ := List.mem_map.mp listed
    exact (spec mem).2.2.2.2
  · have inside : i < s.times.size := (Nat.le_add_right i lookback).trans_lt extreme.after
    let q : Pivot α := ⟨i, s.times[i], s.priceAt source side i, side⟩
    have found : s.swing? source lookback i side = some q :=
      (swing?_eq_some_iff_isExtreme wf positive extreme.before extreme.after).mpr
        ⟨rfl, rfl, Array.getElem?_eq_getElem inside, rfl, extreme⟩
    have mem : q ∈ s.rawSwingsOn source lookback side :=
      mem_rawSwingsOn_iff.mpr ⟨extreme.before, extreme.after, found⟩
    exact List.mem_map.mpr ⟨q, mem, rfl⟩

namespace ListsExtremes

variable {xs ys : List (Pivot α)}

theorem subset (hx : s.ListsExtremes source lookback side xs)
    (hy : s.ListsExtremes source lookback side ys) {q : Pivot α} (mem : q ∈ xs) : q ∈ ys := by
  have extreme := (hx.mem_iff q.index).mp (List.mem_map_of_mem mem)
  obtain ⟨r, listed, index⟩ := List.mem_map.mp ((hy.mem_iff q.index).mpr extreme)
  have time : r.time = q.time := by
    rw [← Option.some.injEq, ← hy.time_eq r listed, ← hx.time_eq q mem, index]
  have price : r.price = q.price := by rw [hy.price_eq r listed, hx.price_eq q mem, index]
  have side : r.side = q.side := by rw [hy.side_eq r listed, hx.side_eq q mem]
  have same : r = q := by
    cases r
    cases q
    simp_all
  exact same ▸ listed

/-- What a list of extremes must be like leaves no choice. -/
theorem unique (hx : s.ListsExtremes source lookback side xs)
    (hy : s.ListsExtremes source lookback side ys) : xs = ys := by
  have : Std.Irrefl fun q r : Pivot α => q.index < r.index := ⟨fun q => Nat.lt_irrefl q.index⟩
  have : Std.Antisymm fun q r : Pivot α => q.index < r.index :=
    ⟨fun q r less greater => (Nat.lt_asymm less greater).elim⟩
  exact hx.ascending.eq_of_mem_iff hy.ascending fun q => ⟨hx.subset hy, hy.subset hx⟩

/-- Neither the other side nor anything but times and prices is asked for. -/
theorem of_same (h : s'.ListsExtremes source lookback side xs) (times : s'.times = s.times)
    (prices : s'.pivotPrices source side = s.pivotPrices source side) :
    s.ListsExtremes source lookback side xs := by
  have priceAt (i : Nat) : s'.priceAt source side i = s.priceAt source side i := by
    rw [Series.priceAt, prices, Series.priceAt]
  have size : s'.size = s.size := by rw [Series.size, times, Series.size]
  have extreme (i : Nat) :
      s'.IsExtreme source lookback side i ↔ s.IsExtreme source lookback side i := by
    constructor
    all_goals
      intro ⟨before, after, beyond⟩
      exact ⟨before, by omega, by simpa only [priceAt] using beyond⟩
  refine ⟨h.ascending, fun i => (h.mem_iff i).trans (extreme i), h.side_eq, ?_, ?_⟩
  · rw [← times]
    exact h.time_eq
  · simpa only [priceAt] using h.price_eq

theorem eq_nil (h : s.ListsExtremes source lookback side xs) (short : s.size < 2 * lookback + 1) :
    xs = [] := by
  rw [List.eq_nil_iff_forall_not_mem]
  intro q mem
  have extreme := (h.mem_iff q.index).mp (List.mem_map_of_mem mem)
  have before := extreme.before
  have after := extreme.after
  omega

end ListsExtremes

end Series

/-- Where nothing is thinned out, the swings of a series are the strict extremes of its windows, for
windows of any width that a word holds. -/
theorem swings_list_extremes {s : Series Float} {lookback : Nat} {options : PivotOptions Float}
    (valid : s.validate = .ok ()) (positive : 1 ≤ lookback) (off : ¬ 0 < options.dedupe) :
    ∃ swings, s.swings lookback options = .ok swings ∧
      (s.size < wordCount → lookback < wordCount →
        Checked.swings s lookback options = .ok swings) ∧
      s.ListsExtremes options.source lookback .high swings.highs ∧
      s.ListsExtremes options.source lookback .low swings.lows ∧
      (∀ (s' : Series Float) (swings' : Swings Float), s'.validate = .ok () →
        s'.times = s.times → s'.swings lookback options = .ok swings' →
        (s'.pivotPrices options.source .high = s.pivotPrices options.source .high →
          swings'.highs = swings.highs) ∧
        (s'.pivotPrices options.source .low = s.pivotPrices options.source .low →
          swings'.lows = swings.lows)) ∧
      (s.size < 2 * lookback + 1 → swings.highs = [] ∧ swings.lows = []) := by
  have wf := Series.validate_eq_ok_iff.mp valid
  have lists {s : Series Float} (wf : s.WellFormed) (side : Side) :
      s.ListsExtremes options.source lookback side (s.swingsOn lookback options side) := by
    rw [Series.swingsOn_eq_rawSwingsOn off]
    exact Series.listsExtremes_rawSwingsOn wf positive options.source side
  refine ⟨_, Series.swings_eq_ok positive, ?_, lists wf .high, lists wf .low, ?_, ?_⟩
  · intro short narrow
    rw [Checked.swings_eq wf short narrow, Series.swings_eq_ok positive]
    rfl
  · intro s' swings' valid' times found
    have wf' := Series.validate_eq_ok_iff.mp valid'
    rw [Series.swings_eq_ok positive, Except.ok.injEq] at found
    subst found
    exact ⟨fun prices => ((lists wf' .high).of_same times prices).unique (lists wf .high),
      fun prices => ((lists wf' .low).of_same times prices).unique (lists wf .low)⟩
  · exact fun short => ⟨(lists wf .high).eq_nil short, (lists wf .low).eq_nil short⟩

/-- Five bars of which the middle one reaches out on both sides. -/
def outsideBar : Series Float where
  symbol := "outside"
  interval := 60
  times := #[0, 60, 120, 180, 240]
  openings := #[10, 10, 10, 10, 10]
  highs := #[11, 11, 20, 11, 11]
  lows := #[9, 9, 1, 9, 9]
  closings := #[10, 10, 10, 10, 10]
  volumes := #[1, 1, 1, 1, 1]

def everySwing : PivotOptions Float :=
  ⟨.highLow, 0⟩

/-- The middle bar is a swing of either side. -/
theorem swings_list_extremes_outside :
    (outsideBar.validate = .ok () ∧ 1 ≤ 2 ∧ ¬ 0 < everySwing.dedupe) ∧
    (outsideBar.swings 2 everySwing).toOption.map
      (fun swings => (swings.highs.map (·.index), swings.lows.map (·.index))) = some ([2], [2]) ∧
    ∃ swings, outsideBar.swings 2 everySwing = .ok swings ∧
      (outsideBar.size < wordCount → 2 < wordCount →
        Checked.swings outsideBar 2 everySwing = .ok swings) ∧
      outsideBar.ListsExtremes .highLow 2 .high swings.highs ∧
      outsideBar.ListsExtremes .highLow 2 .low swings.lows ∧
      (∀ (s' : Series Float) (swings' : Swings Float), s'.validate = .ok () →
        s'.times = outsideBar.times → s'.swings 2 everySwing = .ok swings' →
        (s'.pivotPrices .highLow .high = outsideBar.pivotPrices .highLow .high →
          swings'.highs = swings.highs) ∧
        (s'.pivotPrices .highLow .low = outsideBar.pivotPrices .highLow .low →
          swings'.lows = swings.lows)) ∧
      (outsideBar.size < 2 * 2 + 1 → swings.highs = [] ∧ swings.lows = []) :=
  ⟨by decide +kernel, by decide +kernel,
    swings_list_extremes (by decide +kernel) (by decide) (by decide +kernel)⟩

end Trendline
