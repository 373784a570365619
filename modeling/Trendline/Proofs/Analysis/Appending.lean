import Trendline.Proofs.Analysis.Windows

/-!
Swings of a series that grows. Whether a bar is a swing is settled once `lookback` bars have
followed it, and what is thinned out depends on earlier swings alone; so further bars add swings at
the end and leave those that were found as they are.
-/

namespace Trendline

section Lists

variable {β : Type} {near : β → β → Bool}

/-- What comes later has no say in what is taken before. -/
theorem thinOut_append (taken xs ys : List β) :
    thinOut near taken (xs ++ ys)
      = thinOut near taken xs ++ thinOut near ((thinOut near taken xs).reverse ++ taken) ys := by
  fun_induction thinOut near taken xs with
  | case1 taken => rfl
  | case2 taken q rest close ih => rw [List.cons_append, thinOut, if_pos close, ih]
  | case3 taken q rest clear ih =>
      rw [List.cons_append, thinOut, if_neg clear, ih, List.reverse_cons, List.append_assoc]
      rfl

theorem getElem?_stretch (xs : Array β) (start stop k : Nat) :
    (xs.extract start stop)[k]? = if start + k < stop then xs[start + k]? else none := by
  rw [Array.getElem?_extract]
  split_ifs with inside before before
  · rfl
  · omega
  · rw [Array.getElem?_eq_none (by omega)]
  · rfl

theorem extract_congr {xs ys : Array β} {start stop : Nat}
    (same : ∀ j < stop, xs[j]? = ys[j]?) : xs.extract start stop = ys.extract start stop := by
  apply Array.ext_getElem?
  intro k
  rw [getElem?_stretch, getElem?_stretch]
  split_ifs with before
  · exact same _ before
  · rfl

end Lists

namespace Series

variable {α : Type}

/-- The first `n` bars of a series. -/
def firstBars (s : Series α) (n : Nat) : Series α :=
  { s with
    times := s.times.take n
    openings := s.openings.take n
    highs := s.highs.take n
    lows := s.lows.take n
    closings := s.closings.take n
    volumes := s.volumes.take n }

theorem size_firstBars {s : Series α} {n : Nat} (within : n ≤ s.size) :
    (s.firstBars n).size = n := by
  rw [size, firstBars, Array.take_eq_extract, Array.size_extract, Nat.sub_zero]
  exact Nat.min_eq_left within

theorem columnSizes_firstBars (s : Series α) (n : Nat) :
    (s.firstBars n).columnSizes = s.columnSizes.map fun c => (c.1, min n c.2) := by
  simp [columnSizes, firstBars]

variable [Scalar α]

/-- A series whose bars are the first `n` of another. -/
structure Begins (earlier s : Series α) (n : Nat) : Prop where
  size_eq : earlier.size = n
  size_le : n ≤ s.size
  barAt_eq : ∀ i < n, earlier.barAt i = s.barAt i

theorem begins_of_bars {earlier s : Series α} {n : Nat} (within : n ≤ s.size)
    (bars : earlier.bars = s.bars.take n) : earlier.Begins s n := by
  have size : earlier.size = n := by
    rw [← length_bars, bars, List.length_take, length_bars, Nat.min_eq_left within]
  refine ⟨size, within, fun i inside => ?_⟩
  have entry : earlier.bars[i]? = s.bars[i]? := by rw [bars, List.getElem?_take_of_lt inside]
  simpa [Series.bars, size, inside, inside.trans_le within] using entry

theorem firstBars_begins {s : Series α} {n : Nat} (within : n ≤ s.size) :
    (s.firstBars n).Begins s n := by
  have entry {β : Type} (column : Array β) (other : β) {i : Nat} (inside : i < n) :
      (column.take n).getD i other = column.getD i other := by
    rw [Array.getD_eq_getD_getElem?, Array.getD_eq_getD_getElem?, Array.take_eq_extract,
      getElem?_stretch, Nat.zero_add, if_pos inside]
  refine ⟨size_firstBars within, within, fun i inside => ?_⟩
  simp only [barAt, firstBars, entry _ _ inside]

theorem bars_firstBars {s : Series α} {n : Nat} (within : n ≤ s.size) :
    (s.firstBars n).bars = s.bars.take n := by
  rw [bars, size_firstBars within, bars, ← List.map_take, List.take_range,
    Nat.min_eq_left within]
  apply List.map_congr_left
  intro i inside
  exact (firstBars_begins within).barAt_eq i (List.mem_range.mp inside)

theorem WellFormed.firstBars {s : Series α} {n : Nat} (wf : s.WellFormed) (some : 1 ≤ n)
    (within : n ≤ s.size) : (s.firstBars n).WellFormed := by
  have begins := firstBars_begins within
  refine ⟨?_, ?_, ?_, ?_, ?_⟩
  · rw [begins.size_eq]
    exact some
  · rw [columnSizes_firstBars, List.forall_mem_map, begins.size_eq]
    intro c column
    dsimp only
    rw [wf.columns c column, Nat.min_eq_left within]
  · have times : (s.firstBars n).times.toList = s.times.toList.take n := by
      simp [Series.firstBars, List.extract_eq_take_drop]
    rw [times]
    exact wf.ascending.sublist (List.take_sublist n _)
  · intro i inside
    rw [begins.size_eq] at inside
    rw [begins.barAt_eq i inside]
    exact wf.finite i (inside.trans_le within)
  · intro i inside
    rw [begins.size_eq] at inside
    rw [begins.barAt_eq i inside]
    exact wf.upright i (inside.trans_le within)

/-- A swing depends on the bars of its window and on nothing else. -/
theorem swing?_congr {s s' : Series α} {source : PivotSource} {lookback i : Nat} {side : Side}
    (times : s'.times[i]? = s.times[i]?)
    (prices : ∀ j ≤ i + lookback,
      (s'.pivotPrices source side)[j]? = (s.pivotPrices source side)[j]?) :
    s'.swing? source lookback i side = s.swing? source lookback i side := by
  have before : (s'.pivotPrices source side).extract (i - lookback) i
      = (s.pivotPrices source side).extract (i - lookback) i :=
    extract_congr fun j less => prices j (by omega)
  have after : (s'.pivotPrices source side).extract (i + 1) (i + 1 + lookback)
      = (s.pivotPrices source side).extract (i + 1) (i + 1 + lookback) :=
    extract_congr fun j less => prices j (by omega)
  rw [swing?, swing?, times, prices i (Nat.le_add_right i lookback), before, after]

theorem index_mem_of_mem_flatMap {s : Series α} {source : PivotSource} {lookback : Nat}
    {positions : List Nat} {q : Pivot α}
    (mem : q ∈ positions.flatMap fun i =>
      [Side.high, Side.low].filterMap (s.swing? source lookback i)) : q.index ∈ positions := by
  obtain ⟨i, inside, listed⟩ := List.mem_flatMap.mp mem
  obtain ⟨side, -, found⟩ := List.mem_filterMap.mp listed
  rw [(swing?_eq_some_iff.mp found).1]
  exact inside

namespace Begins

variable {earlier s : Series α} {n lookback : Nat} {source : PivotSource} {side : Side}

theorem time?_eq (h : earlier.Begins s n) {i : Nat} (inside : i < n) :
    earlier.times[i]? = s.times[i]? := by
  have time (s : Series α) (inside : i < s.size) : s.times[i]? = some (s.barAt i).time := by
    rw [barAt, Array.getD_eq_getD_getElem?, Array.getElem?_eq_getElem inside, Option.getD_some]
  rw [time earlier (h.size_eq ▸ inside), time s (inside.trans_le h.size_le), h.barAt_eq i inside]

theorem price?_eq (h : earlier.Begins s n) (wf' : earlier.WellFormed) (wf : s.WellFormed) {i : Nat}
    (inside : i < n) :
    (earlier.pivotPrices source side)[i]? = (s.pivotPrices source side)[i]? := by
  have bar := h.barAt_eq i inside
  have price : earlier.priceAt source side i = s.priceAt source side i := by
    cases source with
    | close => exact congrArg Bar.closing bar
    | highLow =>
        cases side with
        | high => exact congrArg Bar.high bar
        | low => exact congrArg Bar.low bar
  rw [pivotPrices_getElem? wf' source side (h.size_eq ▸ inside),
    pivotPrices_getElem? wf source side (inside.trans_le h.size_le), price]

/-- Where the window ends inside the shorter series, both have the same swings. -/
theorem rawSwings_eq (h : earlier.Begins s n) (wf' : earlier.WellFormed) (wf : s.WellFormed) :
    earlier.rawSwings source lookback
      = (List.range' lookback (n - 2 * lookback)).flatMap fun i =>
          [Side.high, Side.low].filterMap (s.swing? source lookback i) := by
  rw [rawSwings, h.size_eq]
  apply List.flatMap_congr
  intro i mem
  rw [List.mem_range'_1] at mem
  apply List.filterMap_congr
  intro side _
  exact swing?_congr (h.time?_eq (by omega)) fun j near => h.price?_eq wf' wf (by omega)

/-- The longer series has the swings of the shorter one and others, which further bars have
settled. -/
theorem exists_rawSwings_eq (h : earlier.Begins s n) (wf' : earlier.WellFormed) (wf : s.WellFormed)
    (source : PivotSource) (lookback : Nat) :
    ∃ more, s.rawSwings source lookback = earlier.rawSwings source lookback ++ more ∧
      (∀ q ∈ earlier.rawSwings source lookback, q.index + lookback < n) ∧
      ∀ q ∈ more, n ≤ q.index + lookback := by
  have within := h.size_le
  have joined : List.range' lookback (n - 2 * lookback) ++
      List.range' (lookback + (n - 2 * lookback)) (s.size - 2 * lookback - (n - 2 * lookback))
        = List.range' lookback (s.size - 2 * lookback) := by
    have parts := @List.range'_append lookback (n - 2 * lookback)
      (s.size - 2 * lookback - (n - 2 * lookback)) 1
    rw [Nat.one_mul, show n - 2 * lookback + (s.size - 2 * lookback - (n - 2 * lookback))
      = s.size - 2 * lookback by omega] at parts
    exact parts
  rw [h.rawSwings_eq wf' wf, rawSwings, ← joined, List.flatMap_append]
  refine ⟨_, rfl, fun q mem => ?_, fun q mem => ?_⟩
  all_goals
    have inside := List.mem_range'_1.mp (index_mem_of_mem_flatMap mem)
    omega

/-- What is taken of the swings of the shorter series is what is taken of the longer one's there. -/
theorem swingsOn_eq (h : earlier.Begins s n) (wf' : earlier.WellFormed) (wf : s.WellFormed)
    (options : PivotOptions α) (side : Side) :
    earlier.swingsOn lookback options side
        = (s.swingsOn lookback options side).filter (·.index + lookback < n) ∧
      earlier.swingsOn lookback options side <+: s.swingsOn lookback options side := by
  obtain ⟨more, split, settled, unsettled⟩ :=
    h.exists_rawSwings_eq wf' wf options.source lookback
  have first : s.swingsOn lookback options side = earlier.swingsOn lookback options side ++
      (thinOut options.near ((thinOut options.near [] (earlier.rawSwings options.source
        lookback)).reverse ++ []) more).filter (·.side = side) := by
    rw [swingsOn, swingsOn, split, thinOut_append, List.filter_append]
  have kept : (earlier.swingsOn lookback options side).filter (·.index + lookback < n)
      = earlier.swingsOn lookback options side := by
    refine List.filter_eq_self.mpr fun q mem => decide_eq_true (settled q ?_)
    exact (thinOut_sublist _ _).subset (List.mem_of_mem_filter mem)
  rw [first, List.filter_append, kept, List.filter_eq_nil_iff.mpr, List.append_nil]
  · exact ⟨rfl, List.prefix_append _ _⟩
  · intro q mem
    have later := unsettled q ((thinOut_sublist _ _).subset (List.mem_of_mem_filter mem))
    simpa using later

end Begins

end Series

/-- What has been found in the first bars of a series are the swings of the whole that their windows
settle, in the same order, also where some are thinned out: further bars remove none, move none and
add only later ones. -/
theorem swings_never_repaint {s : Series Float} {n lookback : Nat} {options : PivotOptions Float}
    (valid : s.validate = .ok ()) (some : 1 ≤ n) (within : n ≤ s.size) (positive : 1 ≤ lookback) :
    ((s.firstBars n).validate = .ok () ∧ (s.firstBars n).bars = s.bars.take n) ∧
    ∃ swings, s.swings lookback options = .ok swings ∧
      ∀ earlier : Series Float, earlier.validate = .ok () → earlier.bars = s.bars.take n →
        ∃ found, earlier.swings lookback options = .ok found ∧
          found.highs = swings.highs.filter (·.index + lookback < n) ∧
          found.lows = swings.lows.filter (·.index + lookback < n) ∧
          found.highs <+: swings.highs ∧ found.lows <+: swings.lows := by
  have wf := Series.validate_eq_ok_iff.mp valid
  refine ⟨⟨Series.validate_eq_ok_iff.mpr (wf.firstBars some within),
    Series.bars_firstBars within⟩, _, Series.swings_eq_ok positive, ?_⟩
  intro earlier valid' bars
  have wf' := Series.validate_eq_ok_iff.mp valid'
  have begins := Series.begins_of_bars within bars
  obtain ⟨highs, highsFirst⟩ := begins.swingsOn_eq wf' wf options .high
  obtain ⟨lows, lowsFirst⟩ := begins.swingsOn_eq wf' wf options .low
  exact ⟨_, Series.swings_eq_ok positive, highs, lows, highsFirst, lowsFirst⟩

/-- After seven bars one top and one bottom are found, and both stay when the others come. -/
theorem swings_never_repaint_tops :
    (threeTops.validate = .ok () ∧ 1 ≤ 7 ∧ 7 ≤ threeTops.size ∧ 1 ≤ 1) ∧
    ((threeTops.swings 1 distinctSwings).toOption.map
        (fun swings => (swings.highs.map (·.index), swings.lows.map (·.index)))
          = some ([1, 7], [3, 6]) ∧
      ((threeTops.firstBars 7).swings 1 distinctSwings).toOption.map
        (fun swings => (swings.highs.map (·.index), swings.lows.map (·.index)))
          = some ([1], [3])) ∧
    ((threeTops.firstBars 7).validate = .ok () ∧
      (threeTops.firstBars 7).bars = threeTops.bars.take 7) ∧
    ∃ swings, threeTops.swings 1 distinctSwings = .ok swings ∧
      ∀ earlier : Series Float, earlier.validate = .ok () → earlier.bars = threeTops.bars.take 7 →
        ∃ found, earlier.swings 1 distinctSwings = .ok found ∧
          found.highs = swings.highs.filter (·.index + 1 < 7) ∧
          found.lows = swings.lows.filter (·.index + 1 < 7) ∧
          found.highs <+: swings.highs ∧ found.lows <+: swings.lows :=
  ⟨by decide +kernel, by decide +kernel,
    swings_never_repaint (by decide +kernel) (by decide) (by decide +kernel) (by decide)⟩

end Trendline
