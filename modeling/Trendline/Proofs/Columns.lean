import Trendline.Proofs.Validity

/-!
Bars in columns. The columns of some bars read back as these bars, and a series that obeys the rules
is the columns of its bars, up to its symbol and the usual time between them.
-/

namespace Trendline

section Entries

variable {β : Type} {xs : Array β} {n : Nat}

theorem map_getD_range (size : xs.size = n) (default : β) :
    (List.range n).map (fun i => xs.getD i default) = xs.toList := by
  subst size
  refine List.ext_getElem (by simp) fun i _ inside => ?_
  rw [Array.length_toList] at inside
  simp [inside]

theorem mem_toList_iff_getD (size : xs.size = n) (default : β) {x : β} :
    x ∈ xs.toList ↔ ∃ i < n, xs.getD i default = x := by
  simp [← map_getD_range size default]

end Entries

variable {α : Type} [Scalar α]

namespace Series

variable {bars : List (Bar α)} {symbol : String} {s : Series α}

theorem barAt_columnsOf {i : Nat} (inside : i < bars.length) :
    (columnsOf symbol bars).barAt i = bars[i] := by
  simp [columnsOf, barAt, inside]

theorem bars_columnsOf (symbol : String) (bars : List (Bar α)) :
    (columnsOf symbol bars).bars = bars := by
  have size : (columnsOf symbol bars).size = bars.length := by
    simp [columnsOf, Series.size]
  rw [Series.bars, size]
  apply List.ext_getElem
  · simp
  · intro i _ inside
    rw [List.getElem_map, List.getElem_range, barAt_columnsOf inside]

theorem ofBars_eq_ok_iff :
    ofBars symbol bars = .ok s ↔ (columnsOf symbol bars).WellFormed ∧ columnsOf symbol bars = s := by
  rw [← validate_eq_ok_iff]
  unfold ofBars
  cases valid : (columnsOf symbol bars).validate with
  | error e => simp [valid, bind, Except.bind]
  | ok => simp [valid, bind, Except.bind, pure, Except.pure]

namespace WellFormed

/-- The bars of a series hold what its columns hold. -/
theorem columnsOf_bars (wf : s.WellFormed) (symbol : String) :
    columnsOf symbol s.bars = { s with symbol, interval := usualGap s.times.toList } := by
  have columns := wf.columns
  simp only [columnSizes, List.forall_mem_cons] at columns
  obtain ⟨openings, highs, lows, closings, volumes, -⟩ := columns
  have times : s.times.size = s.size := rfl
  simp only [columnsOf, bars, List.map_map, Function.comp_def, barAt, map_getD_range times,
    map_getD_range openings, map_getD_range highs, map_getD_range lows, map_getD_range closings,
    map_getD_range volumes, Array.toArray_toList]

/-- The symbol and the interval of a series are not among what the rules are about. -/
theorem relabelled (wf : s.WellFormed) (symbol : String) (interval : Int) :
    Series.WellFormed { s with symbol, interval } :=
  ⟨wf.size_pos, wf.columns, wf.ascending, wf.finite, wf.upright⟩

theorem ofBars_bars (wf : s.WellFormed) (symbol : String) :
    ofBars symbol s.bars = .ok { s with symbol, interval := usualGap s.times.toList } := by
  rw [ofBars_eq_ok_iff, wf.columnsOf_bars]
  exact ⟨wf.relabelled _ _, rfl⟩

end WellFormed

end Series

end Trendline
