import Trendline.Analysis
import Trendline.Proofs.Analysis.Swings

/-!
What the lines of one lookback keep: they start and end at swings with room on either side, they are
touched by bars of the series, and only the bars from their start on can break them. A line found
with a wide window is also found with a narrow one.
-/

namespace Trendline

section Lists

variable {β : Type}

theorem of_mem_pairs {R : β → β → Prop} {xs : List β} {x y : β} (h : xs.Pairwise R)
    (mem : (x, y) ∈ pairs xs) : x ∈ xs ∧ y ∈ xs ∧ R x y := by
  induction xs with
  | nil => cases mem
  | cons z zs ih =>
      obtain ⟨first, later⟩ := List.pairwise_cons.mp h
      simp only [pairs, List.mem_append, List.mem_map, Prod.mk.injEq] at mem
      rcases mem with ⟨w, hw, rfl, rfl⟩ | mem
      · exact ⟨List.mem_cons_self, List.mem_cons_of_mem _ hw, first w hw⟩
      · obtain ⟨hx, hy, rel⟩ := ih later mem
        exact ⟨List.mem_cons_of_mem _ hx, List.mem_cons_of_mem _ hy, rel⟩

theorem pairs_sublist {xs ys : List β} (h : xs.Sublist ys) : (pairs xs).Sublist (pairs ys) := by
  induction h with
  | slnil => exact .slnil
  | cons y _ ih => exact ih.trans (List.sublist_append_right _ _)
  | cons_cons y h ih => exact (h.map _).append ih

theorem pairs_map {γ : Type} (g : β → γ) (xs : List β) :
    pairs (xs.map g) = (pairs xs).map (Prod.map g g) := by
  induction xs with
  | nil => rfl
  | cons x xs ih =>
      simp only [List.map_cons, pairs, ih, List.map_append, List.map_map]
      rfl

/-- So many positions come from `start` on. -/
theorem countP_zipIdx_le (xs : List β) (start : Nat) {broken : β × Nat → Bool}
    (late : ∀ x i, broken (x, i) = true → start ≤ i) :
    xs.zipIdx.countP broken ≤ xs.length - start := by
  have below (n : Nat) : (List.range n).countP (start ≤ ·) = n - start := by
    induction n with
    | zero => simp
    | succ n ih =>
        rw [List.range_succ, List.countP_append, ih, List.countP_singleton]
        by_cases h : start ≤ n
        · rw [if_pos (decide_eq_true h)]
          omega
        · rw [if_neg (by simp [h])]
          omega
  calc xs.zipIdx.countP broken
      ≤ xs.zipIdx.countP (fun x => start ≤ x.2) :=
        List.countP_mono_left fun x _ h => decide_eq_true (late x.1 x.2 h)
    _ = (xs.zipIdx.map Prod.snd).countP (start ≤ ·) := by
        rw [List.countP_map]
        rfl
    _ = xs.length - start := by rw [List.zipIdx_map_snd, ← List.range_eq_range', below]

end Lists

variable {α : Type}

/-- The line as found with another window. -/
def Line.foundWith (lookback : Nat) (line : Line α) : Line α :=
  { line with lookback }

variable [Scalar α]

namespace Series

variable {s : Series α}

theorem length_bars (s : Series α) : s.bars.length = s.size := by
  simp [bars]

theorem zipIdx_bars (s : Series α) :
    s.bars.zipIdx = (List.range s.size).map fun i => (s.barAt i, i) := by
  apply List.ext_getElem
  · simp [bars]
  · intro i _ _
    simp [bars]

theorem time_of_mem_bars {bar : Bar α} (mem : bar ∈ s.bars) : bar.time ∈ s.times := by
  obtain ⟨i, inside, rfl⟩ := List.mem_map.mp mem
  rw [List.mem_range] at inside
  have entry : s.times[i]? = some (s.barAt i).time := by
    simp [barAt, Array.getD_eq_getD_getElem?, Array.getElem?_eq_getElem inside]
  exact Array.mem_of_getElem? entry

end Series

namespace PairOptions

variable {options : PairOptions} {p q : Pivot α} {line : Line α} {lookback : Nat}

theorem line?_foundWith (lookback other : Nat) (p q : Pivot α) :
    line? lookback p q = (line? other p q).map (Line.foundWith lookback) := by
  unfold line?
  split
  rw [Option.map_map]
  rfl

/-- A line that is drawn has the swing with the smaller position in front. -/
theorem of_line? (found : line? lookback p q = some line) (ordered : p.index < q.index) :
    line.first = p ∧ line.second = q ∧ line.side = p.side ∧ line.lookback = lookback := by
  simp only [line?, if_pos (Nat.le_of_lt ordered), Option.map_eq_some_iff] at found
  obtain ⟨fit, -, rfl⟩ := found
  exact ⟨rfl, rfl, rfl, rfl⟩

theorem mem_lines_iff {swings : List (Pivot α)} :
    line ∈ options.lines lookback swings ↔
      ∃ p q, (p, q) ∈ pairs swings ∧ options.admits p q = true ∧
        line? lookback p q = some line := by
  simp [lines, and_assoc]

theorem lines_of_sublist {swings fewer : List (Pivot α)} (sub : fewer.Sublist swings)
    (other : Nat) (mem : line ∈ options.lines lookback fewer) :
    ∃ twin ∈ options.lines other swings, line = twin.foundWith lookback := by
  obtain ⟨p, q, pair, admitted, found⟩ := mem_lines_iff.mp mem
  rw [line?_foundWith lookback other, Option.map_eq_some_iff] at found
  obtain ⟨twin, found, rfl⟩ := found
  exact ⟨twin, mem_lines_iff.mpr ⟨p, q, (pairs_sublist sub).subset pair, admitted, found⟩, rfl⟩

end PairOptions

namespace Line

variable (options : TouchOptions α) (s : Series α) (bars : List (Bar α)) (line : Line α)

theorem measure_foundWith (lookback : Nat) :
    measure options s bars (line.foundWith lookback)
      = (measure options s bars line).foundWith lookback := by
  unfold measure
  split <;> rfl

theorem measure_lookback : (measure options s bars line).lookback = line.lookback := by
  unfold measure
  split <;> rfl

theorem measure_side : (measure options s bars line).side = line.side := by
  unfold measure
  split <;> rfl

theorem measure_start : (measure options s bars line).start = line.start := by
  unfold measure
  split <;> rfl

theorem measure_touches : (measure options s bars line).touches = line.touchTimes options bars := by
  unfold measure
  split <;> rfl

theorem measure_violations :
    (measure options s bars line).violations = line.breakCount options bars := by
  unfold measure
  split <;> rfl

variable {options s bars line}

theorem time_mem_of_mem_touchTimes {t : Int} (mem : t ∈ line.touchTimes options s.bars) :
    t ∈ s.times := by
  obtain ⟨⟨bar, i⟩, touching, rfl⟩ := List.mem_map.mp (Ascending.mem_ofList.mp mem)
  have listed := List.mem_zipIdx_iff_getElem?.mp (List.mem_filter.mp touching).1
  exact Series.time_of_mem_bars (List.mem_of_getElem? listed)

theorem breakCount_le (line : Line α) (options : TouchOptions α) (s : Series α) :
    line.breakCount options s.bars ≤ s.size - line.start := by
  rw [← s.length_bars]
  apply countP_zipIdx_le
  intro bar i broken
  simp only [brokenBy, Bool.and_eq_true, decide_eq_true_eq] at broken
  exact broken.1.2

/-- What is known of a line that is kept. -/
structure Sound (s : Series α) (p : Params α) (line : Line α) : Prop where
  lookback_le_start : line.lookback ≤ line.start
  room : line.start + p.pairs.minSpan + line.lookback < s.size
  touches_mem : ∀ t ∈ line.touches, t ∈ s.times
  enough : p.minTouches ≤ line.touchCount
  violations_le : line.violations ≤ s.size - line.start

end Line

namespace Series

variable {s : Series α} {p : Params α} {lookback : Nat} {line : Line α}

/-- The lines drawn through the swings of either side, those through highs first. -/
def drawnLines (s : Series α) (p : Params α) (lookback : Nat) : List (Line α) :=
  p.pairs.lines lookback (s.swingsOn lookback p.pivots .high)
    ++ p.pairs.lines lookback (s.swingsOn lookback p.pivots .low)

/-- The lines of one lookback that enough bars touch. -/
def keptLines (s : Series α) (p : Params α) (lookback : Nat) : List (Line α) :=
  s.touchedLines p.touches p.minTouches (s.drawnLines p lookback)

/-- What one lookback contributes. -/
def lookbackStats (s : Series α) (p : Params α) (lookback : Nat) : LookbackStats where
  lookback
  highPivots := (s.swingsOn lookback p.pivots .high).length
  lowPivots := (s.swingsOn lookback p.pivots .low).length
  candidates := (s.drawnLines p lookback).length
  kept := (s.keptLines p lookback).length

theorem linesFor_eq_ok (positive : 0 < lookback) :
    s.linesFor p lookback = .ok (s.keptLines p lookback, s.lookbackStats p lookback) := by
  unfold linesFor
  rw [swings_eq_ok positive]
  rfl

theorem mem_drawnLines_iff :
    line ∈ s.drawnLines p lookback ↔
      ∃ side, line ∈ p.pairs.lines lookback (s.swingsOn lookback p.pivots side) := by
  rw [drawnLines, List.mem_append]
  constructor
  · rintro (high | low)
    · exact ⟨.high, high⟩
    · exact ⟨.low, low⟩
  · intro ⟨side, mem⟩
    cases side with
    | high => exact .inl mem
    | low => exact .inr mem

theorem mem_keptLines_iff :
    line ∈ s.keptLines p lookback ↔
      ∃ drawn ∈ s.drawnLines p lookback, Line.measure p.touches s s.bars drawn = line ∧
        p.minTouches ≤ line.touchCount := by
  simp only [keptLines, touchedLines, measure, List.mem_filter, List.mem_map, Line.isKept,
    decide_eq_true_eq]
  constructor
  · intro ⟨⟨drawn, mem, eq⟩, enough⟩
    exact ⟨drawn, mem, eq, enough⟩
  · intro ⟨drawn, mem, eq, enough⟩
    exact ⟨⟨drawn, mem, eq⟩, enough⟩

/-- A drawn line spans at least as many bars as asked for, with a window on either side. -/
theorem drawnLines_room (mem : line ∈ s.drawnLines p lookback) :
    line.lookback = lookback ∧ lookback ≤ line.start ∧
      line.start + p.pairs.minSpan + lookback < s.size := by
  obtain ⟨side, mem⟩ := mem_drawnLines_iff.mp mem
  obtain ⟨q, r, pair, admitted, found⟩ := PairOptions.mem_lines_iff.mp mem
  obtain ⟨hq, hr, ordered⟩ := of_mem_pairs (s.swingsOn_ascending lookback p.pivots side) pair
  obtain ⟨first, -, -, same⟩ := PairOptions.of_line? found ordered
  have left := (stands_of_mem_swingsOn hq).before
  have right := (stands_of_mem_swingsOn hr).after
  have span : p.pairs.minSpan ≤ max q.index r.index - min q.index r.index := by
    simp only [PairOptions.admits, Bool.and_eq_true, decide_eq_true_eq] at admitted
    exact admitted.1.2
  have start : line.start = q.index := by rw [Line.start, first]
  exact ⟨same, by omega, by omega⟩

theorem lookback_of_mem_keptLines (mem : line ∈ s.keptLines p lookback) :
    line.lookback = lookback := by
  obtain ⟨drawn, drawn_mem, eq, -⟩ := mem_keptLines_iff.mp mem
  rw [← eq, Line.measure_lookback]
  exact (drawnLines_room drawn_mem).1

theorem sound_of_mem_keptLines (mem : line ∈ s.keptLines p lookback) : line.Sound s p := by
  obtain ⟨drawn, drawn_mem, eq, enough⟩ := mem_keptLines_iff.mp mem
  obtain ⟨same, before, room⟩ := drawnLines_room drawn_mem
  have start : line.start = drawn.start := by rw [← eq, Line.measure_start]
  rw [← start] at before room
  have own : line.lookback = lookback := lookback_of_mem_keptLines mem
  refine ⟨own ▸ before, own ▸ room, ?_, enough, ?_⟩
  · rw [← eq, Line.measure_touches]
    exact fun t ht => Line.time_mem_of_mem_touchTimes ht
  · rw [start, ← eq, Line.measure_violations]
    exact drawn.breakCount_le p.touches s

/-- Without thinning out, a line found with a wide window is found with a narrow one as well. -/
theorem keptLines_of_wider [LawfulScalar α] (wf : s.WellFormed) (off : ¬ 0 < p.pivots.dedupe)
    {narrow : Nat} (positive : 0 < narrow) (le : narrow ≤ lookback)
    (mem : line ∈ s.keptLines p lookback) :
    ∃ twin ∈ s.keptLines p narrow, line = twin.foundWith lookback := by
  obtain ⟨drawn, drawn_mem, eq, enough⟩ := mem_keptLines_iff.mp mem
  obtain ⟨side, drawn_mem⟩ := mem_drawnLines_iff.mp drawn_mem
  have fewer : (s.swingsOn lookback p.pivots side).Sublist (s.swingsOn narrow p.pivots side) := by
    rw [swingsOn_eq_rawSwingsOn off, swingsOn_eq_rawSwingsOn off]
    exact rawSwingsOn_sublist_of_le wf positive le
  obtain ⟨twin, twin_mem, same⟩ := PairOptions.lines_of_sublist fewer narrow drawn_mem
  rw [same, Line.measure_foundWith] at eq
  rw [← eq] at enough
  exact ⟨_, mem_keptLines_iff.mpr ⟨twin, mem_drawnLines_iff.mpr ⟨side, twin_mem⟩, rfl, enough⟩,
    eq.symm⟩

end Series

end Trendline
