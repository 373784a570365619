import Trendline.Proofs.Analysis.Overlays

/-!
Series with the same prices at other times, as far as an analysis reads them: their swings and lines
are the same but for the times. Times only name bars, and both series name each bar once.
-/

namespace Trendline

section Lists

variable {β γ : Type}

theorem thinOut_map {near : β → β → Bool} {near' : γ → γ → Bool} (g : β → γ)
    (same : ∀ q p, near' (g q) (g p) = near q p) (taken xs : List β) :
    thinOut near' (taken.map g) (xs.map g) = (thinOut near taken xs).map g := by
  have judged (q : β) (taken : List β) : (taken.map g).any (near' (g q)) = taken.any (near q) := by
    rw [List.any_map]
    congr 1
    funext p
    exact same q p
  induction xs generalizing taken with
  | nil => rfl
  | cons q rest ih =>
      simp only [List.map_cons, thinOut, judged]
      by_cases close : taken.any (near q) = true
      · rw [if_pos close, if_pos close]
        exact ih taken
      · rw [if_neg close, if_neg close, List.map_cons]
        exact congrArg _ (ih (q :: taken))

end Lists

variable {α : Type}

namespace Pivot

def retime (f : Int → Int) (q : Pivot α) : Pivot α :=
  { q with time := f q.time }

end Pivot

/-- The line with other times for its swings and touches. -/
def Line.retime (f : Int → Int) (line : Line α) : Line α :=
  { line with
    touches := line.touches.image f
    first := line.first.retime f
    second := line.second.retime f }

/-- Whether nothing but the close of a bar is compared with anything. -/
def Params.ReadsCloses (p : Params α) : Prop :=
  p.pivots.source = .close ∧ p.touches.reference = .close ∧ p.touches.breakRule ≠ .wick

/-- A series with the prices of another, as far as they are read, at other times. -/
structure Series.Retimed (f : Int → Int) (p : Params α) (s s' : Series α) : Prop where
  times : s'.times = s.times.map f
  closings : s'.closings = s.closings
  extremes : s'.highs = s.highs ∧ s'.lows = s.lows ∨ p.ReadsCloses

variable [Scalar α]

namespace Series.Retimed

variable {f : Int → Int} {p : Params α} {s s' : Series α} {side : Side} {t : Int} {i lookback : Nat}

omit [Scalar α] in
theorem size_eq (h : Retimed f p s s') : s'.size = s.size := by
  rw [size, h.times, Array.size_map, size]

omit [Scalar α] in
theorem time?_eq (h : Retimed f p s s') (i : Nat) : s'.times[i]? = s.times[i]?.map f := by
  rw [h.times, Array.getElem?_map]

omit [Scalar α] in
theorem pivotPrices_eq (h : Retimed f p s s') (side : Side) :
    s'.pivotPrices p.pivots.source side = s.pivotPrices p.pivots.source side := by
  rcases h.extremes with ⟨highs, lows⟩ | ⟨source, -, -⟩
  · cases p.pivots.source with
    | close => exact h.closings
    | highLow =>
        cases side with
        | high => exact highs
        | low => exact lows
  · rw [source]
    exact h.closings

/-! The prices that are compared with a line are the same, bar by bar -/

theorem closing_eq (h : Retimed f p s s') (i : Nat) :
    (s'.barAt i).closing = (s.barAt i).closing := by
  rw [barAt, h.closings, barAt]

theorem bar_eq (h : Retimed f p s s') (i : Nat) :
    (s'.barAt i).high = (s.barAt i).high ∧ (s'.barAt i).low = (s.barAt i).low ∨ p.ReadsCloses :=
  h.extremes.imp_left fun ⟨highs, lows⟩ => by simp only [barAt, highs, lows, and_self]

theorem price_eq (h : Retimed f p s s') (side : Side) (i : Nat) (projected : α) :
    p.touches.reference.price side (s'.barAt i) projected
      = p.touches.reference.price side (s.barAt i) projected := by
  rcases h.bar_eq i with ⟨high, low⟩ | ⟨-, close, -⟩
  · cases p.touches.reference <;> cases side <;>
      simp only [Reference.price, Bar.extreme, h.closing_eq, high, low]
  · rw [close]
    exact h.closing_eq i

theorem touches_eq (h : Retimed f p s s') (side : Side) (i : Nat) (projected : α) :
    p.touches.touches side (s'.barAt i) projected
      = p.touches.touches side (s.barAt i) projected := by
  have price := h.price_eq side i projected
  rcases h.bar_eq i with ⟨high, low⟩ | ⟨-, close, -⟩
  · unfold TouchOptions.touches
    cases reference : p.touches.reference with
    | range => simp only [Bar.spans, high, low]
    | close | wick =>
        rw [reference] at price
        simp only [price]
  · rw [close] at price
    simp only [TouchOptions.touches, close, price]

theorem breaks_eq (h : Retimed f p s s') (side : Side) (i : Nat) (projected : α) :
    p.touches.breaks side (s'.barAt i) projected
      = p.touches.breaks side (s.barAt i) projected := by
  have price : p.touches.breakRule.price? side (s'.barAt i)
      = p.touches.breakRule.price? side (s.barAt i) := by
    rcases h.bar_eq i with ⟨high, low⟩ | ⟨-, -, notWick⟩
    · cases p.touches.breakRule <;> cases side <;>
        simp only [BreakRule.price?, Bar.extreme, h.closing_eq, high, low]
    · cases rule : p.touches.breakRule with
      | off => rfl
      | close => exact congrArg some (h.closing_eq i)
      | wick => exact (notWick rule).elim
  unfold TouchOptions.breaks
  rw [price]

/-! Times name the same bars -/

section Order

variable (hs : s.WellFormed) (hs' : s'.WellFormed)
include hs hs'

theorem mono (h : Retimed f p s s') : ∀ t ∈ s.times, ∀ u ∈ s.times, t < u → f t < f u := by
  intro t ht u hu less
  obtain ⟨i, hi⟩ := Array.mem_iff_getElem?.mp ht
  obtain ⟨j, hj⟩ := Array.mem_iff_getElem?.mp hu
  have before : i < j := (time_lt_iff hs.ascending hi hj).mp less
  have hi' : s'.times[i]? = some (f t) := by rw [h.time?_eq, hi, Option.map_some]
  have hj' : s'.times[j]? = some (f u) := by rw [h.time?_eq, hj, Option.map_some]
  exact (time_lt_iff hs'.ascending hi' hj').mpr before

theorem inj (h : Retimed f p s s') {u : Int} (ht : t ∈ s.times) (hu : u ∈ s.times) :
    f t = f u ↔ t = u := by
  constructor
  · intro same
    rcases Int.lt_trichotomy t u with less | eq | less
    · exact (Int.ne_of_lt (h.mono hs hs' t ht u hu less) same).elim
    · exact eq
    · exact (Int.ne_of_lt (h.mono hs hs' u hu t ht less) same.symm).elim
  · exact congrArg f

theorem indexOf?_eq (h : Retimed f p s s') (mem : t ∈ s.times) :
    s'.indexOf? (f t) = s.indexOf? t := by
  apply Option.ext
  intro i
  rw [indexOf?_eq_some_iff hs'.ascending, indexOf?_eq_some_iff hs.ascending, h.time?_eq,
    Option.map_eq_some_iff]
  constructor
  · rintro ⟨u, entry, same⟩
    rw [entry, (h.inj hs hs' (Array.mem_of_getElem? entry) mem).mp same]
  · intro entry
    exact ⟨t, entry, rfl⟩

end Order

/-! Swings -/

theorem swing?_eq (h : Retimed f p s s') (lookback i : Nat) (side : Side) :
    s'.swing? p.pivots.source lookback i side
      = (s.swing? p.pivots.source lookback i side).map (Pivot.retime f) := by
  unfold swing?
  rw [h.pivotPrices_eq, h.time?_eq]
  dsimp only
  cases (s.pivotPrices p.pivots.source side)[i]? with
  | none => rfl
  | some price =>
      cases s.times[i]? with
      | none => rfl
      | some time =>
          simp only [Option.bind_eq_bind, Option.bind_some, Option.map_some]
          split <;> rfl

theorem rawSwings_eq (h : Retimed f p s s') (lookback : Nat) :
    s'.rawSwings p.pivots.source lookback
      = (s.rawSwings p.pivots.source lookback).map (Pivot.retime f) := by
  unfold rawSwings
  rw [List.map_flatMap, h.size_eq]
  congr 1
  funext i
  rw [List.map_filterMap]
  congr 1
  funext side
  exact h.swing?_eq lookback i side

theorem swingsOn_eq (h : Retimed f p s s') (lookback : Nat) (side : Side) :
    s'.swingsOn lookback p.pivots side
      = (s.swingsOn lookback p.pivots side).map (Pivot.retime f) := by
  have near (later earlier : Pivot α) :
      p.pivots.near (later.retime f) (earlier.retime f) = p.pivots.near later earlier := rfl
  have taken := thinOut_map (Pivot.retime f) near [] (s.rawSwings p.pivots.source lookback)
  unfold swingsOn
  rw [h.rawSwings_eq, ← List.map_nil, taken, List.filter_map]
  rfl

/-! Lines -/

section Order

variable (hs : s.WellFormed) (hs' : s'.WellFormed)
include hs hs'

theorem lines_eq (h : Retimed f p s s') (lookback : Nat) (side : Side) :
    p.pairs.lines lookback (s'.swingsOn lookback p.pivots side)
      = (p.pairs.lines lookback (s.swingsOn lookback p.pivots side)).map (Line.retime f) := by
  have admits : ∀ pair ∈ pairs (s.swingsOn lookback p.pivots side),
      p.pairs.admits (pair.1.retime f) (pair.2.retime f) = p.pairs.admits pair.1 pair.2 := by
    intro pair mem
    obtain ⟨hq, hr, -⟩ := of_mem_pairs (s.swingsOn_ascending lookback p.pivots side) mem
    have left := Array.mem_of_getElem? (stands_of_mem_swingsOn hq).time_eq
    have right := Array.mem_of_getElem? (stands_of_mem_swingsOn hr).time_eq
    have times : decide ((pair.1.retime f).time ≠ (pair.2.retime f).time)
        = decide (pair.1.time ≠ pair.2.time) :=
      decide_eq_decide.mpr (not_congr (h.inj hs hs' left right))
    simp only [PairOptions.admits, times]
    rfl
  have drawn (q r : Pivot α) : PairOptions.line? lookback (q.retime f) (r.retime f)
      = (PairOptions.line? lookback q r).map (Line.retime f) := by
    unfold PairOptions.line?
    have indexes : (q.retime f).index ≤ (r.retime f).index ↔ q.index ≤ r.index := Iff.rfl
    by_cases ordered : q.index ≤ r.index
    · rw [if_pos ordered, if_pos (indexes.mpr ordered), Option.map_map]
      rfl
    · rw [if_neg ordered, if_neg (mt indexes.mp ordered), Option.map_map]
      rfl
  unfold PairOptions.lines
  rw [h.swingsOn_eq, pairs_map, List.filter_map, List.filterMap_map, List.map_filterMap,
    List.filter_congr (q := fun pair => p.pairs.admits pair.1 pair.2) admits]
  congr 1
  funext pair
  exact drawn pair.1 pair.2

theorem drawnLines_eq (h : Retimed f p s s') (lookback : Nat) :
    s'.drawnLines p lookback = (s.drawnLines p lookback).map (Line.retime f) := by
  rw [drawnLines, h.lines_eq hs hs', h.lines_eq hs hs', drawnLines, List.map_append]

omit hs hs' in
theorem touchTimes_eq (h : Retimed f p s s') (line : Line α) :
    (line.retime f).touchTimes p.touches s'.bars
      = (line.touchTimes p.touches s.bars).image f := by
  unfold Line.touchTimes
  rw [Ascending.image_ofList, zipIdx_bars, zipIdx_bars, h.size_eq]
  congr 1
  simp only [List.filter_map, List.map_map]
  have judged (i : Nat) : (line.retime f).touchesBar p.touches (s'.barAt i) i
      = line.touchesBar p.touches (s.barAt i) i := h.touches_eq line.side i (line.atBar i)
  simp only [Function.comp_def, judged]
  apply List.map_congr_left
  intro i mem
  have inside : i < s.times.size := List.mem_range.mp (List.mem_of_mem_filter mem)
  simp only [barAt, Array.getD_eq_getD_getElem?, h.time?_eq, Array.getElem?_eq_getElem inside,
    Option.map_some, Option.getD_some]

omit hs hs' in
theorem breakCount_eq (h : Retimed f p s s') (line : Line α) :
    (line.retime f).breakCount p.touches s'.bars = line.breakCount p.touches s.bars := by
  unfold Line.breakCount
  rw [zipIdx_bars, zipIdx_bars, h.size_eq, List.countP_map, List.countP_map]
  congr 1
  funext i
  have touching : (line.retime f).touchesBar p.touches (s'.barAt i) i
      = line.touchesBar p.touches (s.barAt i) i := h.touches_eq line.side i (line.atBar i)
  have breaking : p.touches.breaks (line.retime f).side (s'.barAt i) ((line.retime f).atBar i)
      = p.touches.breaks line.side (s.barAt i) (line.atBar i) :=
    h.breaks_eq line.side i (line.atBar i)
  simp only [Function.comp_apply, Line.brokenBy, touching, breaking]
  rfl

theorem touchFit?_eq (h : Retimed f p s s') {line : Line α} (mem : ∀ t ∈ line.touches, t ∈ s.times) :
    (line.retime f).touchFit? s' p.touches.reference = line.touchFit? s p.touches.reference := by
  have touches : (line.retime f).touches.toList = line.touches.toList.map f :=
    Ascending.toList_image fun t ht u hu => h.mono hs hs' t (mem t ht) u (mem u hu)
  unfold Line.touchFit?
  rw [touches, List.filterMap_map]
  dsimp only
  congr 2
  apply List.filterMap_congr
  intro t ht
  simp only [Function.comp_apply, h.indexOf?_eq hs hs' (mem t ht), h.price_eq]
  rfl

theorem measure_eq (h : Retimed f p s s') (line : Line α) :
    Line.measure p.touches s' s'.bars (line.retime f)
      = (Line.measure p.touches s s.bars line).retime f := by
  let found : Line α :=
    { line with
      touches := line.touchTimes p.touches s.bars
      violations := line.breakCount p.touches s.bars }
  have fit : (found.retime f).touchFit? s' p.touches.reference
      = found.touchFit? s p.touches.reference :=
    h.touchFit?_eq hs hs' fun t ht => Line.time_mem_of_mem_touchTimes ht
  unfold Line.measure
  rw [h.touchTimes_eq, h.breakCount_eq]
  by_cases regression : p.touches.regression = true
  · rw [if_pos regression, if_pos regression]
    change _ = Line.mk (Fit.mk _ (Option.getD (Line.touchFit? _ _ _) _)) _ _ _ _ _ _
    rw [← fit]
    rfl
  · rw [if_neg regression, if_neg regression]
    rfl

theorem keptLines_eq (h : Retimed f p s s') (lookback : Nat) :
    s'.keptLines p lookback = (s.keptLines p lookback).map (Line.retime f) := by
  have measured : (s'.drawnLines p lookback).map (Line.measure p.touches s' s'.bars)
      = ((s.drawnLines p lookback).map (Line.measure p.touches s s.bars)).map
        (Line.retime f) := by
    rw [h.drawnLines_eq hs hs', List.map_map, List.map_map]
    apply List.map_congr_left
    intro line _
    exact h.measure_eq hs hs' line
  unfold keptLines touchedLines Series.measure
  rw [measured, List.filter_map]
  congr 1
  apply List.filter_congr
  intro line mem
  obtain ⟨drawn, -, rfl⟩ := List.mem_map.mp mem
  have touched : ∀ t ∈ (Line.measure p.touches s s.bars drawn).touches, t ∈ s.times := by
    rw [Line.measure_touches]
    exact fun t ht => Line.time_mem_of_mem_touchTimes ht
  have count : ((Line.measure p.touches s s.bars drawn).retime f).touchCount
      = (Line.measure p.touches s s.bars drawn).touchCount :=
    Ascending.size_image fun t ht u hu => h.mono hs hs' t (touched t ht) u (touched u hu)
  rw [Function.comp_apply, Line.isKept, count, Line.isKept]

end Order

end Series.Retimed

end Trendline
