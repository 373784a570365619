import Trendline.Proofs.Analysis.Overlays
import Trendline.Proofs.Analysis.Sides
import Trendline.Proofs.Scalar.Negation

/-!
A series turned upside down. Its highs are the lows of the series with the sign turned, so that
swings change sides, and the lines through them rise where the others fall; the same bars touch
them, and the same bars break them.
-/

namespace Trendline

def Side.flip : Side → Side
  | .high => .low
  | .low => .high

section Turned

variable {α : Type} [Neg α]

/-- The bar turned upside down. -/
def Bar.mirror (bar : Bar α) : Bar α :=
  { bar with
    opening := -bar.opening
    high := -bar.low
    low := -bar.high
    closing := -bar.closing }

/-- The series turned upside down. -/
def Series.mirror (s : Series α) : Series α :=
  { s with
    openings := s.openings.map (-·)
    highs := s.lows.map (-·)
    lows := s.highs.map (-·)
    closings := s.closings.map (-·) }

def Pivot.mirror (q : Pivot α) : Pivot α :=
  { q with price := -q.price, side := q.side.flip }

end Turned

theorem Side.flip_eq_iff {side other : Side} : side.flip = other.flip ↔ side = other := by
  cases side <;> cases other <;> decide

variable {α : Type} [Scalar α] [Neg α]

/-- The lines rise and fall alike, on opposite sides, and the same was found along them. -/
structure Line.Mirrors (line line' : Line α) : Prop where
  fit : line.toFit.Mirrors line'.toFit
  touches : line'.touches = line.touches
  violations : line'.violations = line.violations
  lookback : line'.lookback = line.lookback
  side : line'.side = line.side.flip
  start : line'.start = line.start

open Scalar

variable [LawfulNeg α]

section Extremes

/-- What decides between two elements decides alike between those related to them. -/
theorem foremost?_rel {β β' : Type} {R : β → β' → Prop} {counts : β → Bool} {counts' : β' → Bool}
    {beats : β → β → Bool} {beats' : β' → β' → Bool} {xs : List β} {ys : List β'}
    (counted : ∀ {x y}, R x y → counts' y = counts x)
    (beaten : ∀ {x y w z}, R x y → R w z → beats' y z = beats x w)
    (h : List.Forall₂ R xs ys) :
    Option.Rel R (foremost? counts beats xs) (foremost? counts' beats' ys) := by
  have run {x : β} {y : β'} {xs : List β} {ys : List β'} (start : R x y)
      (h : List.Forall₂ R xs ys) :
      R (xs.foldl (fun best y => if beats y best then y else best) x)
        (ys.foldl (fun best y => if beats' y best then y else best) y) := by
    induction h generalizing x y with
    | nil => exact start
    | cons hx _ ih =>
        rw [List.foldl_cons, List.foldl_cons, beaten hx start]
        split
        · exact ih hx
        · exact ih start
  have left : List.Forall₂ R (xs.filter counts) (ys.filter counts') :=
    forall₂_filter h fun _ _ hx => counted hx
  unfold foremost?
  generalize xs.filter counts = xs' at left
  generalize ys.filter counts' = ys' at left
  cases left with
  | nil =>
      cases h with
      | nil => exact .none
      | cons hx _ => exact .some hx
  | cons hx rest => exact .some (run hx rest)

theorem takesPart_opposite {xs ys : List α} {isNear isNear' : α → Bool} {x y : α}
    (length : ys.length = xs.length) (turned : Opposite x y) (near : isNear' y = isNear x) :
    takesPart ys isNear' y = takesPart xs isNear x := by
  simp only [takesPart, length, isNumber_eq turned, LawfulNeg.isFinite_eq turned, near]

theorem greatest?_least? {xs ys : List α} (h : List.Forall₂ Opposite xs ys) :
    Option.Rel Opposite (greatest? xs) (least? ys) := by
  apply foremost?_rel _ _ h
  · intro x y turned
    exact takesPart_opposite h.length_eq.symm turned
      (decide_eq_decide.mpr (LawfulNeg.lt_iff LawfulNeg.opposite_zero turned))
  · intro x y w z hx hw
    exact decide_eq_decide.mpr (LawfulNeg.lt_iff hw hx)

theorem least?_greatest? {xs ys : List α} (h : List.Forall₂ Opposite xs ys) :
    Option.Rel Opposite (least? xs) (greatest? ys) := by
  apply foremost?_rel _ _ h
  · intro x y turned
    exact takesPart_opposite h.length_eq.symm turned
      (decide_eq_decide.mpr (LawfulNeg.lt_iff turned LawfulNeg.opposite_zero))
  · intro x y w z hx hw
    exact decide_eq_decide.mpr (LawfulNeg.lt_iff hx hw)

theorem Side.exceeds_flip (side : Side) (price : α) (others : Array α) :
    side.flip.exceeds (-price) (others.map (-·)) = side.exceeds price others := by
  have turned := forall₂_map_neg others.toList
  unfold exceeds
  rw [Array.toList_map]
  cases side with
  | high =>
      have best := greatest?_least? turned
      dsimp only [flip]
      generalize greatest? others.toList = x at best ⊢
      generalize least? (others.toList.map (-·)) = y at best ⊢
      cases best with
      | none => rfl
      | some hx => exact decide_eq_decide.mpr (LawfulNeg.lt_iff hx (opposite_neg price))
  | low =>
      have best := least?_greatest? turned
      dsimp only [flip]
      generalize least? others.toList = x at best ⊢
      generalize greatest? (others.toList.map (-·)) = y at best ⊢
      cases best with
      | none => rfl
      | some hx => exact decide_eq_decide.mpr (LawfulNeg.lt_iff (opposite_neg price) hx)

end Extremes

namespace Series

variable {s : Series α} {p : Params α} {lookback : Nat} {side : Side}

/-! Swings -/

omit [Scalar α] [LawfulNeg α] in
theorem mirror_pivotPrices (s : Series α) (source : PivotSource) (side : Side) :
    s.mirror.pivotPrices source side.flip = (s.pivotPrices source side).map (-·) := by
  cases source <;> cases side <;> rfl

theorem mirror_swing? (s : Series α) (source : PivotSource) (lookback i : Nat) (side : Side) :
    s.mirror.swing? source lookback i side.flip
      = (s.swing? source lookback i side).map Pivot.mirror := by
  have times : s.mirror.times = s.times := rfl
  unfold swing?
  simp only [mirror_pivotPrices, times, Array.getElem?_map]
  cases (s.pivotPrices source side)[i]? with
  | none => rfl
  | some price =>
      cases s.times[i]? with
      | none => rfl
      | some time =>
          simp only [← Array.map_extract, Side.exceeds_flip, Option.bind_eq_bind,
            Option.map_some, Option.bind_some]
          split <;> rfl

theorem mirror_rawSwingsOn (s : Series α) (source : PivotSource) (lookback : Nat) (side : Side) :
    s.mirror.rawSwingsOn source lookback side.flip
      = (s.rawSwingsOn source lookback side).map Pivot.mirror := by
  unfold rawSwingsOn
  rw [List.map_filterMap]
  congr 1
  funext i
  exact s.mirror_swing? source lookback i side

theorem mirror_swingsOn (off : ¬ 0 < p.pivots.dedupe) (s : Series α) (lookback : Nat) (side : Side) :
    s.mirror.swingsOn lookback p.pivots side.flip
      = (s.swingsOn lookback p.pivots side).map Pivot.mirror := by
  rw [swingsOn_eq_rawSwingsOn off, swingsOn_eq_rawSwingsOn off, mirror_rawSwingsOn]

/-! Lines -/

theorem mirror_line? (lookback : Nat) (q r : Pivot α) :
    Option.Rel Line.Mirrors (PairOptions.line? lookback q r)
      (PairOptions.line? lookback q.mirror r.mirror) := by
  have drawn (first second : Pivot α) : Option.Rel Fit.Mirrors
      (Fit.ofPoints? [((first.index : α), first.price), ((second.index : α), second.price)])
      (Fit.ofPoints? [((first.index : α), -first.price), ((second.index : α), -second.price)]) :=
    Fit.ofPoints?_mirrors (.cons ⟨rfl, opposite_neg _⟩ (.cons ⟨rfl, opposite_neg _⟩ .nil))
  have indexes : q.mirror.index ≤ r.mirror.index ↔ q.index ≤ r.index := Iff.rfl
  unfold PairOptions.line?
  by_cases ordered : q.index ≤ r.index
  · rw [if_pos ordered, if_pos (indexes.mpr ordered)]
    exact rel_map_map (drawn q r) fun _ _ fit => ⟨fit, rfl, rfl, rfl, rfl, rfl⟩
  · rw [if_neg ordered, if_neg (mt indexes.mp ordered)]
    exact rel_map_map (drawn r q) fun _ _ fit => ⟨fit, rfl, rfl, rfl, rfl, rfl⟩

theorem mirror_drawnOn (off : ¬ 0 < p.pivots.dedupe) (s : Series α) (lookback : Nat) (side : Side) :
    List.Forall₂ Line.Mirrors (s.drawnOn p lookback side)
      (s.mirror.drawnOn p lookback side.flip) := by
  have admits (pair : Pivot α × Pivot α) :
      p.pairs.admits pair.1.mirror pair.2.mirror = p.pairs.admits pair.1 pair.2 := by
    have sides : decide (pair.1.mirror.side = pair.2.mirror.side)
        = decide (pair.1.side = pair.2.side) := decide_eq_decide.mpr Side.flip_eq_iff
    unfold PairOptions.admits
    rw [sides]
    rfl
  unfold drawnOn PairOptions.lines
  rw [mirror_swingsOn off, pairs_map, List.filter_map]
  simp only [Function.comp_def, Prod.map, admits]
  apply forall₂_filterMap (forall₂_self_map _ _)
  rintro ⟨q, r⟩ _ rfl
  exact mirror_line? lookback q r

end Series

/-! Bars -/

namespace Bar

variable {x x' : α}

omit [Scalar α] [LawfulNeg α] in
theorem extreme_mirror (bar : Bar α) (side : Side) :
    bar.mirror.extreme side.flip = -bar.extreme side := by
  cases side <;> rfl

theorem spans_mirror (bar : Bar α) (slack : α) (h : Opposite x x') :
    bar.mirror.spans x' slack = bar.spans x slack := by
  have above : bar.mirror.low - slack ≤ x' ↔ x ≤ bar.high + slack :=
    LawfulNeg.le_iff h (LawfulNeg.opposite_add_sub slack (opposite_neg bar.high))
  have below : x' ≤ bar.mirror.high + slack ↔ bar.low - slack ≤ x :=
    LawfulNeg.le_iff (LawfulNeg.opposite_sub_add slack (opposite_neg bar.low)) h
  unfold spans
  rw [decide_eq_decide.mpr above, decide_eq_decide.mpr below, Bool.and_comm]

end Bar

section Touch

variable {options : TouchOptions α} {side : Side} {bar : Bar α} {x x' : α}

theorem Reference.price_mirror [LawfulScalar α] (reference : Reference) (side : Side)
    (upright : ¬ bar.high < bar.low) (h : Opposite x x') :
    Opposite (reference.price side bar x) (reference.price side.flip bar.mirror x') := by
  cases reference with
  | close => exact opposite_neg _
  | wick =>
      simp only [price, Bar.extreme_mirror]
      exact opposite_neg _
  | range => exact opposite_clamp (opposite_neg _) (opposite_neg _) h upright

theorem TouchOptions.touches_mirror (options : TouchOptions α) (side : Side) (bar : Bar α)
    (h : Opposite x x') :
    options.touches side.flip bar.mirror x' = options.touches side bar x := by
  unfold touches
  cases options.reference with
  | close =>
      have distance := relativeDistance_eq (opposite_neg bar.closing) h
      exact decide_eq_decide.mpr (iff_of_eq (congrArg (· ≤ options.tolerance) distance))
  | wick =>
      have distance := relativeDistance_eq (opposite_neg (bar.extreme side)) h
      rw [← Bar.extreme_mirror] at distance
      exact decide_eq_decide.mpr (iff_of_eq (congrArg (· ≤ options.tolerance) distance))
  | range =>
      simp only [LawfulNeg.abs_eq h]
      exact bar.spans_mirror _ h

theorem TouchOptions.breaks_mirror (options : TouchOptions α) (side : Side) (bar : Bar α)
    (h : Opposite x x') :
    options.breaks side.flip bar.mirror x' = options.breaks side bar x := by
  have compared : options.breakRule.price? side.flip bar.mirror
      = (options.breakRule.price? side bar).map (-·) := by
    cases options.breakRule with
    | off | close => rfl
    | wick => exact congrArg some (bar.extreme_mirror side)
  unfold breaks
  rw [compared, LawfulNeg.abs_eq h]
  cases options.breakRule.price? side bar with
  | none => rfl
  | some price =>
      cases side with
      | high =>
          exact decide_eq_decide.mpr
            (LawfulNeg.lt_iff (LawfulNeg.opposite_add_sub _ h) (opposite_neg price))
      | low =>
          exact decide_eq_decide.mpr
            (LawfulNeg.lt_iff (opposite_neg price) (LawfulNeg.opposite_sub_add _ h))

end Touch

/-! The series turned upside down, bar by bar -/

section Bars

variable {s : Series α} {i : Nat}

omit [LawfulNeg α] in
theorem Series.mirror_barAt (wf : s.WellFormed) (inside : i < s.size) :
    s.mirror.barAt i = (s.barAt i).mirror := by
  have openings : s.openings.size = s.size :=
    wf.columns ("open_prices", _) (by simp [columnSizes])
  have turned {xs : Array α} (size : xs.size = s.size) :
      (xs.map (-·)).getD i 0 = -xs.getD i 0 := by
    have here : i < xs.size := size ▸ inside
    simp only [Array.getD_eq_getD_getElem?, Array.getElem?_map, Array.getElem?_eq_getElem here,
      Option.map_some, Option.getD_some]
  simp only [barAt, mirror, Bar.mirror, turned openings, turned wf.highs_size,
    turned wf.lows_size, turned wf.closings_size]

theorem Bar.isFinite_mirror (bar : Bar α) : bar.mirror.isFinite = bar.isFinite := by
  have finite (x : α) : Scalar.isFinite (-x) = Scalar.isFinite x :=
    LawfulNeg.isFinite_eq (opposite_neg x)
  simp only [isFinite, mirror, finite]
  ac_rfl

theorem Series.WellFormed.mirror (wf : s.WellFormed) : s.mirror.WellFormed where
  size_pos := wf.size_pos
  columns := by
    have sizes := wf.columns
    simp only [columnSizes, List.forall_mem_cons, List.not_mem_nil, false_imp_iff, implies_true,
      and_true] at sizes ⊢
    obtain ⟨openings, highs, lows, closings, volumes⟩ := sizes
    simp only [Series.mirror, Array.size_map]
    exact ⟨openings, lows, highs, closings, volumes⟩
  ascending := wf.ascending
  finite i inside := by
    rw [mirror_barAt wf inside, Bar.isFinite_mirror]
    exact wf.finite i inside
  upright i inside := by
    rw [mirror_barAt wf inside]
    exact mt (LawfulNeg.lt_iff (opposite_neg _) (opposite_neg _)).mp (wf.upright i inside)

end Bars

/-- The point that a line is fitted through for the bar at a time. -/
def Line.touchPoint? (line : Line α) (s : Series α) (reference : Reference) (time : Int) :
    Option (α × α) :=
  (s.indexOf? time).map fun i : Nat =>
    ((i : α), reference.price line.side (s.barAt i) (line.atBar i))

omit [Neg α] [LawfulNeg α] in
theorem Line.touchFit?_eq_map (line : Line α) (s : Series α) (reference : Reference) :
    line.touchFit? s reference
      = (Fit.ofPoints? (line.touches.toList.filterMap (line.touchPoint? s reference))).map
        (·.rSquared) := by
  unfold touchFit? touchPoint?
  simp only [Option.bind_eq_bind, Option.pure_def, Option.map_eq_bind]
  rfl

namespace Line.Mirrors

variable {s : Series α} {options : TouchOptions α} {line line' : Line α} {i : Nat}

theorem touchesBar_eq (h : line.Mirrors line') (wf : s.WellFormed) (inside : i < s.size) :
    line'.touchesBar options (s.mirror.barAt i) i = line.touchesBar options (s.barAt i) i := by
  rw [touchesBar, h.side, Series.mirror_barAt wf inside,
    options.touches_mirror _ _ (h.fit.trend.atBar i), touchesBar]

theorem brokenBy_eq (h : line.Mirrors line') (wf : s.WellFormed) (inside : i < s.size) :
    line'.brokenBy options (s.mirror.barAt i) i = line.brokenBy options (s.barAt i) i := by
  rw [brokenBy, h.touchesBar_eq wf inside, h.start, h.side, Series.mirror_barAt wf inside,
    options.breaks_mirror _ _ (h.fit.trend.atBar i), brokenBy]

theorem touchTimes_eq (h : line.Mirrors line') (wf : s.WellFormed) :
    line'.touchTimes options s.mirror.bars = line.touchTimes options s.bars := by
  have size : s.mirror.size = s.size := rfl
  have judged : (List.range s.size).filter
        (fun i => line'.touchesBar options (s.mirror.barAt i) i)
      = (List.range s.size).filter fun i => line.touchesBar options (s.barAt i) i :=
    List.filter_congr fun i mem => h.touchesBar_eq wf (List.mem_range.mp mem)
  unfold touchTimes
  rw [Series.zipIdx_bars, Series.zipIdx_bars, size]
  simp only [List.filter_map, List.map_map, Function.comp_def, judged]
  rfl

theorem breakCount_eq (h : line.Mirrors line') (wf : s.WellFormed) :
    line'.breakCount options s.mirror.bars = line.breakCount options s.bars := by
  have size : s.mirror.size = s.size := rfl
  unfold breakCount
  rw [Series.zipIdx_bars, Series.zipIdx_bars, size, List.countP_map, List.countP_map]
  apply List.countP_congr
  intro i mem
  simp only [Function.comp_apply, h.brokenBy_eq wf (List.mem_range.mp mem)]

variable [LawfulScalar α]

theorem touchPoint_rel (h : line.Mirrors line') (wf : s.WellFormed) (reference : Reference)
    (time : Int) :
    Option.Rel (fun p p' => p'.1 = p.1 ∧ Opposite p.2 p'.2) (line.touchPoint? s reference time)
      (line'.touchPoint? s.mirror reference time) := by
  have index : s.mirror.indexOf? time = s.indexOf? time := rfl
  unfold touchPoint?
  rw [index]
  cases found : s.indexOf? time with
  | none => exact .none
  | some i =>
      have entry := (Series.indexOf?_eq_some_iff wf.ascending).mp found
      have inside : i < s.size := (Array.getElem?_eq_some_iff.mp entry).1
      refine .some ⟨rfl, ?_⟩
      dsimp only
      rw [Series.mirror_barAt wf inside, h.side]
      exact reference.price_mirror line.side (wf.upright i inside) (h.fit.trend.atBar i)

theorem touchFit?_eq (h : line.Mirrors line') (wf : s.WellFormed) (reference : Reference) :
    line'.touchFit? s.mirror reference = line.touchFit? s reference := by
  have same : List.Forall₂ Eq line.touches.toList line'.touches.toList := by
    rw [h.touches, List.forall₂_eq_eq_eq]
  have points : Upturned (line.touches.toList.filterMap (line.touchPoint? s reference))
      (line'.touches.toList.filterMap (line'.touchPoint? s.mirror reference)) := by
    apply forall₂_filterMap same
    rintro time _ rfl
    exact h.touchPoint_rel wf reference time
  have fits := Fit.ofPoints?_mirrors points
  rw [touchFit?_eq_map, touchFit?_eq_map]
  generalize line.touches.toList.filterMap (line.touchPoint? s reference) = xs at fits ⊢
  generalize line'.touches.toList.filterMap (line'.touchPoint? s.mirror reference) = ys at fits ⊢
  generalize Fit.ofPoints? xs = fit at fits ⊢
  generalize Fit.ofPoints? ys = fit' at fits ⊢
  cases fits with
  | none => rfl
  | some same => exact congrArg some same.rSquared

theorem measure (h : line.Mirrors line') (wf : s.WellFormed) :
    (Line.measure options s s.bars line).Mirrors
      (Line.measure options s.mirror s.mirror.bars line') := by
  have found : Line.Mirrors
      { line with
        touches := line.touchTimes options s.bars
        violations := line.breakCount options s.bars }
      { line' with
        touches := line'.touchTimes options s.mirror.bars
        violations := line'.breakCount options s.mirror.bars } :=
    ⟨h.fit, h.touchTimes_eq wf, h.breakCount_eq wf, h.lookback, h.side, h.start⟩
  have fit := found.touchFit?_eq wf options.reference
  unfold Line.measure
  split_ifs
  · refine ⟨⟨h.fit.trend, ?_⟩, found.touches, found.violations, h.lookback, h.side, h.start⟩
    dsimp only
    rw [fit, h.fit.rSquared]
  · exact found

end Line.Mirrors

namespace Series

variable [LawfulScalar α] {s : Series α} {p : Params α}

theorem mirror_keptOn (wf : s.WellFormed) (off : ¬ 0 < p.pivots.dedupe) (lookback : Nat)
    (side : Side) :
    List.Forall₂ Line.Mirrors (s.keptOn p lookback side)
      (s.mirror.keptOn p lookback side.flip) := by
  apply forall₂_filter
  · exact forall₂_map_map (s.mirror_drawnOn off lookback side) fun _ _ h => h.measure wf
  · intro line line' h
    rw [Line.isKept, Line.touchCount, h.touches, Line.isKept, Line.touchCount]

end Series

end Trendline
