import Trendline.Proofs.Analysis.Lines
import Trendline.Proofs.Ascending
import Trendline.Proofs.Double.Monotone

/-!
What larger tolerances change. A bar that touches a line still does, one that does not break it
still does not, and a line that is kept stays. All of this holds where rounding keeps order, for
doubles as for exact numbers.
-/

namespace Trendline

variable {α : Type} [Scalar α]

/-- The same prices compared, with tolerances that are no smaller. They are finite, as those of
parameters in range are. -/
structure TouchOptions.Within (options wider : TouchOptions α) : Prop where
  reference_eq : wider.reference = options.reference
  breakRule_eq : wider.breakRule = options.breakRule
  tolerance_pos : 0 < options.tolerance
  tolerance_le : options.tolerance ≤ wider.tolerance
  tolerance_finite : Scalar.isFinite wider.tolerance = true
  breakTolerance_nonneg : 0 ≤ options.breakTolerance
  breakTolerance_le : options.breakTolerance ≤ wider.breakTolerance
  breakTolerance_finite : Scalar.isFinite wider.breakTolerance = true

section Bars

variable [MonotoneScalar α] {options wider : TouchOptions α} {side : Side} {bar : Bar α}
variable {projected : α}

theorem Bar.spans_of_le {slack more : α} (finite : bar.isFinite = true) (le : slack ≤ more)
    (spans : bar.spans projected slack = true) : bar.spans projected more = true := by
  simp only [Bar.isFinite, Bool.and_eq_true] at finite
  obtain ⟨⟨⟨⟨-, high⟩, low⟩, -⟩, -⟩ := finite
  simp only [Bar.spans, Bool.and_eq_true, decide_eq_true_eq] at spans ⊢
  exact ⟨MonotoneScalar.le_trans (MonotoneScalar.sub_le_sub_left low le) spans.1,
    MonotoneScalar.le_trans spans.2 (MonotoneScalar.add_le_add_left high le)⟩

namespace TouchOptions.Within

theorem touches (h : options.Within wider) (finite : bar.isFinite = true)
    (touched : options.touches side bar projected = true) :
    wider.touches side bar projected = true := by
  unfold TouchOptions.touches at touched ⊢
  rw [h.reference_eq]
  cases reference : options.reference with
  | close | wick =>
      rw [reference] at touched
      exact decide_eq_true (MonotoneScalar.le_trans (of_decide_eq_true touched) h.tolerance_le)
  | range =>
      rw [reference] at touched
      cases bounded : Scalar.isFinite projected with
      | true =>
          have nonneg := MonotoneScalar.le_of_lt h.tolerance_pos
          exact Bar.spans_of_le finite (Scalar.mul_abs_le_mul_abs nonneg h.tolerance_le
            h.tolerance_finite bounded) touched
      | false =>
          -- A share of such a price is all of it, whatever the tolerance.
          have wider_pos := MonotoneScalar.lt_of_lt_of_le h.tolerance_pos h.tolerance_le
          rw [MonotoneScalar.mul_abs_eq bounded h.tolerance_pos] at touched
          rwa [MonotoneScalar.mul_abs_eq bounded wider_pos]

theorem breaks (h : options.Within wider) (broken : wider.breaks side bar projected = true) :
    options.breaks side bar projected = true := by
  unfold TouchOptions.breaks at broken ⊢
  rw [h.breakRule_eq] at broken
  cases probe : options.breakRule.price? side bar with
  | none =>
      rw [probe] at broken
      cases broken
  | some price =>
      rw [probe] at broken
      have wider_nonneg := MonotoneScalar.le_trans h.breakTolerance_nonneg h.breakTolerance_le
      cases bounded : Scalar.isFinite projected with
      | true =>
          have margin := Scalar.mul_abs_le_mul_abs h.breakTolerance_nonneg h.breakTolerance_le
            h.breakTolerance_finite bounded
          cases side with
          | low => exact decide_eq_true (MonotoneScalar.lt_of_lt_of_le
              (of_decide_eq_true broken) (MonotoneScalar.sub_le_sub_left bounded margin))
          | high => exact decide_eq_true (MonotoneScalar.lt_of_le_of_lt
              (MonotoneScalar.add_le_add_left bounded margin) (of_decide_eq_true broken))
      | false =>
          cases side with
          | low => exact (MonotoneScalar.not_lt_sub_mul_abs bounded wider_nonneg
              (of_decide_eq_true broken)).elim
          | high => exact (MonotoneScalar.not_add_mul_abs_lt bounded wider_nonneg
              (of_decide_eq_true broken)).elim

end TouchOptions.Within

end Bars

/-- Where two conditions exclude each other, no more meet one of them than meet what both imply. -/
theorem countP_add_countP_le {β : Type} {xs : List β} {p q r : β → Bool}
    (left : ∀ x, p x = true → r x = true) (right : ∀ x, q x = true → r x = true)
    (apart : ∀ x, p x = true → q x = false) : xs.countP p + xs.countP q ≤ xs.countP r := by
  induction xs with
  | nil => exact Nat.le_refl 0
  | cons x xs ih =>
      simp only [List.countP_cons]
      cases hp : p x with
      | true =>
          rw [if_pos rfl, if_neg (by simp [apart x hp]), if_pos (left x hp)]
          omega
      | false =>
          rw [if_neg Bool.false_ne_true]
          cases hq : q x with
          | true =>
              rw [if_pos rfl, if_pos (right x hq)]
              omega
          | false =>
              rw [if_neg Bool.false_ne_true]
              omega

namespace Line

variable {options wider : TouchOptions α} {s : Series α} {line : Line α}

/-- The swings that a line is drawn through. -/
def anchors (line : Line α) : Pivot α × Pivot α :=
  (line.first, line.second)

theorem measure_anchors (options : TouchOptions α) (s : Series α) (bars : List (Bar α))
    (line : Line α) : (line.measure options s bars).anchors = line.anchors := by
  unfold measure
  split <;> rfl

/-- How many of the bars from its start on touch the line. -/
def touchCountFrom (line : Line α) (options : TouchOptions α) (bars : List (Bar α)) : Nat :=
  bars.zipIdx.countP fun (bar, i) => line.start ≤ i && line.touchesBar options bar i

/-- A bar that touches the line does not break it. -/
theorem breakCount_add_touchCountFrom_le (line : Line α) (options : TouchOptions α)
    (s : Series α) :
    line.breakCount options s.bars + line.touchCountFrom options s.bars ≤ s.size - line.start := by
  have counted : line.breakCount options s.bars + line.touchCountFrom options s.bars
      ≤ s.bars.zipIdx.countP fun (_, i) => line.start ≤ i := by
    apply countP_add_countP_le
    all_goals
      intro (bar, i)
      simp only [brokenBy, Bool.and_eq_true, Bool.not_eq_true', decide_eq_true_eq]
    · exact fun broken => broken.1.2
    · exact fun touching => touching.1
    · intro broken
      rw [broken.1.1, Bool.and_false]
  rw [← s.length_bars]
  exact counted.trans (countP_zipIdx_le _ _ fun _ _ => of_decide_eq_true)

theorem finite_of_mem_zipIdx (wf : s.WellFormed) {bar : Bar α} {i : Nat}
    (mem : (bar, i) ∈ s.bars.zipIdx) : bar.isFinite = true := by
  rw [s.zipIdx_bars, List.mem_map] at mem
  obtain ⟨j, inside, eq⟩ := mem
  cases eq
  exact wf.finite i (List.mem_range.mp inside)

variable [MonotoneScalar α]

theorem touchTimes_subset (h : options.Within wider) (wf : s.WellFormed) (line : Line α) :
    ∀ time ∈ line.touchTimes options s.bars, time ∈ line.touchTimes wider s.bars := by
  intro time mem
  obtain ⟨⟨bar, i⟩, touching, rfl⟩ := List.mem_map.mp (Ascending.mem_ofList.mp mem)
  obtain ⟨listed, touched⟩ := List.mem_filter.mp touching
  have still := h.touches (finite_of_mem_zipIdx wf listed) touched
  exact Ascending.mem_ofList.mpr
    (List.mem_map.mpr ⟨(bar, i), List.mem_filter.mpr ⟨listed, still⟩, rfl⟩)

theorem breakCount_le_of_within (h : options.Within wider) (wf : s.WellFormed) (line : Line α) :
    line.breakCount wider s.bars ≤ line.breakCount options s.bars := by
  apply List.countP_mono_left
  intro (bar, i) listed broken
  simp only [brokenBy, Bool.and_eq_true, Bool.not_eq_true', decide_eq_true_eq] at broken ⊢
  obtain ⟨⟨untouched, late⟩, broken⟩ := broken
  refine ⟨⟨?_, late⟩, h.breaks broken⟩
  rw [← Bool.not_eq_true] at untouched ⊢
  exact mt (h.touches (finite_of_mem_zipIdx wf listed)) untouched

end Line

namespace Series

variable {s : Series α} {p : Params α} {wider : TouchOptions α} {minTouches lookback : Nat}

theorem map_anchors_touchedLines (s : Series α) (options : TouchOptions α) (minTouches : Nat)
    (lines : List (Line α)) :
    (s.touchedLines options minTouches lines).map Line.anchors
      = (lines.filter fun line =>
          minTouches ≤ (line.touchTimes options s.bars).size).map Line.anchors := by
  rw [touchedLines, measure, List.filter_map, List.map_map]
  congr 1
  · funext line
    exact line.measure_anchors options s s.bars
  · congr 1
    funext line
    rw [Function.comp, Line.isKept, Line.touchCount, Line.measure_touches]

theorem map_anchors_keptLines_sublist [MonotoneScalar α] (wf : s.WellFormed)
    (h : p.touches.Within wider) (fewer : minTouches ≤ p.minTouches) (lookback : Nat) :
    ((s.keptLines p lookback).map Line.anchors).Sublist
      ((s.keptLines { p with touches := wider, minTouches } lookback).map Line.anchors) := by
  rw [keptLines, keptLines, map_anchors_touchedLines, map_anchors_touchedLines]
  apply List.Sublist.map
  apply List.monotone_filter_right
  intro line enough
  have more := Ascending.size_le_size (Line.touchTimes_subset h wf line)
  exact decide_eq_true (fewer.trans ((of_decide_eq_true enough).trans more))

end Series

/-- With larger tolerances a line has the touches that it had and no more breaks. Together these are
no more than the bars it runs along; and where fewer touches are asked for as well, every lookback
keeps the lines that it kept. -/
theorem tolerances_monotone [MonotoneScalar α] {s : Series α} {p : Params α}
    {wider : TouchOptions α} {minTouches lookback : Nat} (valid : s.validate = .ok ())
    (within : p.touches.Within wider) (fewer : minTouches ≤ p.minTouches)
    (positive : 1 ≤ lookback) :
    (∀ line : Line α,
      (∀ time ∈ line.touchTimes p.touches s.bars, time ∈ line.touchTimes wider s.bars) ∧
      line.breakCount wider s.bars ≤ line.breakCount p.touches s.bars ∧
      ∀ options : TouchOptions α,
        line.breakCount options s.bars + line.touchCountFrom options s.bars
          ≤ s.size - line.start) ∧
    ∃ kept stats more stats',
      s.linesFor p lookback = .ok (kept, stats) ∧
      s.linesFor { p with touches := wider, minTouches } lookback = .ok (more, stats') ∧
      (kept.map Line.anchors).Sublist (more.map Line.anchors) := by
  have wf := Series.validate_eq_ok_iff.mp valid
  refine ⟨fun line => ⟨Line.touchTimes_subset within wf line,
    Line.breakCount_le_of_within within wf line,
    fun options => line.breakCount_add_touchCountFrom_le options s⟩, ?_⟩
  exact ⟨_, _, _, _, Series.linesFor_eq_ok positive, Series.linesFor_eq_ok positive,
    Series.map_anchors_keptLines_sublist wf within fewer lookback⟩

/-- Of the lines between three tops, one is touched by three bars and more within six percent. -/
def sixPercent : Params Float :=
  { zigzagParams with touches := { zigzagParams.touches with tolerance := 0.06 }, minTouches := 3 }

def sevenPercent : TouchOptions Float :=
  { sixPercent.touches with tolerance := 0.07, breakTolerance := 0.01 }

theorem sixPercent_within : sixPercent.touches.Within sevenPercent :=
  ⟨rfl, rfl, by decide +kernel, by decide +kernel, by decide +kernel, by decide +kernel,
    by decide +kernel, by decide +kernel⟩

/-- Within seven percent a second line is kept. -/
theorem tolerances_monotone_tops :
    (threeTops.validate = .ok () ∧ sixPercent.touches.Within sevenPercent ∧
      3 ≤ sixPercent.minTouches ∧ 1 ≤ 1) ∧
    ((threeTops.keptLines sixPercent 1).map (fun line => (line.first.index, line.second.index))
        = [(5, 7)] ∧
      (threeTops.keptLines { sixPercent with touches := sevenPercent, minTouches := 3 } 1).map
        (fun line => (line.first.index, line.second.index)) = [(1, 7), (5, 7)]) ∧
    (∀ line : Line Float,
      (∀ time ∈ line.touchTimes sixPercent.touches threeTops.bars,
        time ∈ line.touchTimes sevenPercent threeTops.bars) ∧
      line.breakCount sevenPercent threeTops.bars
        ≤ line.breakCount sixPercent.touches threeTops.bars ∧
      ∀ options : TouchOptions Float,
        line.breakCount options threeTops.bars + line.touchCountFrom options threeTops.bars
          ≤ threeTops.size - line.start) ∧
    ∃ kept stats more stats',
      threeTops.linesFor sixPercent 1 = .ok (kept, stats) ∧
      threeTops.linesFor { sixPercent with touches := sevenPercent, minTouches := 3 } 1
        = .ok (more, stats') ∧
      (kept.map Line.anchors).Sublist (more.map Line.anchors) :=
  ⟨⟨by decide +kernel, sixPercent_within, by decide, by decide⟩, by decide +kernel,
    tolerances_monotone (by decide +kernel) sixPercent_within (by decide) (by decide)⟩

end Trendline
