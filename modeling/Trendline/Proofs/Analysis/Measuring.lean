import Trendline.Proofs.Analysis.Tolerance

/-!
What measuring does to lines. It replaces what was found along them and leaves their course alone.
It looks at nothing that was found before: the fit is taken over the touches it has just written,
and where there is no such fit the one at hand stays. So lines are measured once and for all.
-/

namespace Trendline

variable {α : Type}

/-- Lines that run alike: they may differ in what was found along them. -/
structure Line.SameCourse (line other : Line α) : Prop where
  slope_eq : other.slope = line.slope
  intercept_eq : other.intercept = line.intercept
  side_eq : other.side = line.side
  lookback_eq : other.lookback = line.lookback
  first_eq : other.first = line.first
  second_eq : other.second = line.second

/-- Lines along which the same touches and as many breaks were found. -/
structure Line.SameMarks (line other : Line α) : Prop where
  touches_eq : other.touches = line.touches
  violations_eq : other.violations = line.violations

variable [Scalar α]

namespace Line

variable (options : TouchOptions α) (s : Series α) (bars : List (Bar α)) (line : Line α)

/-- The fit over the bars that touch the line, if it is asked for and there is one. -/
def fitAlong? : Option α :=
  if options.regression then
    { line with touches := line.touchTimes options bars }.touchFit? s options.reference
  else
    none

theorem measure_eq : line.measure options s bars =
    { line with
      touches := line.touchTimes options bars
      violations := line.breakCount options bars
      rSquared := (line.fitAlong? options s bars).getD line.rSquared } := by
  unfold measure fitAlong?
  split <;> rfl

theorem measure_sameCourse : line.SameCourse (line.measure options s bars) := by
  rw [measure_eq]
  exact ⟨rfl, rfl, rfl, rfl, rfl, rfl⟩

variable {options s bars line}

namespace SameCourse

variable {other : Line α}

theorem atBar_eq (h : line.SameCourse other) (i : Nat) : other.atBar i = line.atBar i := by
  rw [Trend.atBar, Trend.atBar, Trend.value, Trend.value, h.slope_eq, h.intercept_eq]

theorem touchesBar_eq (h : line.SameCourse other) (bar : Bar α) (i : Nat) :
    other.touchesBar options bar i = line.touchesBar options bar i := by
  rw [touchesBar, touchesBar, h.side_eq, h.atBar_eq]

theorem touchTimes_eq (h : line.SameCourse other) :
    other.touchTimes options bars = line.touchTimes options bars := by
  simp only [touchTimes, h.touchesBar_eq]

theorem brokenBy_eq (h : line.SameCourse other) (bar : Bar α) (i : Nat) :
    other.brokenBy options bar i = line.brokenBy options bar i := by
  have start : other.start = line.start := congrArg Pivot.index h.first_eq
  rw [brokenBy, brokenBy, h.touchesBar_eq, start, h.side_eq, h.atBar_eq]

theorem breakCount_eq (h : line.SameCourse other) :
    other.breakCount options bars = line.breakCount options bars := by
  simp only [breakCount, h.brokenBy_eq]

theorem fitAlong?_eq (h : line.SameCourse other) :
    other.fitAlong? options s bars = line.fitAlong? options s bars := by
  have same (times : Ascending Int) :
      { line with touches := times }.SameCourse { other with touches := times } :=
    ⟨h.slope_eq, h.intercept_eq, h.side_eq, h.lookback_eq, h.first_eq, h.second_eq⟩
  simp only [fitAlong?, touchFit?, h.touchTimes_eq, (same _).atBar_eq, h.side_eq]

/-- What was found before is not looked at. -/
theorem measure_sameMarks (h : line.SameCourse other) :
    (line.measure options s bars).SameMarks (other.measure options s bars) := by
  constructor
  · rw [measure_touches, measure_touches, h.touchTimes_eq]
  · rw [measure_violations, measure_violations, h.breakCount_eq]

end SameCourse

/-- A line that is measured again stays as it is: it runs as before, so the same bars touch it and
the same fit is found, or none again. -/
theorem measure_measure :
    (line.measure options s bars).measure options s bars = line.measure options s bars := by
  have same := line.measure_sameCourse options s bars
  rw [measure_eq options s bars (line.measure options s bars), same.touchTimes_eq,
    same.breakCount_eq, same.fitAlong?_eq, measure_eq options s bars line]
  cases line.fitAlong? options s bars with
  | none | some _ => rfl

end Line

namespace Series

variable (s : Series α) (options : TouchOptions α) (minTouches : Nat) (lines : List (Line α))

theorem measure_sameCourse : List.Forall₂ Line.SameCourse lines (s.measure options lines) :=
  List.forall₂_map_right_iff.mpr
    (List.forall₂_same.mpr fun line _ => line.measure_sameCourse options s s.bars)

theorem measure_sameMarks {lines others : List (Line α)}
    (same : List.Forall₂ Line.SameCourse lines others) :
    List.Forall₂ Line.SameMarks (s.measure options lines) (s.measure options others) := by
  rw [measure, measure, List.forall₂_map_left_iff, List.forall₂_map_right_iff]
  exact same.imp fun _ _ h => h.measure_sameMarks

theorem measure_measure :
    s.measure options (s.measure options lines) = s.measure options lines := by
  rw [measure, measure, List.map_map]
  exact List.map_congr_left fun _ _ => Line.measure_measure

theorem measure_touchedLines :
    s.measure options (s.touchedLines options minTouches lines)
      = s.touchedLines options minTouches lines := by
  have settled : ∀ line ∈ s.touchedLines options minTouches lines,
      line.measure options s s.bars = line := by
    intro line mem
    obtain ⟨found, -, rfl⟩ := List.mem_map.mp (List.mem_filter.mp mem).1
    exact Line.measure_measure
  exact (List.map_congr_left settled).trans (List.map_id _)

theorem touchedLines_touchedLines :
    s.touchedLines options minTouches (s.touchedLines options minTouches lines)
      = s.touchedLines options minTouches lines := by
  conv_lhs => rw [touchedLines, measure_touchedLines]
  exact List.filter_eq_self.mpr fun line mem => (List.mem_filter.mp mem).2

end Series

/-- Measuring keeps the lines in order and their course, and depends on nothing else of them for
what it finds. A second time it changes nothing; nor is a line dropped from those that are kept. What is
kept and what is dropped are the two parts of the measured lines, each in their order. -/
theorem measuring_settles (s : Series α) (options : TouchOptions α) (minTouches : Nat)
    (lines : List (Line α)) :
    List.Forall₂ Line.SameCourse lines (s.measure options lines) ∧
    (∀ others, List.Forall₂ Line.SameCourse lines others →
      List.Forall₂ Line.SameMarks (s.measure options lines) (s.measure options others)) ∧
    s.measure options (s.measure options lines) = s.measure options lines ∧
    s.touchedLines options minTouches (s.touchedLines options minTouches lines)
      = s.touchedLines options minTouches lines ∧
    ∃ kept dropped, (s.measure options lines).partition (Line.isKept minTouches) = (kept, dropped) ∧
      s.touchedLines options minTouches lines = kept ∧
      kept.Sublist (s.measure options lines) ∧ dropped.Sublist (s.measure options lines) ∧
      (kept ++ dropped).Perm (s.measure options lines) ∧
      (∀ line ∈ kept, minTouches ≤ line.touchCount) ∧
      ∀ line ∈ dropped, line.touchCount < minTouches := by
  refine ⟨s.measure_sameCourse options lines, fun _ => s.measure_sameMarks options,
    s.measure_measure options lines, s.touchedLines_touchedLines options minTouches lines,
    _, _, List.partition_eq_filter_filter, rfl, List.filter_sublist, List.filter_sublist,
    List.filter_append_perm _ _, ?_, ?_⟩
  · intro line mem
    exact of_decide_eq_true (List.mem_filter.mp mem).2
  · intro line mem
    have few := (List.mem_filter.mp mem).2
    simpa [Line.isKept] using few

/-- The line as some other measurement may have left it. -/
def Line.stale (line : Line α) : Line α :=
  { line with touches := .ofList [420, 480], violations := 9, rSquared := 0 }

/-- The lines between three tops and between two bottoms are told apart by their touches, whatever
they bring along. -/
theorem measuring_settles_tops :
    List.Forall₂ Line.SameCourse (threeTops.drawnLines sixPercent 1)
      ((threeTops.drawnLines sixPercent 1).map Line.stale) ∧
    (threeTops.measure sixPercent.touches (threeTops.drawnLines sixPercent 1)).map
        (fun line => (line.touchCount, line.violations))
      = [(2, 1), (2, 0), (4, 0), (2, 1)] ∧
    List.Forall₂ Line.SameMarks
      (threeTops.measure sixPercent.touches (threeTops.drawnLines sixPercent 1))
      (threeTops.measure sixPercent.touches
        ((threeTops.drawnLines sixPercent 1).map Line.stale)) := by
  have same : List.Forall₂ Line.SameCourse (threeTops.drawnLines sixPercent 1)
      ((threeTops.drawnLines sixPercent 1).map Line.stale) :=
    List.forall₂_map_right_iff.mpr
      (List.forall₂_same.mpr fun _ _ => ⟨rfl, rfl, rfl, rfl, rfl, rfl⟩)
  exact ⟨same, by decide +kernel,
    (measuring_settles threeTops sixPercent.touches 3 _).2.1 _ same⟩

end Trendline
