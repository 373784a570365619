import Trendline.Proofs.Analysis.Clusters

/-!
Overlays show the clusters they are made from, all of them and in their order. Touches are bars of
the series, the search for a bar by its time finds it where times ascend, and rescaled scores are as
many as the scores.
-/

namespace Trendline

namespace Series

section Search

variable {α : Type} {times : Array Int} {t u : Int} {i j : Nat}

theorem time_lt_iff (ascending : times.toList.Pairwise (· < ·)) (hi : times[i]? = some t)
    (hj : times[j]? = some u) : t < u ↔ i < j := by
  obtain ⟨inside, rfl⟩ := Array.getElem?_eq_some_iff.mp hi
  obtain ⟨inside', rfl⟩ := Array.getElem?_eq_some_iff.mp hj
  have later := List.pairwise_iff_getElem.mp ascending
  rcases Nat.lt_trichotomy i j with h | rfl | h
  · exact iff_of_true (later i j inside inside' h) h
  · exact iff_of_false (Int.lt_irrefl _) (Nat.lt_irrefl _)
  · exact iff_of_false (Int.not_lt.mpr (Int.le_of_lt (later j i inside' inside h))) (by omega)

/-- The stretch in which a bar is looked for keeps it as it is halved. -/
theorem locate_eq (ascending : times.toList.Pairwise (· < ·)) (found : times[i]? = some t)
    {base size : Nat} {h : base + size ≤ times.size} (low : base ≤ i) (high : i < base + size) :
    locate times t base size h = i := by
  fun_induction locate times t base size h with
  | case1 base size h big inside less ih =>
      have before : i < base + size / 2 :=
        (time_lt_iff ascending found (Array.getElem?_eq_getElem inside)).mp less
      exact ih low (by omega)
  | case2 base size h big inside notLess ih =>
      have after : ¬ i < base + size / 2 := fun before =>
        notLess ((time_lt_iff ascending found (Array.getElem?_eq_getElem inside)).mpr before)
      exact ih (Nat.not_lt.mp after) (by omega)
  | case3 base size h small => omega

theorem indexOf?_eq_some_iff {s : Series α}
    (ascending : s.times.toList.Pairwise (· < ·)) :
    s.indexOf? t = some i ↔ s.times[i]? = some t := by
  simp only [indexOf?, Option.ite_none_right_eq_some, Option.some.injEq]
  constructor
  · rintro ⟨entry, rfl⟩
    exact entry
  · intro entry
    obtain ⟨inside, -⟩ := Array.getElem?_eq_some_iff.mp entry
    have located : locate s.times t 0 s.times.size (by omega) = i :=
      locate_eq ascending entry (Nat.zero_le i) (by omega)
    exact ⟨located.symm ▸ entry, located⟩

theorem time_le_last {s : Series α} (ascending : s.times.toList.Pairwise (· < ·))
    (entry : s.times[i]? = some t) (last : s.times.back? = some u) : t ≤ u := by
  rw [Array.back?_eq_getElem?] at last
  obtain ⟨inside, -⟩ := Array.getElem?_eq_some_iff.mp entry
  have notAfter := mt (time_lt_iff ascending last entry).mp (by omega)
  exact Int.not_lt.mp notAfter

end Search

end Series

theorem forall₂_filterMap_zip {β γ δ : Type} {R : β → δ → Prop} {f : β × γ → Option δ} {xs : List β}
    {ys : List γ} (same : xs.length = ys.length)
    (all : ∀ x ∈ xs, ∀ y, ∃ z, f (x, y) = some z ∧ R x z) :
    List.Forall₂ R xs ((xs.zip ys).filterMap f) := by
  induction xs generalizing ys with
  | nil => exact .nil
  | cons x xs ih =>
      cases ys with
      | nil => cases same
      | cons y ys =>
          obtain ⟨first, later⟩ := List.forall_mem_cons.mp all
          obtain ⟨z, eq, rel⟩ := first y
          rw [List.zip_cons_cons, List.filterMap_cons_some eq]
          exact .cons rel (ih (Nat.succ.inj same) later)

variable {α : Type} [Scalar α]

theorem length_rescale (xs : List α) : (rescale xs).length = xs.length := by
  by_cases empty : xs = []
  · rw [empty]
    rfl
  · obtain ⟨low, foundLow⟩ := exists_least? empty
    obtain ⟨high, foundHigh⟩ := exists_greatest? empty
    unfold rescale
    rw [foundLow, foundHigh]
    dsimp only
    split <;> rw [List.length_map]

/-- The point stands on a cluster at a bar of the series. -/
def Point.On (s : Series α) (c : Cluster α) (point : Point α) : Prop :=
  ∃ i : Nat, s.times[i]? = some point.time ∧ point.price = c.slope * (i : α) + c.intercept

/-- The time at which drawn clusters end. -/
def RightEdge.EndsAt (edge : RightEdge) (s : Series α) (c : Cluster α) (t : Int) : Prop :=
  match edge with
  | .lastTouch => t ∈ c.touches ∧ ∀ u ∈ c.touches, u ≤ t
  | .chartEdge => s.times.back? = some t

/-- The overlay shows a cluster from its first touch on. -/
structure Overlay.Draws (drawing : DrawOptions) (s : Series α) (c : Cluster α) (o : Overlay α) :
    Prop where
  score : o.score = c.score
  slope : o.slope = c.slope
  intercept : o.intercept = c.intercept
  side : o.side = c.side
  lookback : o.lookback = c.lookback
  violations : o.violations = c.violations
  touches : o.touches.toList.Pairwise (· < ·) ∧ ∀ t, t ∈ o.touches ↔ t ∈ c.touches
  starts : o.left.time ∈ c.touches ∧ ∀ t ∈ c.touches, o.left.time ≤ t
  ends : drawing.rightEdge.EndsAt s c o.right.time
  left_on : o.left.On s c
  right_on : o.right.On s c
  forward : o.left.time ≤ o.right.time

theorem Series.exists_point {s : Series α} (c : Cluster α) {t : Int} {i : Nat}
    (entry : s.times[i]? = some t) :
    ∃ point, s.point? c i = some point ∧ point.time = t ∧ point.On s c := by
  refine ⟨⟨t, c.atBar i⟩, ?_, rfl, i, entry, rfl⟩
  rw [point?, entry]
  rfl

section Drawing

variable {s : Series α} {c : Cluster α}

theorem RightEdge.exists_index (wf : s.WellFormed) (edge : RightEdge) {last : Int}
    (found : c.lastTouch? = some last) (mem : ∀ t ∈ c.touches, t ∈ s.times) :
    ∃ i t, edge.index? s c = some i ∧ s.times[i]? = some t ∧ edge.EndsAt s c t ∧
      ∀ u ∈ c.touches, u ≤ t := by
  have greatest := Ascending.greatest?_eq_some_iff.mp found
  cases edge with
  | lastTouch =>
      obtain ⟨i, entry⟩ := Array.mem_iff_getElem?.mp (mem last greatest.1)
      refine ⟨i, last, ?_, entry, greatest, greatest.2⟩
      rw [index?, found]
      exact (Series.indexOf?_eq_some_iff wf.ascending).mpr entry
  | chartEdge =>
      have inside : s.size - 1 < s.times.size := Nat.sub_one_lt (Nat.ne_of_gt wf.size_pos)
      have entry := Array.getElem?_eq_getElem inside
      have edge : s.times.back? = some s.times[s.size - 1] := by
        rw [Array.back?_eq_getElem?]
        exact entry
      refine ⟨s.lastIndex, _, ?_, entry, edge, ?_⟩
      · rw [index?, if_neg (Nat.ne_of_gt wf.size_pos)]
      · intro u touch
        obtain ⟨j, entry'⟩ := Array.mem_iff_getElem?.mp (mem u touch)
        exact Series.time_le_last wf.ascending entry' edge

/-- A cluster is drawn if bars of the series touch it, one at least. -/
theorem Overlay.exists_draws (wf : s.WellFormed) (drawing : DrawOptions)
    (touched : 0 < c.touchCount) (mem : ∀ t ∈ c.touches, t ∈ s.times) (relative : α) :
    ∃ o, Overlay.ofCluster? drawing s c relative = some o ∧ Overlay.Draws drawing s c o := by
  obtain ⟨first, last, foundFirst, foundLast⟩ := Ascending.exists_ends touched
  have least := Ascending.least?_eq_some_iff.mp foundFirst
  obtain ⟨i, entry⟩ := Array.mem_iff_getElem?.mp (mem first least.1)
  have start : c.firstTouch?.bind s.indexOf? = some i := by
    rw [Cluster.firstTouch?, foundFirst]
    exact (Series.indexOf?_eq_some_iff wf.ascending).mpr entry
  obtain ⟨j, stopTime, stop, entry', ends, after⟩ :=
    drawing.rightEdge.exists_index wf foundLast mem
  obtain ⟨left, leftPoint, leftTime, leftOn⟩ := Series.exists_point c entry
  obtain ⟨right, rightPoint, rightTime, rightOn⟩ := Series.exists_point c entry'
  refine ⟨{ c with left, right, relative, role := drawing.rolePolicy.role s c }, ?_, ?_⟩
  · simp only [ofCluster?, start, stop, leftPoint, rightPoint, Option.bind_eq_bind,
      Option.bind_some, Option.pure_def]
  · rw [← leftTime] at least
    rw [← rightTime] at ends after
    exact ⟨rfl, rfl, rfl, rfl, rfl, rfl, ⟨c.touches.ascending, fun t => Iff.rfl⟩, least, ends,
      leftOn, rightOn, after _ least.1⟩

end Drawing

/-- Every cluster that an analysis returns is drawn, in the same place of the list. -/
theorem overlays_draw_clusters {s : Series α} {p : Params α} (valid : s.validate = .ok ())
    (inRange : p.validate = .ok ()) :
    ∃ a, s.analyze p = .ok a ∧ a.overlays.length = a.clusters.length ∧
      List.Forall₂ (Overlay.Draws p.drawing s) a.clusters a.overlays := by
  have hs := Series.validate_eq_ok_iff.mp valid
  have hp := Params.validate_eq_ok_iff.mp inRange
  refine ⟨_, Series.analyze_eq_ok hs hp, ?_⟩
  have drawn : List.Forall₂ (Overlay.Draws p.drawing s)
      (Cluster.select p.scoring.minScore p.topN (s.foundClusters p))
      (Overlay.ofClusters p.drawing s
        (Cluster.select p.scoring.minScore p.topN (s.foundClusters p))) := by
    apply forall₂_filterMap_zip
    · rw [length_rescale, List.length_map]
    · intro c mem relative
      have wf := Series.wellFormed_of_mem_foundClusters (Cluster.mem_of_mem_select mem)
      exact Overlay.exists_draws hs p.drawing (hp.minTouches_pos.trans_le wf.enough)
        wf.touches_mem relative
  exact ⟨drawn.length_eq.symm, drawn⟩

/-- The two tops of a zigzag are joined by one line, which is drawn. -/
theorem overlays_draw_clusters_zigzag :
    zigzag.validate = .ok () ∧ zigzagParams.validate = .ok () ∧
      (zigzag.foundClusters zigzagParams).map (·.touches.toList) = [[120, 360]] ∧
      ∃ a, zigzag.analyze zigzagParams = .ok a ∧ a.overlays.length = a.clusters.length ∧
        List.Forall₂ (Overlay.Draws zigzagParams.drawing zigzag) a.clusters a.overlays :=
  ⟨by decide +kernel, by decide +kernel, by decide +kernel,
    overlays_draw_clusters (by decide +kernel) (by decide +kernel)⟩

end Trendline
