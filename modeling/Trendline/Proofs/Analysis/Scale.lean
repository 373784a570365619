import Trendline.Proofs.Analysis.Evidence
import Trendline.Proofs.Analysis.Selection
import Trendline.Proofs.Double.Coincidence
import Trendline.Proofs.Double.TotalOrder

/-!
The scale on which scores are shown. In exact arithmetic values keep their order on it, the greatest
stands at one and the least at zero; where they hardly differ, all stand at one. Ranked scores
descend, so the best cluster is drawn with one; with rounded scores too, as long as none and no
difference of two is too large for a double.
-/

namespace Trendline

section Between

variable {α : Type} [Scalar α] {xs : List α} {low high x : α}

/-- How far a value is on the way from one to another. Where these hardly differ, it is there. -/
def progressBetween (low high x : α) : α :=
  if high - low ≤ Scalar.epsilon then 1 else (x - low) / (high - low)

theorem rescale_eq_map (least : least? xs = some low) (greatest : greatest? xs = some high) :
    rescale xs = xs.map (progressBetween low high) := by
  unfold rescale
  rw [least, greatest]
  dsimp only
  split_ifs with narrow
  · exact List.map_congr_left fun x _ => (if_pos narrow).symm
  · exact List.map_congr_left fun x _ => (if_neg narrow).symm

/-- The greatest value stands where the way ends, if it comes first. -/
theorem head?_rescale [LawfulScalar α] (finite : ∀ y ∈ x :: xs, Scalar.isFinite y = true)
    (most : ∀ y ∈ xs, ¬ x < y) :
    ∃ low ∈ x :: xs, (rescale (x :: xs)).head? = some (progressBetween low x x) := by
  obtain ⟨low, least, mem, -⟩ := least?_spec (List.cons_ne_nil x xs) finite
  refine ⟨low, mem, ?_⟩
  rw [rescale_eq_map least (greatest?_cons finite most)]
  rfl

end Between

namespace Rational

variable {low high x y : Rat}

theorem progressBetween_of_le (narrow : high - low ≤ 1 / 2 ^ 52) (x : Rat) :
    progressBetween low high x = 1 := by
  rw [← epsilon_eq] at narrow
  exact if_pos narrow

theorem progressBetween_of_lt (wide : 1 / 2 ^ 52 < high - low) (x : Rat) :
    progressBetween low high x = (x - low) / (high - low) := by
  rw [← epsilon_eq] at wide
  exact if_neg wide.not_ge

theorem span_pos (wide : 1 / 2 ^ 52 < high - low) : 0 < high - low :=
  lt_trans (by positivity) wide

theorem progressBetween_high (low high : Rat) : progressBetween low high high = 1 := by
  rcases le_or_gt (high - low) (1 / 2 ^ 52) with narrow | wide
  · exact progressBetween_of_le narrow high
  · rw [progressBetween_of_lt wide, div_self (span_pos wide).ne']

theorem progressBetween_low (wide : 1 / 2 ^ 52 < high - low) : progressBetween low high low = 0 := by
  rw [progressBetween_of_lt wide, sub_self, zero_div]

theorem progressBetween_sub_mul (wide : 1 / 2 ^ 52 < high - low) (x y : Rat) :
    (progressBetween low high y - progressBetween low high x) * (high - low) = y - x := by
  rw [progressBetween_of_lt wide, progressBetween_of_lt wide, ← sub_div,
    div_mul_cancel₀ _ (span_pos wide).ne', sub_sub_sub_cancel_right]

theorem progressBetween_mono (ordered : low ≤ high) (le : x ≤ y) :
    progressBetween low high x ≤ progressBetween low high y := by
  rcases le_or_gt (high - low) (1 / 2 ^ 52) with narrow | wide
  · rw [progressBetween_of_le narrow, progressBetween_of_le narrow]
  · rw [progressBetween_of_lt wide, progressBetween_of_lt wide]
    exact div_le_div_of_nonneg_right (sub_le_sub_right le low) (sub_nonneg.mpr ordered)

theorem progressBetween_mem (inside : x ∈ Set.Icc low high) :
    progressBetween low high x ∈ Set.Icc (0 : Rat) 1 := by
  have ordered := inside.1.trans inside.2
  constructor
  · rcases le_or_gt (high - low) (1 / 2 ^ 52) with narrow | wide
    · rw [progressBetween_of_le narrow]
      exact zero_le_one
    · rw [← progressBetween_low wide]
      exact progressBetween_mono ordered inside.1
  · rw [← progressBetween_high low high]
    exact progressBetween_mono ordered inside.2

end Rational

open Rational

/-- The values `ys` are where the values `xs` stand on a scale that runs from zero at `low` to one at
`high`. Where these hardly differ, all is one. -/
structure Scales (low high : Rat) (xs ys : List Rat) : Prop where
  length_eq : ys.length = xs.length
  inside : ∀ u ∈ ys, u ∈ Set.Icc (0 : Rat) 1
  ordered : ∀ {x y u v}, (x, u) ∈ xs.zip ys → (y, v) ∈ xs.zip ys → x ≤ y → u ≤ v
  highest : ∀ {u}, (high, u) ∈ xs.zip ys → u = 1
  lowest : 1 / 2 ^ 52 < high - low → ∀ {u}, (low, u) ∈ xs.zip ys → u = 0
  proportional : 1 / 2 ^ 52 < high - low → ∀ {x y u v}, (x, u) ∈ xs.zip ys → (y, v) ∈ xs.zip ys →
    (v - u) * (high - low) = y - x
  level : high - low ≤ 1 / 2 ^ 52 → ∀ u ∈ ys, u = 1

theorem mem_zip_map_iff {β γ : Type} {f : β → γ} {xs : List β} {x : β} {u : γ} :
    (x, u) ∈ xs.zip (xs.map f) ↔ x ∈ xs ∧ f x = u := by
  have paired : (xs.map id).zip (xs.map f) = xs.map fun x => (x, f x) := List.zip_map'
  rw [List.map_id] at paired
  rw [paired]
  simp

theorem scales_map {low high : Rat} {xs : List Rat} (ordered : low ≤ high)
    (between : ∀ x ∈ xs, x ∈ Set.Icc low high) :
    Scales low high xs (xs.map (progressBetween low high)) where
  length_eq := List.length_map _
  inside := List.forall_mem_map.mpr fun x mem => progressBetween_mem (between x mem)
  ordered := by
    intro x y u v first second le
    obtain ⟨-, rfl⟩ := mem_zip_map_iff.mp first
    obtain ⟨-, rfl⟩ := mem_zip_map_iff.mp second
    exact progressBetween_mono ordered le
  highest := by
    intro u paired
    obtain ⟨-, rfl⟩ := mem_zip_map_iff.mp paired
    exact progressBetween_high low high
  lowest := by
    intro wide u paired
    obtain ⟨-, rfl⟩ := mem_zip_map_iff.mp paired
    exact progressBetween_low wide
  proportional := by
    intro wide x y u v first second
    obtain ⟨-, rfl⟩ := mem_zip_map_iff.mp first
    obtain ⟨-, rfl⟩ := mem_zip_map_iff.mp second
    exact progressBetween_sub_mul wide x y
  level := fun narrow => List.forall_mem_map.mpr fun x _ => progressBetween_of_le narrow x

/-- Rescaled values stand between the least and the greatest of them. -/
theorem exists_scales_rescale {xs : List Rat} (nonempty : xs ≠ []) :
    ∃ low high, IsLeast {x | x ∈ xs} low ∧ IsGreatest {x | x ∈ xs} high ∧
      Scales low high xs (rescale xs) := by
  obtain ⟨low, foundLow, lowMem, least⟩ := least?_spec nonempty fun _ _ => rfl
  obtain ⟨high, foundHigh, highMem, greatest⟩ := greatest?_spec nonempty fun _ _ => rfl
  have between (x : Rat) (mem : x ∈ xs) : x ∈ Set.Icc low high :=
    ⟨not_lt.mp (least x mem), not_lt.mp (greatest x mem)⟩
  refine ⟨low, high, ⟨lowMem, fun x mem => (between x mem).1⟩,
    ⟨highMem, fun x mem => (between x mem).2⟩, ?_⟩
  rw [rescale_eq_map foundLow foundHigh]
  exact scales_map (between high highMem).1 between

namespace Cluster

variable {α : Type} [Scalar α] {a b : Cluster α}

/-- Where no score is invalid, the rank order puts no lower score first. -/
theorem isLE_order_of_rankOrder (validA : a.invalid = false) (validB : b.invalid = false)
    (first : (a.rankOrder b).isLE = true) : (Scalar.order b.score a.score).isLE = true := by
  have valid : compare a.invalid b.invalid = .eq := by
    rw [validA, validB]
    rfl
  rw [Ordering.isLE_iff_ne_gt, rankOrder, valid, Ordering.eq_then, Ordering.then_eq_gt, not_or]
    at first
  exact Ordering.isLE_iff_ne_gt.mpr first.1

/-- The scores of the clusters chosen descend. -/
theorem descending_select [Std.TransCmp (Scalar.order : α → α → Ordering)]
    (agrees : ∀ {x y : α}, (Scalar.order x y).isLE = true → ¬ y < x)
    {minScore : Option α} {topN : Option Nat} {clusters : List (Cluster α)}
    (valid : ∀ c ∈ select minScore topN clusters, c.invalid = false) :
    (select minScore topN clusters).Pairwise fun a b => ¬ a.score < b.score := by
  apply (pairwise_select minScore topN clusters).imp_of_mem
  intro a b memA memB first
  exact agrees (isLE_order_of_rankOrder (valid a memA) (valid b memB) first)

end Cluster

namespace Series

theorem wellFormed_of_mem_select {α : Type} [Scalar α] {s : Series α} {p : Params α} {c : Cluster α}
    {minScore : Option α} {topN : Option Nat}
    (mem : c ∈ Cluster.select minScore topN (s.foundClusters p)) : c.WellFormed s p :=
  wellFormed_of_mem_foundClusters (Cluster.mem_of_mem_select mem)

theorem invalid_of_mem_foundClusters {s : Series Rat} {p : Params Rat} {c : Cluster Rat}
    (mem : c ∈ s.foundClusters p) : c.invalid = false := by
  obtain ⟨d, -, rfl⟩ := List.mem_map.mp mem
  exact Scoring.isInvalid_eq_false p.scoring s d

end Series

section Drawing

variable {α : Type} [Scalar α] {s : Series α} {p : Params α} {drawing : DrawOptions} {c : Cluster α}
  {relative : α} {o : Overlay α} {ranked : List (Cluster α)}

theorem Overlay.relative_of_ofCluster? (drawn : ofCluster? drawing s c relative = some o) :
    o.relative = relative := by
  rw [ofCluster?_eq_map relative relative] at drawn
  obtain ⟨o', -, rfl⟩ := Option.map_eq_some_iff.mp drawn
  rfl

/-- Every cluster is drawn with where its own score stands among the scores. -/
theorem Overlay.map_relative_ofClusters (hs : s.WellFormed) (hp : p.WellFormed)
    (drawing : DrawOptions) (wf : ∀ c ∈ ranked, c.WellFormed s p) :
    (ofClusters drawing s ranked).map (·.relative) = rescale (ranked.map (·.score)) := by
  have each : ∀ pair ∈ ranked.zip (rescale (ranked.map (·.score))),
      (ofCluster? drawing s pair.1 pair.2).map (·.relative) = some pair.2 := by
    intro ⟨c, relative⟩ mem
    obtain ⟨listed, -⟩ := List.of_mem_zip mem
    obtain ⟨o, drawn, -⟩ := exists_draws_of_wellFormed hs hp drawing (wf c listed) relative
    rw [drawn, Option.map_some, relative_of_ofCluster? drawn]
  calc (ofClusters drawing s ranked).map (·.relative)
      = (ranked.zip (rescale (ranked.map (·.score)))).filterMap fun pair =>
          (ofCluster? drawing s pair.1 pair.2).map (·.relative) := List.map_filterMap
    _ = (ranked.zip (rescale (ranked.map (·.score)))).filterMap fun pair => some pair.2 :=
        List.filterMap_congr each
    _ = (ranked.zip (rescale (ranked.map (·.score)))).map (·.2) := by
        rw [List.filterMap_eq_map']
    _ = rescale (ranked.map (·.score)) := by
        apply List.map_snd_zip
        rw [length_rescale, List.length_map]

/-- Where scores descend, the first cluster is drawn at the end of the way from some score to its
own. -/
theorem Overlay.exists_first [LawfulScalar α] (hs : s.WellFormed) (hp : p.WellFormed)
    (drawing : DrawOptions) (wf : ∀ d ∈ ranked, d.WellFormed s p)
    (finite : ∀ d ∈ ranked, Scalar.isFinite d.score = true)
    (descending : ranked.Pairwise fun a b => ¬ a.score < b.score) (front : ranked.head? = some c) :
    (∀ d ∈ ranked, ¬ c.score < d.score) ∧
      ∃ o, (ofClusters drawing s ranked).head? = some o ∧ Draws drawing s c o ∧
        ∃ d ∈ ranked, o.relative = progressBetween d.score c.score c.score := by
  obtain ⟨rest, rfl⟩ := List.head?_eq_some_iff.mp front
  have most : ∀ d ∈ rest, ¬ c.score < d.score := fun d mem =>
    List.rel_of_pairwise_cons descending mem
  refine ⟨List.forall_mem_cons.mpr ⟨LawfulScalar.lt_irrefl c.score, most⟩, ?_⟩
  obtain ⟨o, others, ⟨draws, -⟩, -, listed⟩ :=
    List.forall₂_cons_left_iff.mp (forall₂_ofClusters hs hp drawing wf)
  have top : ∃ low ∈ (c :: rest).map (·.score), (rescale ((c :: rest).map (·.score))).head?
      = some (progressBetween low c.score c.score) :=
    head?_rescale ((List.forall_mem_map (l := c :: rest)).mpr finite)
      (List.forall_mem_map.mpr most)
  obtain ⟨_, mem, first⟩ := top
  obtain ⟨d, lowest, rfl⟩ := List.mem_map.mp mem
  rw [← map_relative_ofClusters hs hp drawing wf, listed] at first
  exact ⟨o, by rw [listed]; rfl, draws, d, lowest, Option.some.inj first⟩

end Drawing

/-- Rescaling keeps the order of values between zero and one, the greatest at one. What is drawn of
clusters is rescaled so, and the best of them, with the highest score, is drawn with one. -/
theorem best_cluster_tops_scale :
    (∀ xs : List Rat, xs ≠ [] → ∃ low high, IsLeast {x | x ∈ xs} low ∧
      IsGreatest {x | x ∈ xs} high ∧ Scales low high xs (rescale xs)) ∧
    ∀ {s : Series Rat} {p : Params Rat}, s.validate = .ok () → p.validate = .ok () →
      ∃ a, s.analyze p = .ok a ∧
        a.overlays.map (·.relative) = rescale (a.clusters.map (·.score)) ∧
        ∀ best, a.clusters.head? = some best → (∀ c ∈ a.clusters, c.score ≤ best.score) ∧
          ∃ o, a.overlays.head? = some o ∧ Overlay.Draws p.drawing s best o ∧ o.relative = 1 := by
  refine ⟨fun xs nonempty => exists_scales_rescale nonempty, ?_⟩
  intro s p valid inRange
  have hs := Series.validate_eq_ok_iff.mp valid
  have hp := Params.validate_eq_ok_iff.mp inRange
  refine ⟨_, Series.analyze_eq_ok hs hp, Overlay.map_relative_ofClusters hs hp p.drawing
    fun c mem => Series.wellFormed_of_mem_select mem, ?_⟩
  intro best front
  have descending := Cluster.descending_select (fun le => not_lt.mpr (isLE_order_iff.mp le))
    fun c (mem : c ∈ Cluster.select p.scoring.minScore p.topN (s.foundClusters p)) =>
      Series.invalid_of_mem_foundClusters (Cluster.mem_of_mem_select mem)
  obtain ⟨most, o, first, draws, d, -, relative⟩ := Overlay.exists_first hs hp p.drawing
    (fun c mem => Series.wellFormed_of_mem_select mem) (fun _ _ => rfl) descending front
  rw [progressBetween_high] at relative
  exact ⟨fun c mem => not_lt.mp (most c mem), o, first, draws, relative⟩

/-- Of the two lines of the rising zigzag the one along the tops is the best. -/
theorem best_cluster_tops_scale_rising :
    ([3, -1, 7, 2] ≠ ([] : List Rat) ∧ rescale [3, -1, 7, 2] = [1 / 2, 0, 1, (3 / 8 : Rat)] ∧
      exactRising.validate = .ok () ∧ exactParams.validate = .ok () ∧
      (exactRising.foundClusters exactParams).map (·.score) = [131 / 200, 121 / 200]) ∧
    (∃ low high, IsLeast {x | x ∈ [3, -1, 7, (2 : Rat)]} low ∧
      IsGreatest {x | x ∈ [3, -1, 7, (2 : Rat)]} high ∧
      Scales low high [3, -1, 7, 2] (rescale [3, -1, 7, 2])) ∧
    ∃ a, exactRising.analyze exactParams = .ok a ∧
      a.overlays.map (·.relative) = rescale (a.clusters.map (·.score)) ∧
      ∀ best, a.clusters.head? = some best → (∀ c ∈ a.clusters, c.score ≤ best.score) ∧
        ∃ o, a.overlays.head? = some o ∧ Overlay.Draws exactParams.drawing exactRising best o ∧
          o.relative = 1 :=
  ⟨by decide +kernel, best_cluster_tops_scale.1 _ (by decide),
    best_cluster_tops_scale.2 (by decide +kernel) (by decide +kernel)⟩

namespace Double

theorem progressBetween_high {low high : Float} (finite : (high - low).isFinite = true) :
    progressBetween low high high = 1 := by
  rw [progressBetween]
  split_ifs with narrow
  · rfl
  · obtain ⟨m, e, is⟩ := exists_is_of_not_le_epsilon finite narrow
    exact is.div_self

end Double

/-- A score that is a number is made of numbers. -/
theorem Scoring.isInvalid_of_isNumber {scoring : Scoring Float} {s : Series Float}
    {c : Cluster Float} (number : Scalar.isNumber (scoring.score s c) = true) :
    scoring.isInvalid s c = false := by
  apply isInvalid_of_stages
  rw [score] at number
  rw [stages]
  cases mode : scoring.mode with
  | rSquared =>
      rw [mode] at number
      simpa using number
  | weighted =>
      rw [mode] at number
      dsimp only at number ⊢
      have violations : Scalar.isNumber (scoring.scoreToViolations s c) = true := by
        rw [scoreToDistance] at number
        exact Double.isNumber_of_sub number
      have recency : Scalar.isNumber (scoring.scoreToRecency s c) = true := by
        rw [scoreToViolations] at violations
        exact Double.isNumber_of_sub violations
      have parts : Scalar.isNumber (scoring.scoreToTouches c) = true ∧
          Scalar.isNumber (scoring.recencyWeight * Scoring.recency s c) = true := by
        rw [scoreToRecency] at recency
        exact Double.isNumber_of_add recency
      have fit : Scalar.isNumber (scoring.scoreOfFit c) = true := by
        have touches := parts.1
        rw [scoreToTouches] at touches
        exact (Double.isNumber_of_add touches).1
      simp [parts, fit, recency, violations, number]

/-- With rounded scores too the best cluster is drawn with one, unless a score or the difference of
two is too large for a double. -/
theorem best_rounded_cluster_tops_scale {s : Series Float} {p : Params Float}
    (valid : s.validate = .ok ()) (inRange : p.validate = .ok ()) :
    ∃ a, s.analyze p = .ok a ∧ ∀ best, a.clusters.head? = some best →
      (∀ c ∈ a.clusters, c.score.isFinite = true ∧ (best.score - c.score).isFinite = true) →
      ∃ o, a.overlays.head? = some o ∧ Overlay.Draws p.drawing s best o ∧ o.relative = 1 := by
  have hs := Series.validate_eq_ok_iff.mp valid
  have hp := Params.validate_eq_ok_iff.mp inRange
  refine ⟨_, Series.analyze_eq_ok hs hp, ?_⟩
  intro best front finite
  have valid : ∀ c ∈ Cluster.select p.scoring.minScore p.topN (s.foundClusters p),
      c.invalid = false := by
    intro c mem
    obtain ⟨d, -, rfl⟩ := List.mem_map.mp (Cluster.mem_of_mem_select mem)
    exact Scoring.isInvalid_of_isNumber (Scalar.isNumber_of_isFinite (finite _ mem).1)
  obtain ⟨-, o, first, draws, d, mem, relative⟩ := Overlay.exists_first hs hp p.drawing
    (fun c mem => Series.wellFormed_of_mem_select mem) (fun c mem => (finite c mem).1)
    (Cluster.descending_select Double.not_lt_of_isLE_order valid) front
  rw [Double.progressBetween_high (finite d mem).2] at relative
  exact ⟨o, first, draws, relative⟩

end Trendline
