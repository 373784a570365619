import Trendline.Proofs.Analysis.Sides
import Trendline.Proofs.Clustering.Reordering

/-!
The two sides of the market are grouped apart. All groups stand in one list that is searched from
the front, and lines of both sides come in any order; still the lines of one side meet the groups of
that side alone, so that first fit of all lines, read on the positions of one side, is first fit of
the lines of that side.
-/

namespace Trendline

section Places

variable {β : Type}

/-- The elements of a list that a test accepts stand in positions that ascend. -/
theorem exists_places (p : β → Bool) (xs : List β) :
    ∃ place : Fin (xs.filter p).length → Fin xs.length, StrictMono place ∧
      (∀ i, xs.get (place i) = (xs.filter p).get i) ∧
      ∀ i, (∃ j, place j = i) ↔ p (xs.get i) = true := by
  let places := (List.finRange xs.length).filter (p ∘ xs.get)
  have entries : xs.filter p = places.map xs.get := by
    rw [← List.filter_map, List.map_get_finRange]
  rw [entries]
  have count : (places.map xs.get).length = places.length := List.length_map _
  have listed (i : Fin xs.length) : i ∈ places ↔ p (xs.get i) = true := by
    simp [places]
  refine ⟨fun i => places.get (i.cast count), ?_, ?_, ?_⟩
  · have ascending : places.Pairwise (· < ·) := (List.pairwise_lt_finRange _).filter _
    intro i j less
    exact List.pairwise_iff_get.mp ascending _ _ less
  · intro i
    simp
  · intro i
    rw [← listed, List.mem_iff_get]
    exact ⟨fun ⟨j, entry⟩ => ⟨j.cast count, entry⟩, fun ⟨j, entry⟩ => ⟨j.cast count.symm, entry⟩⟩

end Places

variable {α : Type} [Scalar α]

namespace FirstFit

variable {tolerance : Tolerance α} {lines lines' : List (Line α)} {m m' : Nat}
  {founder founder' : Fin m → Fin lines.length} {home : Fin lines.length → Fin m}

theorem side_founder (h : FirstFit tolerance lines founder home) (i : Fin lines.length) :
    (lines.get (founder (home i))).side = (lines.get i).side := by
  by_cases eq : founder (home i) = i
  · rw [eq]
  · exact (h.joined i eq).2.1

theorem founder_unique (h : FirstFit tolerance lines founder home)
    (h' : FirstFit tolerance lines founder' home) : founder' = founder := by
  funext k
  have le := h.founder_le (founder' k)
  have ge := h'.founder_le (founder k)
  rw [h'.home_founder] at le
  rw [h.home_founder] at ge
  exact le_antisymm ge le

/-- First fit on some of the positions, if founders stand there and the groups of these lines are
numbered in their order. -/
theorem restrict (h : FirstFit tolerance lines founder home)
    {place : Fin lines'.length → Fin lines.length} {slot : Fin m' → Fin m}
    (places : StrictMono place) (slots : StrictMono slot)
    (same : ∀ i, lines.get (place i) = lines'.get i)
    {founder' : Fin m' → Fin lines'.length} {home' : Fin lines'.length → Fin m'}
    (founded : ∀ k, place (founder' k) = founder (slot k))
    (sent : ∀ i, slot (home' i) = home (place i)) :
    FirstFit tolerance lines' founder' home' := by
  constructor
  case founder_lt =>
    intro j k less
    rw [← places.lt_iff_lt, founded, founded]
    exact h.founder_lt _ _ (slots less)
  case home_founder =>
    intro k
    apply slots.injective
    rw [sent, founded, h.home_founder]
  case joined =>
    intro i other
    have joined : founder (home (place i)) ≠ place i → founder (home (place i)) < place i ∧
        tolerance.Near (lines.get (founder (home (place i)))) (lines.get (place i)) :=
      h.joined (place i)
    rw [← sent, ← founded, same, same, places.lt_iff_lt] at joined
    exact joined (places.injective.ne other)
  case first =>
    intro i k less
    have apart : ¬ tolerance.Near (lines.get (founder (slot k))) (lines.get (place i)) :=
      h.first (place i) (slot k) (sent i ▸ slots less)
    rwa [← founded, same, same] at apart

end FirstFit

namespace Cluster

/-- The clusters of one side are those of the lines of that side, in their order. -/
theorem ofLines_filter (tolerance : Tolerance α) (lines : List (Line α)) (side : Side) :
    (ofLines tolerance lines).filter (·.side = side)
      = ofLines tolerance (lines.filter (·.side = side)) := by
  have founders : (fun c : Cluster α => decide (c.side = side)) ∘ Group.cluster
      = fun g => decide (g.founder.side = side) := rfl
  rw [ofLines, List.filter_map, founders, Group.ofLines_filter, ofLines]

/-- How the clusters of the lines of one side lie among the clusters of all lines. The lines of the
side stand in the positions `place`, and what comes of them in the positions `slot`. A line that
joins a cluster among those of its side joins the same one among all lines, and the same line has
founded it. -/
def SetApart (tolerance : Tolerance α) (lines : List (Line α)) (side : Side) : Prop :=
  let own := lines.filter (·.side = side)
  ∃ (place : Fin own.length → Fin lines.length)
    (slot : Fin (ofLines tolerance own).length → Fin (ofLines tolerance lines).length),
    StrictMono place ∧ StrictMono slot ∧
    (∀ i, lines.get (place i) = own.get i) ∧
    (∀ k, (ofLines tolerance lines).get (slot k) = (ofLines tolerance own).get k) ∧
    ∃ founder home founder' home',
      GroupedBy tolerance lines founder home ∧ GroupedBy tolerance own founder' home' ∧
      (∀ i, slot (home' i) = home (place i)) ∧ ∀ k, place (founder' k) = founder (slot k)

theorem setApart (tolerance : Tolerance α) (lines : List (Line α)) (side : Side) :
    SetApart tolerance lines side := by
  obtain ⟨place, places, same, onPlace⟩ := exists_places (·.side = side) lines
  have clusters := exists_places (·.side = side) (ofLines tolerance lines)
  rw [ofLines_filter] at clusters
  obtain ⟨slot, slots, copies, onSlot⟩ := clusters
  obtain ⟨founder, home, fit, represents⟩ := partitions_ofLines tolerance lines
  obtain ⟨founder₀, home₀, fit₀, represents₀⟩ :=
    partitions_ofLines tolerance (lines.filter (·.side = side))
  -- A line and its cluster are on the side of the founder.
  have founded (k) : ∃ j, place j = founder (slot k) := by
    have cluster : ((ofLines tolerance lines).get (slot k)).side = side :=
      of_decide_eq_true ((onSlot (slot k)).mp ⟨k, rfl⟩)
    have own : _ = (lines.get (founder (slot k))).side := (represents (slot k)).side_eq
    exact (onPlace _).mpr (decide_eq_true (own.symm.trans cluster))
  have sent (i) : ∃ k, slot k = home (place i) := by
    have line : (lines.get (place i)).side = side :=
      of_decide_eq_true ((onPlace (place i)).mp ⟨i, rfl⟩)
    have own : _ = (lines.get (founder (home (place i)))).side :=
      (represents (home (place i))).side_eq
    exact (onSlot _).mpr (decide_eq_true ((own.trans (fit.side_founder _)).trans line))
  choose founder' founded using founded
  choose home' sent using sent
  have fit' : FirstFit tolerance (lines.filter (·.side = side)) founder' home' :=
    fit.restrict places slots same founded sent
  obtain rfl : home₀ = home' := funext fun i => Fin.ext ((fit'.unique fit₀).2 i)
  obtain rfl := fit'.founder_unique fit₀
  exact ⟨place, slot, places, slots, same, copies, founder, home, founder₀, home₀,
    ⟨fit, represents⟩, ⟨fit₀, represents₀⟩, sent, founded⟩

end Cluster

/-- The clusters of one side are, in their order, those of the lines of that side, and come about as
these do; so whatever is done to the lines of the other side does not show in them. -/
theorem sides_cluster_apart (tolerance : Tolerance α) (lines : List (Line α)) (side : Side) :
    (Cluster.ofLines tolerance lines).filter (·.side = side)
        = Cluster.ofLines tolerance (lines.filter (·.side = side)) ∧
      Cluster.SetApart tolerance lines side ∧
      ∀ lines', lines'.filter (·.side = side) = lines.filter (·.side = side) →
        (Cluster.ofLines tolerance lines').filter (·.side = side)
          = (Cluster.ofLines tolerance lines).filter (·.side = side) := by
  refine ⟨Cluster.ofLines_filter tolerance lines side, Cluster.setApart tolerance lines side, ?_⟩
  intro lines' own
  rw [Cluster.ofLines_filter, Cluster.ofLines_filter, own]

/-- The lines through lows as they are, with one through highs more, and that before them. -/
def relevels : List (Line Float) :=
  [levelLine Float 12 .high 5, levelLine Float 10 .high 8, levelLine Float 10 .low 5,
    levelLine Float 20 .low 5, levelLine Float 11 .low 8]

theorem sides_cluster_apart_levels :
    relevels.filter (·.side = .low) = (levels Float).filter (·.side = .low) ∧
      (Cluster.ofLines (oneApart Float) relevels).map (·.side) = [.high, .high, .low, .low] ∧
      (Cluster.ofLines (oneApart Float) relevels).filter (·.side = .low)
        = (Cluster.ofLines (oneApart Float) (levels Float)).filter (·.side = .low) := by
  have own : relevels.filter (·.side = .low) = (levels Float).filter (·.side = .low) := by
    decide +kernel
  exact ⟨own, by decide +kernel, (sides_cluster_apart _ _ _).2.2 _ own⟩

end Trendline
