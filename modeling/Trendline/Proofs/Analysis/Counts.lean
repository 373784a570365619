import Trendline.Proofs.Analysis.Overlays
import Trendline.Proofs.Analysis.Sides
import Trendline.Proofs.Double.Spread

/-!
No line is lost and none is made up. Every two swings of one side at an admitted distance give one
line, every line that is kept is in one cluster, and the counts of an analysis are those of what it
found.
-/

namespace Trendline

section Generic

variable {α : Type}

/-- The pairs of swings whose distance in bars is in the range asked for. -/
def PairOptions.pairsInRange (options : PairOptions) (swings : List (Pivot α)) :
    List (Pivot α × Pivot α) :=
  (pairs swings).filter fun (q, r) =>
    let distance := max q.index r.index - min q.index r.index
    options.minSpan ≤ distance && options.maxSpan.all (distance ≤ ·)

theorem Stats.totalKept_eq_sum (stats : Stats) :
    stats.totalKept = (stats.lookbacks.map (·.kept)).sum :=
  List.sum_eq_foldl_nat.symm

variable [Scalar α]

namespace Group

/-- Placing a line among groups adds this line to theirs and no other. -/
theorem lines_place_perm (tolerance : Tolerance α) (line : Line α) (groups : List (Group α)) :
    ((place tolerance line groups).flatMap lines).Perm (line :: groups.flatMap lines) := by
  induction groups with
  | nil => exact .refl _
  | cons g rest ih =>
      rw [place]
      by_cases admitted : tolerance.admits g.founder line = true
      · rw [if_pos admitted, List.flatMap_cons, List.flatMap_cons, lines_push, List.append_assoc]
        exact List.perm_middle
      · rw [if_neg admitted, List.flatMap_cons, List.flatMap_cons]
        exact (ih.append_left _).trans List.perm_middle

/-- Each line is in one group. -/
theorem lines_ofLines_perm (tolerance : Tolerance α) (lines : List (Line α)) :
    ((ofLines tolerance lines).flatMap Group.lines).Perm lines := by
  induction lines using List.reverseRecOn with
  | nil => exact .refl _
  | append_singleton lines line ih =>
      rw [ofLines_concat]
      exact (lines_place_perm tolerance line _).trans
        ((ih.cons line).trans (List.perm_append_singleton line lines).symm)

end Group

theorem Cluster.length_select_none (topN : Option Nat) (clusters : List (Cluster α)) :
    (select none topN clusters).length = topN.elim clusters.length (min · clusters.length) := by
  have ranked := (select_perm clusters).length_eq
  cases topN with
  | none => exact ranked
  | some n =>
      rw [← ranked]
      exact List.length_take

theorem Cluster.length_select_le (minScore : Option α) (topN : Option Nat)
    (clusters : List (Cluster α)) :
    (select minScore topN clusters).length ≤ clusters.length := by
  have ranked : (select minScore none clusters).length ≤ clusters.length :=
    (select_perm_filter minScore clusters).length_eq.trans_le (List.length_filter_le _ _)
  cases topN with
  | none => exact ranked
  | some n => exact (List.length_take_le' n _).trans ranked

namespace Series

theorem sum_members_foundClusters (s : Series α) (p : Params α) :
    ((s.foundClusters p).map (·.members)).sum = (s.allLines p).length := by
  have members : (fun c : Cluster α => c.members) ∘ Cluster.assignScore p.scoring s
      ∘ Group.cluster = fun g => g.lines.length := rfl
  rw [foundClusters, Cluster.ofLines, List.map_map, List.map_map, Function.comp_assoc, members,
    ← List.length_flatMap, (Group.lines_ofLines_perm _ _).length_eq]

theorem length_keptLines_le (s : Series α) (p : Params α) (lookback : Nat) :
    (s.keptLines p lookback).length ≤ (s.drawnLines p lookback).length := by
  rw [keptLines, touchedLines, measure]
  exact (List.length_filter_le _ _).trans_eq (List.length_map _)

theorem sum_kept_lookbackStats (s : Series α) (p : Params α) :
    ((p.sortedLookbacks.toList.map (s.lookbackStats p)).map (·.kept)).sum
      = (s.allLines p).length := by
  rw [allLines, List.length_flatMap, List.map_map]
  rfl

theorem lookbacks_lookbackStats (s : Series α) (p : Params α) :
    (p.sortedLookbacks.toList.map (s.lookbackStats p)).map (·.lookback)
      = p.sortedLookbacks.toList := by
  rw [List.map_map]
  exact List.map_id _

/-- Two swings of one side are admitted for a line by their distance alone. -/
theorem filter_admits_swingsOn {s : Series α} (hs : s.WellFormed) (p : Params α) (lookback : Nat)
    (side : Side) :
    (pairs (s.swingsOn lookback p.pivots side)).filter (fun (q, r) => p.pairs.admits q r)
      = p.pairs.pairsInRange (s.swingsOn lookback p.pivots side) := by
  apply List.filter_congr
  rintro ⟨q, r⟩ pair
  obtain ⟨hq, hr, ordered⟩ := of_mem_pairs (s.swingsOn_ascending lookback p.pivots side) pair
  have left := stands_of_mem_swingsOn hq
  have right := stands_of_mem_swingsOn hr
  have earlier : q.time < r.time :=
    (time_lt_iff hs.ascending left.time_eq right.time_eq).mpr ordered
  have sides : q.side = r.side := left.side_eq.trans right.side_eq.symm
  simp [PairOptions.admits, sides, Int.ne_of_lt earlier]

end Series

end Generic

theorem PairOptions.isSome_line? {q r : Pivot Float} {lookback : Nat} (ordered : q.index < r.index)
    (fits : r.index < 2 ^ 53) : (line? lookback q r).isSome = true := by
  obtain ⟨fit, found⟩ := Double.exists_fit ordered fits q.price r.price
  simp only [line?, if_pos (Nat.le_of_lt ordered)]
  change (Option.map _ (Fit.ofPoints? [(Scalar.doubleOfCount q.index, q.price),
    (Scalar.doubleOfCount r.index, r.price)])).isSome = true
  rw [found]
  rfl

/-- Every two swings of one side at an admitted distance give a line. -/
theorem Series.length_drawnOn {s : Series Float} (hs : s.WellFormed) (few : s.size < 2 ^ 53)
    (p : Params Float) (lookback : Nat) (side : Side) :
    (s.drawnOn p lookback side).length
      = (p.pairs.pairsInRange (s.swingsOn lookback p.pivots side)).length := by
  rw [drawnOn, PairOptions.lines, ← filter_admits_swingsOn hs]
  apply List.filterMap_length_eq_length.mpr
  rintro ⟨q, r⟩ mem
  obtain ⟨-, hr, ordered⟩ := of_mem_pairs (s.swingsOn_ascending lookback p.pivots side)
    (List.mem_of_mem_filter mem)
  have inside := (stands_of_mem_swingsOn hr).after
  exact PairOptions.isSome_line? ordered (by omega)

/-- What one lookback has contributed, in terms of its swings. -/
theorem Series.lookbackStats_counts {s : Series Float} (hs : s.WellFormed) (few : s.size < 2 ^ 53)
    (p : Params Float) {lookback : Nat} (positive : 0 < lookback) :
    ∃ swings, s.swings lookback p.pivots = .ok swings ∧
      (s.lookbackStats p lookback).candidates
        = (p.pairs.pairsInRange swings.highs).length + (p.pairs.pairsInRange swings.lows).length ∧
      (s.lookbackStats p lookback).kept ≤ (s.lookbackStats p lookback).candidates := by
  refine ⟨_, swings_eq_ok positive, ?_, s.length_keptLines_le p lookback⟩
  rw [← length_drawnOn hs few, ← length_drawnOn hs few]
  exact List.length_append

/-- The counts of an analysis add up: those of pairs to those of lines, those of lines to those of
the members of clusters, and those of clusters to those returned. -/
theorem analyze_counts {s : Series Float} {p : Params Float} (few : s.size < 2 ^ 53)
    (valid : s.validate = .ok ()) (inRange : p.validate = .ok ()) :
    ∃ a, s.analyze p = .ok a ∧
      (a.stats.lookbacks.map (·.lookback)).Pairwise (· < ·) ∧
      (∀ l, l ∈ a.stats.lookbacks.map (·.lookback) ↔ l ∈ p.lookbacks) ∧
      (∀ entry ∈ a.stats.lookbacks, ∃ swings, s.swings entry.lookback p.pivots = .ok swings ∧
        entry.candidates = (p.pairs.pairsInRange swings.highs).length
          + (p.pairs.pairsInRange swings.lows).length ∧
        entry.kept ≤ entry.candidates) ∧
      ((s.foundClusters p).map (·.members)).sum = a.stats.totalKept ∧
      (s.foundClusters p).length = a.stats.clusters ∧
      a.clusters = Cluster.select p.scoring.minScore p.topN (s.foundClusters p) ∧
      (p.scoring.minScore = none → p.topN = none → a.clusters.length = a.stats.clusters) ∧
      (p.scoring.minScore = none → ∀ n ∈ p.topN, a.clusters.length = min n a.stats.clusters) ∧
      a.clusters.length ≤ a.stats.clusters := by
  have hs := Series.validate_eq_ok_iff.mp valid
  have hp := Params.validate_eq_ok_iff.mp inRange
  refine ⟨_, Series.analyze_eq_ok hs hp, ?_, ?_, ?_, ?_, rfl, rfl, ?_, ?_,
    Cluster.length_select_le _ _ _⟩
  · dsimp only
    rw [s.lookbacks_lookbackStats]
    exact p.sortedLookbacks.ascending
  · intro l
    dsimp only
    rw [s.lookbacks_lookbackStats]
    exact Ascending.mem_ofList
  · intro entry mem
    obtain ⟨l, asked, rfl⟩ := List.mem_map.mp mem
    exact Series.lookbackStats_counts hs few p (hp.lookback_pos l (Ascending.mem_ofList.mp asked))
  · rw [s.sum_members_foundClusters, Stats.totalKept_eq_sum, s.sum_kept_lookbackStats]
  · intro noLeast noLimit
    dsimp only
    rw [noLeast, noLimit, Cluster.length_select_none]
    rfl
  · intro noLeast n limit
    dsimp only
    rw [noLeast, Option.mem_def.mp limit, Cluster.length_select_none]
    rfl

/-- Two tops and two bottoms in the narrow window give two lines, the one swing of either side in
the wide window gives none, and both lines are returned. -/
theorem analyze_counts_rising :
    (rising.size < 2 ^ 53 ∧ rising.validate = .ok () ∧ risingParams.validate = .ok () ∧
      (rising.analyze risingParams).toOption.map (·.stats)
        = some ⟨9, [⟨1, 2, 2, 2, 2⟩, ⟨2, 1, 1, 0, 0⟩], 2⟩) ∧
    ∃ a, rising.analyze risingParams = .ok a ∧
      (a.stats.lookbacks.map (·.lookback)).Pairwise (· < ·) ∧
      (∀ l, l ∈ a.stats.lookbacks.map (·.lookback) ↔ l ∈ risingParams.lookbacks) ∧
      (∀ entry ∈ a.stats.lookbacks, ∃ swings,
        rising.swings entry.lookback risingParams.pivots = .ok swings ∧
        entry.candidates = (risingParams.pairs.pairsInRange swings.highs).length
          + (risingParams.pairs.pairsInRange swings.lows).length ∧
        entry.kept ≤ entry.candidates) ∧
      ((rising.foundClusters risingParams).map (·.members)).sum = a.stats.totalKept ∧
      (rising.foundClusters risingParams).length = a.stats.clusters ∧
      a.clusters = Cluster.select risingParams.scoring.minScore risingParams.topN
        (rising.foundClusters risingParams) ∧
      (risingParams.scoring.minScore = none → risingParams.topN = none →
        a.clusters.length = a.stats.clusters) ∧
      (risingParams.scoring.minScore = none → ∀ n ∈ risingParams.topN,
        a.clusters.length = min n a.stats.clusters) ∧
      a.clusters.length ≤ a.stats.clusters :=
  ⟨by decide +kernel, analyze_counts (by decide) (by decide +kernel) (by decide +kernel)⟩

end Trendline
