import Trendline.Proofs.Analysis.Clusters

/-!
The sides of the market do not meet. Lines are drawn, kept and grouped on each side as if there were
no other.
-/

namespace Trendline

variable {α : Type} [Scalar α]

namespace Group

variable {tolerance : Tolerance α} {side : Side} {line : Line α}

theorem place_filter_own (own : line.side = side) (groups : List (Group α)) :
    (place tolerance line groups).filter (·.founder.side = side)
      = place tolerance line (groups.filter (·.founder.side = side)) := by
  induction groups with
  | nil => simp [place, own]
  | cons g rest ih =>
      by_cases same : g.founder.side = side
      · rw [List.filter_cons, if_pos (decide_eq_true same), place, place]
        by_cases admitted : tolerance.admits g.founder line = true
        · rw [if_pos admitted, if_pos admitted, List.filter_cons, if_pos (decide_eq_true same)]
        · rw [if_neg admitted, if_neg admitted, List.filter_cons, if_pos (decide_eq_true same), ih]
      · have refused : ¬ tolerance.admits g.founder line = true := by
          simp [Tolerance.admits, own, same]
        rw [List.filter_cons, if_neg (by simpa using same), place, if_neg refused,
          List.filter_cons, if_neg (by simpa using same), ih]

theorem place_filter_other (other : line.side ≠ side) (groups : List (Group α)) :
    (place tolerance line groups).filter (·.founder.side = side)
      = groups.filter (·.founder.side = side) := by
  induction groups with
  | nil => simp [place, other]
  | cons g rest ih =>
      rw [place]
      by_cases admitted : tolerance.admits g.founder line = true
      · have same : g.founder.side = line.side := by
          simp only [Tolerance.admits, Bool.and_eq_true, decide_eq_true_eq] at admitted
          exact admitted.1.1
        have out : g.founder.side ≠ side := fun eq => other (same.symm.trans eq)
        rw [if_pos admitted, List.filter_cons, if_neg (by simpa using out), List.filter_cons,
          if_neg (by simpa using out)]
      · rw [if_neg admitted, List.filter_cons, List.filter_cons, ih]

/-- The groups of one side are those of the lines of that side. -/
theorem ofLines_filter (tolerance : Tolerance α) (lines : List (Line α)) (side : Side) :
    (ofLines tolerance lines).filter (·.founder.side = side)
      = ofLines tolerance (lines.filter (·.side = side)) := by
  induction lines using List.reverseRecOn with
  | nil => rfl
  | append_singleton lines line ih =>
      rw [ofLines_concat, List.filter_append]
      by_cases own : line.side = side
      · rw [place_filter_own own, ih, List.filter_singleton, decide_eq_true own, cond_true,
          ofLines_concat]
      · rw [place_filter_other own, ih, List.filter_singleton, decide_eq_false own, cond_false,
          List.append_nil]

end Group

namespace Series

variable {s : Series α} {p : Params α} {lookback : Nat} {side : Side} {line : Line α}

/-- The lines of one side that are drawn. -/
def drawnOn (s : Series α) (p : Params α) (lookback : Nat) (side : Side) : List (Line α) :=
  p.pairs.lines lookback (s.swingsOn lookback p.pivots side)

/-- The lines of one side that enough bars touch. -/
def keptOn (s : Series α) (p : Params α) (lookback : Nat) (side : Side) : List (Line α) :=
  s.touchedLines p.touches p.minTouches (s.drawnOn p lookback side)

theorem keptLines_eq (s : Series α) (p : Params α) (lookback : Nat) :
    s.keptLines p lookback = s.keptOn p lookback .high ++ s.keptOn p lookback .low := by
  simp only [keptLines, drawnLines, keptOn, drawnOn, touchedLines, measure, List.map_append,
    List.filter_append]

theorem side_of_mem_keptOn (mem : line ∈ s.keptOn p lookback side) : line.side = side := by
  obtain ⟨drawn, found, rfl⟩ := List.mem_map.mp (List.mem_of_mem_filter mem)
  obtain ⟨q, r, pair, -, found⟩ := PairOptions.mem_lines_iff.mp found
  obtain ⟨hq, -, ordered⟩ := of_mem_pairs (s.swingsOn_ascending lookback p.pivots side) pair
  rw [Line.measure_side, (PairOptions.of_line? found ordered).2.2.1]
  exact (stands_of_mem_swingsOn hq).side_eq

theorem filter_keptLines (s : Series α) (p : Params α) (lookback : Nat) (side : Side) :
    (s.keptLines p lookback).filter (·.side = side) = s.keptOn p lookback side := by
  have own (side : Side) : (s.keptOn p lookback side).filter (·.side = side)
      = s.keptOn p lookback side :=
    List.filter_eq_self.mpr fun line mem => decide_eq_true (side_of_mem_keptOn mem)
  have other {side side' : Side} (ne : side' ≠ side) :
      (s.keptOn p lookback side').filter (·.side = side) = [] :=
    List.filter_eq_nil_iff.mpr fun line mem => by simpa [side_of_mem_keptOn mem] using ne
  rw [keptLines_eq, List.filter_append]
  cases side with
  | high => rw [own, other (by decide), List.append_nil]
  | low => rw [own, other (by decide), List.nil_append]

theorem filter_allLines (s : Series α) (p : Params α) (side : Side) :
    (s.allLines p).filter (·.side = side)
      = p.sortedLookbacks.toList.flatMap fun l => s.keptOn p l side := by
  simp only [allLines, List.filter_flatMap, filter_keptLines]

/-- The clusters of one side that are found. -/
def foundOn (s : Series α) (p : Params α) (side : Side) : List (Cluster α) :=
  (Cluster.ofLines p.merging (p.sortedLookbacks.toList.flatMap fun l => s.keptOn p l side)).map
    (Cluster.assignScore p.scoring s)

theorem filter_foundClusters (s : Series α) (p : Params α) (side : Side) :
    (s.foundClusters p).filter (·.side = side) = s.foundOn p side := by
  have sides : (fun c : Cluster α => decide (c.side = side)) ∘ Cluster.assignScore p.scoring s
      ∘ Group.cluster = fun g => decide (g.founder.side = side) := rfl
  unfold foundClusters foundOn Cluster.ofLines
  rw [← filter_allLines, ← Group.ofLines_filter]
  simp only [List.map_map, List.filter_map, sides]

/-- The clusters found are those of either side. -/
theorem foundClusters_perm (s : Series α) (p : Params α) :
    (s.foundClusters p).Perm (s.foundOn p .high ++ s.foundOn p .low) := by
  have low : (s.foundClusters p).filter (fun c => !decide (c.side = .high))
      = s.foundOn p .low := by
    rw [← filter_foundClusters]
    congr 1
    funext c
    cases c.side <;> rfl
  rw [← filter_foundClusters, ← low]
  exact (List.filter_append_perm _ _).symm

end Series

end Trendline
