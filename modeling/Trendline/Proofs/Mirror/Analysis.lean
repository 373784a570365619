import Mathlib.Data.List.Perm.Basic
import Trendline.Proofs.Analysis.Scores
import Trendline.Proofs.Double.Sign
import Trendline.Proofs.Mirror.Lines

/-!
The analysis of a series turned upside down: supports become resistances and resistances become
supports, with the same evidence and the same scores.
-/

namespace Trendline

def LookbackStats.flip (stats : LookbackStats) : LookbackStats :=
  { stats with highPivots := stats.lowPivots, lowPivots := stats.highPivots }

/-- The same counts with the sides exchanged. -/
def Stats.flip (stats : Stats) : Stats :=
  { stats with lookbacks := stats.lookbacks.map LookbackStats.flip }

variable {α : Type} [Scalar α] [Neg α]

/-- Clusters on opposite sides with opposite trends and everything else in common. -/
structure Cluster.Mirrors (c c' : Cluster α) : Prop where
  fit : c.toFit.Mirrors c'.toFit
  touches : c'.touches = c.touches
  violations : c'.violations = c.violations
  lookback : c'.lookback = c.lookback
  lookbacks : c'.lookbacks = c.lookbacks
  side : c'.side = c.side.flip
  members : c'.members = c.members
  start : c'.start = c.start
  score : c'.score = c.score
  invalid : c'.invalid = c.invalid

structure Group.Mirrors (g g' : Group α) : Prop where
  founder : g.founder.Mirrors g'.founder
  joined : List.Forall₂ Line.Mirrors g.joined g'.joined

open Scalar

variable [LawfulNeg α]

/-! Groups -/

theorem Tolerance.admits_mirrors (tolerance : Tolerance α) {founder founder' line line' : Line α}
    (hf : founder.Mirrors founder') (h : line.Mirrors line') :
    tolerance.admits founder' line' = tolerance.admits founder line := by
  have sides : decide (founder'.side = line'.side) = decide (founder.side = line.side) := by
    rw [hf.side, h.side]
    exact decide_eq_decide.mpr Side.flip_eq_iff
  unfold admits
  rw [sides, LawfulNeg.abs_eq (LawfulNeg.opposite_sub h.fit.trend.slope hf.fit.trend.slope),
    LawfulNeg.abs_eq (LawfulNeg.opposite_sub h.fit.trend.intercept hf.fit.trend.intercept)]

namespace Group

variable {tolerance : Tolerance α} {groups groups' : List (Group α)} {line line' : Line α}

theorem place_mirrors (h : line.Mirrors line') (hg : List.Forall₂ Mirrors groups groups') :
    List.Forall₂ Mirrors (place tolerance line groups) (place tolerance line' groups') := by
  induction hg with
  | nil => exact .cons ⟨h, .nil⟩ .nil
  | cons first later ih =>
      rw [place, place, tolerance.admits_mirrors first.founder h]
      split
      · exact .cons ⟨first.founder, .cons h first.joined⟩ later
      · exact .cons first ih

theorem ofLines_mirrors {lines lines' : List (Line α)}
    (h : List.Forall₂ Line.Mirrors lines lines') :
    List.Forall₂ Mirrors (ofLines tolerance lines) (ofLines tolerance lines') := by
  have run {groups groups' : List (Group α)} (start : List.Forall₂ Mirrors groups groups') :
      List.Forall₂ Mirrors
        (lines.foldl (fun groups line => place tolerance line groups) groups)
        (lines'.foldl (fun groups line => place tolerance line groups) groups') := by
    induction h generalizing groups groups' with
    | nil => exact start
    | cons first _ ih => exact ih (place_mirrors first start)
  exact run .nil

namespace Mirrors

variable {g g' : Group α}

omit [LawfulNeg α] in
theorem lines (h : g.Mirrors g') : List.Forall₂ Line.Mirrors g.lines g'.lines :=
  .cons h.founder (List.rel_reverse h.joined)

theorem meanOf (h : g.Mirrors g') {quantity : Line α → α}
    (turned : ∀ line line', line.Mirrors line' → Opposite (quantity line) (quantity line')) :
    Opposite (g.meanOf quantity) (g'.meanOf quantity) := by
  unfold Group.meanOf
  rw [h.lines.length_eq]
  exact LawfulNeg.opposite_div _ (opposite_sum (forall₂_map_map h.lines turned))

theorem cluster (h : g.Mirrors g') : g.cluster.Mirrors g'.cluster := by
  have mapped {γ : Type} (quantity : Line α → γ)
      (same : ∀ line line', line.Mirrors line' → quantity line' = quantity line) :
      g'.lines.map quantity = g.lines.map quantity := map_eq_of_forall₂ h.lines same
  have rSquared : g'.meanOf (·.rSquared) = g.meanOf (·.rSquared) := by
    unfold Group.meanOf
    rw [mapped (·.rSquared) fun _ _ same => same.fit.rSquared, h.lines.length_eq]
  have touches : g'.cluster.touches = g.cluster.touches := by
    apply Ascending.ext_mem
    intro t
    rw [mem_cluster_touches, mem_cluster_touches]
    have listed := mapped (·.touches) fun _ _ same => same.touches
    have either (g : Group α) : (∃ line ∈ g.lines, t ∈ line.touches)
        ↔ ∃ times ∈ g.lines.map (·.touches), t ∈ times := by
      simp only [List.mem_map, exists_exists_and_eq_and]
    rw [either, either, listed]
  have start : g'.cluster.start = g.cluster.start := by
    have folded (g : Group α) : g.cluster.start
        = (g.lines.map (·.start)).foldl min g.founder.start := List.foldl_map.symm
    rw [folded, folded, mapped (·.start) fun _ _ same => same.start, h.founder.start]
  exact
    { fit := ⟨⟨h.meanOf fun _ _ same => same.fit.trend.slope,
        h.meanOf fun _ _ same => same.fit.trend.intercept⟩, rSquared⟩
      touches
      violations := congrArg (fun counts : List Nat => counts.foldl (· + ·) 0 % wordCount)
        (mapped (·.violations) fun _ _ same => same.violations)
      lookback := h.founder.lookback
      lookbacks := congrArg Ascending.ofList (mapped (·.lookback) fun _ _ same => same.lookback)
      side := h.founder.side
      members := h.lines.length_eq.symm
      start
      score := rfl
      invalid := congrArg (fun x => !isNumber x) rSquared }

end Mirrors

end Group

/-! Scores -/

theorem Cluster.Mirrors.assignScore {c c' : Cluster α} (h : c.Mirrors c') (scoring : Scoring α)
    (s : Series α) : (c.assignScore scoring s).Mirrors (c'.assignScore scoring s.mirror) := by
  have evidence : Cluster.SameEvidence s s.mirror c c' :=
    { rSquared := h.fit.rSquared
      invalid := h.invalid
      touchCount := by rw [touchCount, h.touches, touchCount]
      recency := by
        rw [Scoring.recency, lastTouch?, h.touches]
        rfl
      violationRatio := by
        rw [Scoring.violationRatio, h.start, h.violations, h.members]
        rfl
      distance := by
        have close : s.mirror.lastClose? = s.lastClose?.map (-·) := Array.back?_map
        have last : s.mirror.lastIndex = s.lastIndex := rfl
        unfold Scoring.distance
        rw [close, last]
        cases s.lastClose? with
        | none => rfl
        | some close =>
            exact congrArg (atMost 1)
              (relativeDistance_eq (h.fit.trend.atBar s.lastIndex) (opposite_neg close)) }
  exact { h with score := evidence.score_eq scoring, invalid := evidence.isInvalid_eq scoring }

namespace Series

variable [LawfulScalar α] {s : Series α} {p : Params α}

theorem mirror_foundOn (wf : s.WellFormed) (off : ¬ 0 < p.pivots.dedupe) (side : Side) :
    List.Forall₂ Cluster.Mirrors (s.foundOn p side) (s.mirror.foundOn p side.flip) := by
  have kept : List.Forall₂ Line.Mirrors
      (p.sortedLookbacks.toList.flatMap fun l => s.keptOn p l side)
      (p.sortedLookbacks.toList.flatMap fun l => s.mirror.keptOn p l side.flip) := by
    induction p.sortedLookbacks.toList with
    | nil => exact .nil
    | cons l ls ih => exact List.rel_append (mirror_keptOn wf off l side) ih
  exact forall₂_map_map (forall₂_map_map (Group.ofLines_mirrors kept) fun _ _ h => h.cluster)
    fun _ _ h => h.assignScore p.scoring s

theorem mirror_lookbackStats (wf : s.WellFormed) (off : ¬ 0 < p.pivots.dedupe) (lookback : Nat) :
    s.mirror.lookbackStats p lookback = (s.lookbackStats p lookback).flip := by
  have pivots (side : Side) : (s.mirror.swingsOn lookback p.pivots side.flip).length
      = (s.swingsOn lookback p.pivots side).length := by
    rw [mirror_swingsOn off, List.length_map]
  have drawn (side : Side) : (s.mirror.drawnOn p lookback side.flip).length
      = (s.drawnOn p lookback side).length := (mirror_drawnOn off s lookback side).length_eq.symm
  have kept (side : Side) : (s.mirror.keptOn p lookback side.flip).length
      = (s.keptOn p lookback side).length := (mirror_keptOn wf off lookback side).length_eq.symm
  have candidates (s : Series α) : (s.drawnLines p lookback).length
      = (s.drawnOn p lookback .high).length + (s.drawnOn p lookback .low).length :=
    List.length_append
  have total (s : Series α) : (s.keptLines p lookback).length
      = (s.keptOn p lookback .high).length + (s.keptOn p lookback .low).length := by
    rw [keptLines_eq, List.length_append]
  simp only [lookbackStats, LookbackStats.flip, candidates, total]
  rw [← pivots .high, ← pivots .low, ← drawn .high, ← drawn .low, ← kept .high, ← kept .low]
  simp only [Side.flip, Nat.add_comm]

end Series

/-- Turning a series upside down exchanges the sides: the counts of each lookback are exchanged, and
each cluster has a twin of opposite trend, with the same evidence and score, among those returned. -/
theorem analyze_mirror [LawfulScalar α] {s : Series α} {p : Params α}
    (valid : s.validate = .ok ()) (inRange : p.validate = .ok ()) (off : ¬ 0 < p.pivots.dedupe)
    (all : p.topN = none) :
    ∃ a a', s.analyze p = .ok a ∧ s.mirror.analyze p = .ok a' ∧ a'.stats = a.stats.flip ∧
      ∃ twins, List.Forall₂ Cluster.Mirrors a.clusters twins ∧ twins.Perm a'.clusters := by
  have hs := Series.validate_eq_ok_iff.mp valid
  have hp := Params.validate_eq_ok_iff.mp inRange
  have sides : List.Forall₂ Cluster.Mirrors (s.foundOn p .high ++ s.foundOn p .low)
      (s.mirror.foundOn p .low ++ s.mirror.foundOn p .high) :=
    List.rel_append (Series.mirror_foundOn hs off .high) (Series.mirror_foundOn hs off .low)
  have found : (s.mirror.foundOn p .low ++ s.mirror.foundOn p .high).Perm
      (s.mirror.foundClusters p) :=
    List.perm_append_comm.trans (s.mirror.foundClusters_perm p).symm
  refine ⟨_, _, Series.analyze_eq_ok hs hp, Series.analyze_eq_ok hs.mirror hp, ?_, ?_⟩
  · have count : (s.mirror.foundClusters p).length = (s.foundClusters p).length := by
      rw [← found.length_eq, ← sides.length_eq, (s.foundClusters_perm p).length_eq]
    have lookbacks : s.mirror.lookbackStats p = LookbackStats.flip ∘ s.lookbackStats p :=
      funext (Series.mirror_lookbackStats hs off)
    rw [Stats.flip, List.map_map, count, lookbacks]
    rfl
  · rw [all]
    have admitted := forall₂_filter sides (p := fun c => p.scoring.minScore.all (· ≤ c.score))
      (q := fun c => p.scoring.minScore.all (· ≤ c.score)) fun c c' h => by rw [h.score]
    have ranked := (Cluster.select_perm_filter p.scoring.minScore (s.foundClusters p)).trans
      ((s.foundClusters_perm p).filter _)
    obtain ⟨twins, paired, moved⟩ := List.perm_comp_forall₂ ranked admitted
    exact ⟨twins, paired, moved.trans ((found.filter _).trans
      (Cluster.select_perm_filter p.scoring.minScore (s.mirror.foundClusters p)).symm)⟩

/-- A rising zigzag has a line along its tops and one along its bottoms, a falling one the other way
around. -/
theorem analyze_mirror_rising :
    (rising.validate = .ok () ∧ risingParams.validate = .ok () ∧
      ¬ 0 < risingParams.pivots.dedupe ∧ risingParams.topN = none) ∧
    (rising.foundClusters risingParams).map (·.side) = [.high, .low] ∧
    ∃ a a', rising.analyze risingParams = .ok a ∧ rising.mirror.analyze risingParams = .ok a' ∧
      a'.stats = a.stats.flip ∧
      ∃ twins, List.Forall₂ Cluster.Mirrors a.clusters twins ∧ twins.Perm a'.clusters :=
  ⟨by decide +kernel, by decide +kernel,
    analyze_mirror (by decide +kernel) (by decide +kernel) (by decide +kernel) rfl⟩

end Trendline
