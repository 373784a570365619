import Mathlib.Tactic.Ring
import Trendline.Proofs.Analysis.Lines
import Trendline.Proofs.Ascending
import Trendline.Proofs.Double.Rounding
import Trendline.Proofs.Scalar.Rational
import Trendline.Proofs.Traversal

/-!
What clusters keep of their lines. A group lists some of the lines in their order, its founder
first; the representative has the touches and the lookbacks of all of them, starts with the first,
and adds up their violations. Its exact numbers lie where those of its lines lie.
-/

namespace Trendline

variable {α : Type} [Scalar α]

namespace Group

variable {tolerance : Tolerance α} {g : Group α} {line : Line α}

omit [Scalar α] in
theorem lines_push (g : Group α) (line : Line α) :
    ({ g with joined := line :: g.joined } : Group α).lines = g.lines ++ [line] := by
  simp [lines]

theorem ofLines_concat (tolerance : Tolerance α) (lines : List (Line α)) (line : Line α) :
    ofLines tolerance (lines ++ [line]) = place tolerance line (ofLines tolerance lines) := by
  simp [ofLines]

theorem place_sublist {groups : List (Group α)} {lines : List (Line α)}
    (h : ∀ g ∈ groups, g.lines.Sublist lines) :
    ∀ g ∈ place tolerance line groups, g.lines.Sublist (lines ++ [line]) := by
  induction groups with
  | nil =>
      intro g mem
      rw [place, List.mem_singleton] at mem
      rw [mem]
      exact List.sublist_append_right lines [line]
  | cons g' rest ih =>
      obtain ⟨first, later⟩ := List.forall_mem_cons.mp h
      have kept : ∀ g ∈ rest, g.lines.Sublist (lines ++ [line]) := fun g mem =>
        (later g mem).trans (List.sublist_append_left _ _)
      unfold place
      split
      · apply List.forall_mem_cons.mpr ⟨?_, kept⟩
        rw [lines_push]
        exact first.append_right [line]
      · exact List.forall_mem_cons.mpr ⟨first.trans (List.sublist_append_left _ _), ih later⟩

/-- A group lists some of the lines in their order. -/
theorem lines_sublist {lines : List (Line α)} (mem : g ∈ ofLines tolerance lines) :
    g.lines.Sublist lines := by
  induction lines using List.reverseRecOn generalizing g with
  | nil => cases mem
  | append_singleton lines line ih =>
      rw [ofLines_concat] at mem
      exact place_sublist (fun g mem => ih mem) g mem

end Group

section Lists

variable {β : Type}

theorem foldl_min_spec (start : β → Nat) (i : Nat) (xs : List β) :
    let least := xs.foldl (fun i x => min i (start x)) i
    least ≤ i ∧ (∀ x ∈ xs, least ≤ start x) ∧ (least = i ∨ ∃ x ∈ xs, least = start x) := by
  induction xs generalizing i with
  | nil => simp
  | cons x xs ih =>
      obtain ⟨le, all, attained⟩ := ih (min i (start x))
      rw [Nat.le_min] at le
      refine ⟨le.1, List.forall_mem_cons.mpr ⟨le.2, all⟩, ?_⟩
      rcases attained with eq | ⟨y, mem, eq⟩
      · rcases Nat.le_total i (start x) with h | h
        · exact .inl (by rw [List.foldl_cons, eq, Nat.min_eq_left h])
        · exact .inr ⟨x, List.mem_cons_self, by rw [List.foldl_cons, eq, Nat.min_eq_right h]⟩
      · exact .inr ⟨y, List.mem_cons_of_mem _ mem, eq⟩

theorem foldl_add_le (bound n : Nat) {xs : List Nat} (h : ∀ x ∈ xs, x ≤ bound) :
    xs.foldl (· + ·) n ≤ n + xs.length * bound := by
  induction xs generalizing n with
  | nil => simp
  | cons x xs ih =>
      obtain ⟨first, later⟩ := List.forall_mem_cons.mp h
      calc (x :: xs).foldl (· + ·) n
          ≤ n + x + xs.length * bound := ih (n + x) later
        _ ≤ n + bound + xs.length * bound := by omega
        _ = n + (x :: xs).length * bound := by
            rw [List.length_cons]
            ring

end Lists

omit [Scalar α] in
theorem mem_foldl_union {t : Int} {lines : List (Line α)} {times : Ascending Int} :
    t ∈ lines.foldl (fun times line => times.union line.touches) times ↔
      t ∈ times ∨ ∃ line ∈ lines, t ∈ line.touches := by
  induction lines generalizing times with
  | nil => simp
  | cons line lines ih =>
      rw [List.foldl_cons, ih, Ascending.mem_union]
      simp [or_assoc]

namespace Group

variable {g : Group α}

omit [Scalar α] in
theorem founder_mem_lines (g : Group α) : g.founder ∈ g.lines :=
  List.mem_cons_self

theorem mem_cluster_touches {t : Int} :
    t ∈ g.cluster.touches ↔ ∃ line ∈ g.lines, t ∈ line.touches := by
  change t ∈ g.lines.foldl (fun (times : Ascending Int) line => times.union line.touches)
    Ascending.empty ↔ _
  have none : ¬ t ∈ (Ascending.empty : Ascending Int) := List.not_mem_nil
  rw [mem_foldl_union]
  simp [none]

theorem mem_cluster_lookbacks {l : Nat} :
    l ∈ g.cluster.lookbacks ↔ ∃ line ∈ g.lines, line.lookback = l := by
  change l ∈ Ascending.ofList (g.lines.map (·.lookback)) ↔ _
  rw [Ascending.mem_ofList, List.mem_map]

theorem cluster_start_le {line : Line α} (mem : line ∈ g.lines) :
    g.cluster.start ≤ line.start :=
  (foldl_min_spec Line.start g.founder.start g.lines).2.1 line mem

theorem exists_cluster_start (g : Group α) : ∃ line ∈ g.lines, g.cluster.start = line.start := by
  rcases (foldl_min_spec Line.start g.founder.start g.lines).2.2 with eq | attained
  · exact ⟨g.founder, g.founder_mem_lines, eq⟩
  · exact attained

theorem meanOf_mem {g : Group Rat} {quantity : Line Rat → Rat} {low high : Rat}
    (inside : ∀ line ∈ g.lines, quantity line ∈ Set.Icc low high) :
    g.meanOf quantity ∈ Set.Icc low high := by
  have nonempty : g.lines.map quantity ≠ [] := List.cons_ne_nil _ _
  have average := Rational.average_mem nonempty (List.forall_mem_map.mpr inside)
  rwa [List.length_map] at average

end Group

/-- What is known of a cluster that an analysis returns. -/
structure Cluster.WellFormed (s : Series α) (p : Params α) (c : Cluster α) : Prop where
  touches_mem : ∀ t ∈ c.touches, t ∈ s.times
  enough : p.minTouches ≤ c.touchCount
  members_pos : 0 < c.members
  lookback_mem : c.lookback ∈ c.lookbacks
  lookbacks_mem : ∀ l ∈ c.lookbacks, l ∈ p.lookbacks
  lookback_le : ∀ l ∈ c.lookbacks, c.lookback ≤ l
  lookback_le_start : c.lookback ≤ c.start
  room : c.start + p.pairs.minSpan + c.lookback < s.size
  violations_le : c.violations ≤ c.members * (s.size - c.start)

/-- A group of sound lines has a well-formed representative, if its founder has the smallest of
their lookbacks. -/
theorem Group.wellFormed_cluster {s : Series α} {p : Params α} {g : Group α}
    (sound : ∀ line ∈ g.lines, line.Sound s p)
    (asked : ∀ line ∈ g.lines, line.lookback ∈ p.lookbacks)
    (first : ∀ line ∈ g.lines, g.founder.lookback ≤ line.lookback) :
    g.cluster.WellFormed s p := by
  have founder := sound g.founder g.founder_mem_lines
  refine ⟨?_, ?_, ?_, ?_, ?_, ?_, ?_, ?_, ?_⟩
  · intro t mem
    obtain ⟨line, listed, touched⟩ := mem_cluster_touches.mp mem
    exact (sound line listed).touches_mem t touched
  · have sub : ∀ t ∈ g.founder.touches, t ∈ g.cluster.touches := fun t mem =>
      mem_cluster_touches.mpr ⟨g.founder, g.founder_mem_lines, mem⟩
    exact founder.enough.trans (Ascending.size_le_size sub)
  · exact List.length_pos_of_mem g.founder_mem_lines
  · exact mem_cluster_lookbacks.mpr ⟨g.founder, g.founder_mem_lines, rfl⟩
  · intro l mem
    obtain ⟨line, listed, rfl⟩ := mem_cluster_lookbacks.mp mem
    exact asked line listed
  · intro l mem
    obtain ⟨line, listed, rfl⟩ := mem_cluster_lookbacks.mp mem
    exact first line listed
  · obtain ⟨line, listed, start⟩ := g.exists_cluster_start
    rw [start]
    exact (first line listed).trans (sound line listed).lookback_le_start
  · have start := cluster_start_le g.founder_mem_lines
    have room := founder.room
    change g.cluster.start + p.pairs.minSpan + g.founder.lookback < s.size
    omega
  · have each : ∀ n ∈ g.lines.map (·.violations), n ≤ s.size - g.cluster.start := by
      intro n mem
      obtain ⟨line, listed, rfl⟩ := List.mem_map.mp mem
      have own := (sound line listed).violations_le
      have start := cluster_start_le listed
      omega
    have sum := foldl_add_le _ 0 each
    rw [List.length_map, Nat.zero_add] at sum
    exact (Nat.mod_le _ _).trans sum

namespace Series

variable {s : Series α} {p : Params α}

/-- The lines of all lookbacks, the smallest lookback first. -/
def allLines (s : Series α) (p : Params α) : List (Line α) :=
  p.sortedLookbacks.toList.flatMap (s.keptLines p)

theorem mem_allLines_iff {line : Line α} :
    line ∈ s.allLines p ↔ ∃ l ∈ p.lookbacks, line ∈ s.keptLines p l := by
  rw [allLines, List.mem_flatMap]
  exact exists_congr fun l => and_congr_left' Ascending.mem_ofList

theorem allLines_ascending (s : Series α) (p : Params α) :
    (s.allLines p).Pairwise (·.lookback ≤ ·.lookback) := by
  rw [allLines, List.pairwise_flatMap]
  constructor
  · intro l _
    apply List.Pairwise.imp_of_mem _ (List.pairwise_of_forall fun _ _ => trivial)
    intro a b ha hb _
    rw [lookback_of_mem_keptLines ha, lookback_of_mem_keptLines hb]
  · refine p.sortedLookbacks.ascending.imp fun {l m} less a ha b hb => ?_
    rw [lookback_of_mem_keptLines ha, lookback_of_mem_keptLines hb]
    exact Nat.le_of_lt less

/-- The clusters of all lines with their scores, in the order of their founders. -/
def foundClusters (s : Series α) (p : Params α) : List (Cluster α) :=
  (Cluster.ofLines p.merging (s.allLines p)).map (Cluster.assignScore p.scoring s)

theorem wellFormed_of_mem_foundClusters {c : Cluster α} (mem : c ∈ s.foundClusters p) :
    c.WellFormed s p := by
  simp only [foundClusters, Cluster.ofLines, List.mem_map, exists_exists_and_eq_and] at mem
  obtain ⟨g, listed, rfl⟩ := mem
  have sub : g.lines.Sublist (s.allLines p) := Group.lines_sublist listed
  have found (line : Line α) (h : line ∈ g.lines) : ∃ l ∈ p.lookbacks, line ∈ s.keptLines p l :=
    mem_allLines_iff.mp (sub.subset h)
  have wf : g.cluster.WellFormed s p := by
    refine Group.wellFormed_cluster ?_ ?_ ?_
    · intro line h
      obtain ⟨l, -, kept⟩ := found line h
      exact sound_of_mem_keptLines kept
    · intro line h
      obtain ⟨l, asked, kept⟩ := found line h
      exact lookback_of_mem_keptLines kept ▸ asked
    · have ascending := (s.allLines_ascending p).sublist sub
      exact List.forall_mem_cons.mpr ⟨Nat.le_refl _, (List.pairwise_cons.mp ascending).1⟩
  exact ⟨wf.touches_mem, wf.enough, wf.members_pos, wf.lookback_mem, wf.lookbacks_mem,
    wf.lookback_le, wf.lookback_le_start, wf.room, wf.violations_le⟩

end Series

theorem Cluster.mem_of_mem_select {minScore : Option α} {topN : Option Nat}
    {clusters : List (Cluster α)} {c : Cluster α} (mem : c ∈ select minScore topN clusters) :
    c ∈ clusters := by
  have ranked : c ∈ (clusters.filter fun c => minScore.all (· ≤ c.score)).mergeSort
      fun a b => a.rankOrder b ≠ .gt := by
    unfold select at mem
    cases topN with
    | none => exact mem
    | some n => exact List.mem_of_mem_take mem
  exact (List.mem_filter.mp (List.mem_mergeSort.mp ranked)).1

/-- Ranking only moves clusters. -/
theorem Cluster.select_perm_filter (minScore : Option α) (clusters : List (Cluster α)) :
    (select minScore none clusters).Perm (clusters.filter fun c => minScore.all (· ≤ c.score)) :=
  List.mergeSort_perm _ _

theorem Cluster.select_perm (clusters : List (Cluster α)) :
    (select none none clusters).Perm clusters := by
  have all : clusters.filter (fun c => (none : Option α).all (· ≤ c.score)) = clusters :=
    List.filter_eq_self.mpr fun _ _ => rfl
  have ranked := select_perm_filter none clusters
  rwa [all] at ranked

theorem Series.analyze_of_params_error {s : Series α} {p : Params α} {e : Error α}
    (refused : p.validate = .error e) : s.analyze p = .error e := by
  unfold analyze
  rw [refused]
  rfl

theorem Series.analyze_of_series_error {s : Series α} {p : Params α} {e : Error α}
    (inRange : p.validate = .ok ()) (refused : s.validate = .error e) :
    s.analyze p = .error e := by
  unfold analyze
  rw [inRange, refused]
  rfl

/-- What an analysis accepts obeys the rules. -/
theorem Series.wellFormed_of_analyze {s : Series α} {p : Params α} {a : Analysis α}
    (done : s.analyze p = .ok a) : s.WellFormed ∧ p.WellFormed := by
  cases params : p.validate with
  | error e =>
      rw [analyze_of_params_error params] at done
      cases done
  | ok =>
      cases series : s.validate with
      | error e =>
          rw [analyze_of_series_error params series] at done
          cases done
      | ok => exact ⟨validate_eq_ok_iff.mp series, Params.validate_eq_ok_iff.mp params⟩

/-- On valid input an analysis gives the best of the clusters found, and their overlays. -/
theorem Series.analyze_eq_ok {s : Series α} {p : Params α} (hs : s.WellFormed) (hp : p.WellFormed) :
    s.analyze p = .ok
      { symbol := s.symbol
        clusters := Cluster.select p.scoring.minScore p.topN (s.foundClusters p)
        overlays := Overlay.ofClusters p.drawing s
          (Cluster.select p.scoring.minScore p.topN (s.foundClusters p))
        stats := ⟨s.size, p.sortedLookbacks.toList.map (s.lookbackStats p),
          (s.foundClusters p).length⟩ } := by
  have fine : p.sortedLookbacks.toList.mapM (s.linesFor p)
      = .ok (p.sortedLookbacks.toList.map fun l => (s.keptLines p l, s.lookbackStats p l)) := by
    apply mapM_eq_ok
    intro l mem
    exact linesFor_eq_ok (hp.lookback_pos l (Ascending.mem_ofList.mp mem))
  unfold analyze
  rw [Params.validate_eq_ok_iff.mpr hp, Series.validate_eq_ok_iff.mpr hs, fine]
  simp only [bind, Except.bind, pure, Except.pure, List.flatMap_map, List.map_map]
  rfl

theorem Cluster.WellFormed.violationRatio_eq {s : Series Float} {p : Params Float}
    {c : Cluster Float} (wf : c.WellFormed s p)
    (fits : (s.size - c.start) * c.members < wordCount) :
    Scoring.violationRatio s c
      = Scalar.doubleOfCount c.violations
        / Scalar.doubleOfCount ((s.size - c.start) * c.members) := by
  have live : 0 < s.size - c.start := by
    have := wf.room
    omega
  have most : c.violations ≤ (s.size - c.start) * c.members :=
    wf.violations_le.trans_eq (Nat.mul_comm _ _)
  have bars : max (s.size - c.start) 1 * max c.members 1 % wordCount
      = (s.size - c.start) * c.members := by
    rw [Nat.max_eq_left live, Nat.max_eq_left wf.members_pos, Nat.mod_eq_of_lt fits]
  change Scalar.atMost 1 (Scalar.doubleOfCount c.violations / Scalar.doubleOfCount
    (max (s.size - c.start) 1 * max c.members 1 % wordCount)) = _
  rw [bars, Scalar.atMost]
  rcases Double.share_le_one (Nat.mul_pos live wf.members_pos) most fits with less | one
  · rw [if_pos less]
  · rw [one]
    split <;> rfl

/-- What an analysis returns is well formed, and no share of violations is cut off at one; the bars
that could have been broken are counted in one word. -/
theorem returned_clusters_wellFormed {s : Series Float} {p : Params Float}
    (valid : s.validate = .ok ()) (inRange : p.validate = .ok ()) :
    ∃ a, s.analyze p = .ok a ∧ ∀ c ∈ a.clusters, c.WellFormed s p ∧
      ((s.size - c.start) * c.members < wordCount →
        Scoring.violationRatio s c
          = Scalar.doubleOfCount c.violations
            / Scalar.doubleOfCount ((s.size - c.start) * c.members)) := by
  refine ⟨_, Series.analyze_eq_ok (Series.validate_eq_ok_iff.mp valid)
    (Params.validate_eq_ok_iff.mp inRange), ?_⟩
  intro c mem
  have wf := Series.wellFormed_of_mem_foundClusters (Cluster.mem_of_mem_select mem)
  exact ⟨wf, wf.violationRatio_eq⟩

/-- The line that joins the tops of a zigzag is all that is returned. -/
theorem returned_clusters_wellFormed_zigzag :
    zigzag.validate = .ok () ∧ zigzagParams.validate = .ok () ∧
      (zigzag.foundClusters zigzagParams).map (·.start) = [2] ∧
      ∃ a, zigzag.analyze zigzagParams = .ok a ∧ ∀ c ∈ a.clusters,
        c.WellFormed zigzag zigzagParams ∧
        ((zigzag.size - c.start) * c.members < wordCount →
          Scoring.violationRatio zigzag c
            = Scalar.doubleOfCount c.violations
              / Scalar.doubleOfCount ((zigzag.size - c.start) * c.members)) :=
  ⟨by decide +kernel, by decide +kernel, by decide +kernel,
    returned_clusters_wellFormed (by decide +kernel) (by decide +kernel)⟩

end Trendline
