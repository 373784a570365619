import Trendline.Proofs.Analysis.Clusters
import Trendline.Proofs.Double.Order

/-!
Wider windows bring no new clusters. A line found again with a wider window is admitted by the group
that its twin is in, and by none before it: a line always sits in the first group whose founder
admits it, and groups that are founded later come after.
-/

namespace Trendline

variable {α : Type} [Scalar α]

namespace Group

variable {tolerance : Tolerance α} {line other : Line α} {groups : List (Group α)}

/-- The first group that admits the line has it. -/
def Home (tolerance : Tolerance α) (line : Line α) : List (Group α) → Prop
  | [] => False
  | g :: rest =>
      if tolerance.admits g.founder line = true then line ∈ g.lines else Home tolerance line rest

theorem home_place_self (own : tolerance.admits line line = true) :
    Home tolerance line (place tolerance line groups) := by
  induction groups with
  | nil =>
      rw [place, Home, if_pos own]
      exact founder_mem_lines _
  | cons g rest ih =>
      unfold place
      by_cases admitted : tolerance.admits g.founder line = true
      · rw [if_pos admitted, Home, if_pos admitted, lines_push]
        exact List.mem_append_right _ (List.mem_singleton_self line)
      · rw [if_neg admitted, Home, if_neg admitted]
        exact ih

-- A line that joins leaves all founders as they are, and one that founds a group comes last.
theorem home_place (home : Home tolerance line groups) :
    Home tolerance line (place tolerance other groups) := by
  induction groups with
  | nil => exact home.elim
  | cons g rest ih =>
      unfold place
      by_cases joins : tolerance.admits g.founder other = true
      · rw [if_pos joins]
        by_cases admitted : tolerance.admits g.founder line = true
        · rw [Home, if_pos admitted] at home
          rw [Home, if_pos admitted, lines_push]
          exact List.mem_append_left _ home
        · rw [Home, if_neg admitted] at home
          rw [Home, if_neg admitted]
          exact home
      · rw [if_neg joins]
        by_cases admitted : tolerance.admits g.founder line = true
        · rw [Home, if_pos admitted] at home
          rw [Home, if_pos admitted]
          exact home
        · rw [Home, if_neg admitted] at home
          rw [Home, if_neg admitted]
          exact ih home

theorem home_ofLines {lines : List (Line α)}
    (own : ∀ line ∈ lines, tolerance.admits line line = true) :
    ∀ line ∈ lines, Home tolerance line (ofLines tolerance lines) := by
  induction lines using List.reverseRecOn with
  | nil => simp
  | append_singleton lines last ih =>
      rw [List.forall_mem_append] at own
      intro line mem
      rw [ofLines_concat]
      rcases List.mem_append.mp mem with mem | mem
      · exact home_place (ih own.1 line mem)
      · rw [List.mem_singleton.mp mem]
        exact home_place_self (own.2 last (List.mem_singleton_self last))

/-- A group has the lines of another and, besides, only lines that are in it already but for the
window in which they were found. -/
structure Repeats (g wide : Group α) : Prop where
  founder : wide.founder = g.founder
  mem_wide : ∀ line ∈ g.lines, line ∈ wide.lines
  twin : ∀ line ∈ wide.lines, ∃ twin ∈ g.lines, ∃ lookback, line = twin.foundWith lookback

omit [Scalar α] in
theorem Repeats.refl (g : Group α) : Repeats g g :=
  ⟨rfl, fun _ mem => mem, fun line mem => ⟨line, mem, line.lookback, rfl⟩⟩

omit [Scalar α] in
theorem Repeats.push {g wide : Group α} (h : Repeats g wide) (mem : line ∈ g.lines)
    (lookback : Nat) :
    Repeats g { wide with joined := line.foundWith lookback :: wide.joined } := by
  refine ⟨h.founder, ?_, ?_⟩
  · intro old listed
    rw [lines_push]
    exact List.mem_append_left _ (h.mem_wide old listed)
  · intro new listed
    rw [lines_push, List.mem_append, List.mem_singleton] at listed
    rcases listed with listed | rfl
    · exact h.twin new listed
    · exact ⟨line, mem, lookback, rfl⟩

/-- Finding a line again leaves the groups as they are. -/
theorem place_repeats {wide : List (Group α)} (same : List.Forall₂ Repeats groups wide)
    (home : Home tolerance line groups) (lookback : Nat) :
    List.Forall₂ Repeats groups (place tolerance (line.foundWith lookback) wide) := by
  -- The founders are the same, so the line walks past the same groups as its twin did.
  induction same with
  | nil => exact home.elim
  | @cons g wide groups rest h later ih =>
      have judged : tolerance.admits wide.founder (line.foundWith lookback)
          = tolerance.admits g.founder line := by
        rw [h.founder]
        rfl
      unfold place
      rw [judged]
      by_cases admitted : tolerance.admits g.founder line = true
      · rw [Home, if_pos admitted] at home
        rw [if_pos admitted]
        exact .cons (h.push home lookback) later
      · rw [Home, if_neg admitted] at home
        rw [if_neg admitted]
        exact .cons h (ih home)

theorem ofLines_repeats {lines again : List (Line α)}
    (own : ∀ line ∈ lines, tolerance.admits line line = true)
    (twins : ∀ line ∈ again, ∃ twin ∈ lines, ∃ lookback, line = twin.foundWith lookback) :
    List.Forall₂ Repeats (ofLines tolerance lines) (ofLines tolerance (lines ++ again)) := by
  induction again using List.reverseRecOn with
  | nil =>
      rw [List.append_nil]
      exact List.forall₂_same.mpr fun g _ => .refl g
  | append_singleton again line ih =>
      rw [List.forall_mem_append] at twins
      obtain ⟨twin, mem, lookback, rfl⟩ := twins.2 line (List.mem_singleton_self line)
      rw [← List.append_assoc, ofLines_concat]
      exact place_repeats (ih twins.1) (home_ofLines own twin mem) lookback

namespace Repeats

variable {g wide : Group α}

theorem cluster_touches (h : Repeats g wide) : wide.cluster.touches = g.cluster.touches := by
  apply Ascending.ext_mem
  intro t
  rw [mem_cluster_touches, mem_cluster_touches]
  constructor
  · intro ⟨line, mem, touched⟩
    obtain ⟨twin, listed, lookback, rfl⟩ := h.twin line mem
    exact ⟨twin, listed, touched⟩
  · intro ⟨line, mem, touched⟩
    exact ⟨line, h.mem_wide line mem, touched⟩

theorem cluster_start (h : Repeats g wide) : wide.cluster.start = g.cluster.start := by
  apply Nat.le_antisymm
  · obtain ⟨line, mem, start⟩ := g.exists_cluster_start
    rw [start]
    exact cluster_start_le (h.mem_wide line mem)
  · obtain ⟨line, mem, start⟩ := wide.exists_cluster_start
    obtain ⟨twin, listed, lookback, rfl⟩ := h.twin line mem
    calc g.cluster.start ≤ twin.start := cluster_start_le listed
      _ = wide.cluster.start := start.symm

end Repeats

end Group

/-- Clusters that differ only in what further lines of the same course add. -/
structure Cluster.Alike (lookback : Nat) (wide narrow : Cluster α) : Prop where
  side : wide.side = narrow.side
  wide_lookback : wide.lookback = lookback
  narrow_lookback : narrow.lookback = lookback
  start : wide.start = narrow.start
  touches : wide.touches = narrow.touches

namespace Params

variable {p : Params α} {m : Nat}

/-- The same parameters for one lookback. -/
def only (p : Params α) (lookback : Nat) : Params α :=
  { p with lookbacks := [lookback] }

theorem WellFormed.only (wf : p.WellFormed) (mem : m ∈ p.lookbacks) : (p.only m).WellFormed :=
  { wf with
    lookbacks_ne_nil := List.cons_ne_nil m []
    lookback_pos := fun _ listed => List.mem_singleton.mp listed ▸ wf.lookback_pos m mem }

omit [Scalar α] in
theorem exists_sortedLookbacks_eq (mem : m ∈ p.lookbacks) (least : ∀ l ∈ p.lookbacks, m ≤ l) :
    ∃ wider, p.sortedLookbacks.toList = m :: wider ∧ ∀ l ∈ wider, m ≤ l := by
  have first : p.sortedLookbacks.least? = some m :=
    Ascending.least?_eq_some_iff.mpr ⟨Ascending.mem_ofList.mpr mem, fun l listed =>
      least l (Ascending.mem_ofList.mp listed)⟩
  obtain ⟨wider, eq⟩ := List.head?_eq_some_iff.mp first
  refine ⟨wider, eq, fun l listed => least l (Ascending.mem_ofList.mp ?_)⟩
  change l ∈ p.sortedLookbacks.toList
  rw [eq]
  exact List.mem_cons_of_mem m listed

end Params

namespace Series

variable {s : Series α} {p : Params α} {m : Nat}

theorem allLines_only (s : Series α) (p : Params α) (m : Nat) :
    s.allLines (p.only m) = s.keptLines p m := by
  have one : (p.only m).sortedLookbacks = Ascending.singleton m :=
    Ascending.ext_mem fun _ => Ascending.mem_ofList
  rw [allLines, one, Ascending.singleton, List.flatMap_singleton]
  rfl

/-- The lines of wider windows repeat lines of the narrowest. -/
theorem exists_allLines_eq [LawfulScalar α] (hs : s.WellFormed) (hp : p.WellFormed)
    (off : ¬ 0 < p.pivots.dedupe) (mem : m ∈ p.lookbacks) (least : ∀ l ∈ p.lookbacks, m ≤ l) :
    ∃ again, s.allLines p = s.keptLines p m ++ again ∧
      ∀ line ∈ again, ∃ twin ∈ s.keptLines p m, ∃ lookback, line = twin.foundWith lookback := by
  obtain ⟨wider, sorted, wide⟩ := Params.exists_sortedLookbacks_eq mem least
  refine ⟨wider.flatMap (s.keptLines p), ?_, ?_⟩
  · rw [allLines, sorted, List.flatMap_cons]
  · intro line listed
    obtain ⟨l, hl, kept⟩ := List.mem_flatMap.mp listed
    obtain ⟨twin, twinKept, eq⟩ :=
      keptLines_of_wider hs off (hp.lookback_pos m mem) (wide l hl) kept
    exact ⟨twin, twinKept, l, eq⟩

theorem foundClusters_alike [LawfulScalar α] (hs : s.WellFormed) (hp : p.WellFormed)
    (off : ¬ 0 < p.pivots.dedupe) (mem : m ∈ p.lookbacks) (least : ∀ l ∈ p.lookbacks, m ≤ l)
    (finite : ∀ line ∈ s.keptLines p m,
      Scalar.isFinite line.slope = true ∧ Scalar.isFinite line.intercept = true) :
    List.Forall₂ (Cluster.Alike m) (s.foundClusters p) (s.foundClusters (p.only m)) := by
  obtain ⟨again, split, twins⟩ := exists_allLines_eq hs hp off mem least
  have own : ∀ line ∈ s.keptLines p m, p.merging.admits line line = true := by
    intro line kept
    have slope := Scalar.abs_sub_self_le (finite line kept).1 hp.slope.1 hp.slope.2
    have intercept := Scalar.abs_sub_self_le (finite line kept).2 hp.intercept.1 hp.intercept.2
    simp only [Tolerance.admits, slope, intercept, decide_true, Bool.and_true]
  have groups := Group.ofLines_repeats own twins
  rw [← split] at groups
  have founded : ∀ g ∈ Group.ofLines p.merging (s.keptLines p m), g.founder.lookback = m := by
    intro g listed
    exact lookback_of_mem_keptLines ((Group.lines_sublist listed).subset g.founder_mem_lines)
  rw [foundClusters, foundClusters, allLines_only, Cluster.ofLines, Cluster.ofLines,
    List.map_map, List.map_map, List.forall₂_map_left_iff, List.forall₂_map_right_iff]
  refine ((List.forall₂_and_left _ _).mpr ⟨founded, groups⟩).flip.imp ?_
  rintro wide g ⟨narrowest, repeats⟩
  have wideFounder : wide.founder.lookback = m := by rw [repeats.founder, narrowest]
  exact ⟨congrArg Line.side repeats.founder, wideFounder, narrowest, repeats.cluster_start,
    repeats.cluster_touches⟩

end Series

/-- With no thinning out, the clusters found with several lookbacks are, in their order, those found
with the least of them, and no more. -/
theorem wider_lookbacks_add_no_cluster {s : Series Float} {p : Params Float} {m : Nat}
    (valid : s.validate = .ok ()) (inRange : p.validate = .ok ()) (off : ¬ 0 < p.pivots.dedupe)
    (mem : m ∈ p.lookbacks) (least : ∀ l ∈ p.lookbacks, m ≤ l)
    (finite : ∀ line ∈ s.keptLines p m,
      line.slope.isFinite = true ∧ line.intercept.isFinite = true) :
    ∃ a b, s.analyze p = .ok a ∧ s.analyze (p.only m) = .ok b ∧
      a.clusters = Cluster.select p.scoring.minScore p.topN (s.foundClusters p) ∧
      b.clusters = Cluster.select p.scoring.minScore p.topN (s.foundClusters (p.only m)) ∧
      (p.scoring.minScore = none → p.topN = none →
        a.clusters.Perm (s.foundClusters p) ∧ b.clusters.Perm (s.foundClusters (p.only m))) ∧
      List.Forall₂ (Cluster.Alike m) (s.foundClusters p) (s.foundClusters (p.only m)) := by
  have hs := Series.validate_eq_ok_iff.mp valid
  have hp := Params.validate_eq_ok_iff.mp inRange
  refine ⟨_, _, Series.analyze_eq_ok hs hp, Series.analyze_eq_ok hs (hp.only mem), rfl, rfl, ?_,
    Series.foundClusters_alike hs hp off mem least finite⟩
  intro score top
  dsimp only [Params.only]
  rw [score, top]
  exact ⟨Cluster.select_perm _, Cluster.select_perm _⟩

/-- The line that joins the tops of a zigzag is found in windows of either width. -/
theorem wider_lookbacks_add_no_cluster_zigzag :
    (zigzag.validate = .ok () ∧ zigzagParams.validate = .ok () ∧
      ¬ 0 < zigzagParams.pivots.dedupe ∧ 1 ∈ zigzagParams.lookbacks ∧
      (∀ l ∈ zigzagParams.lookbacks, 1 ≤ l) ∧
      ∀ line ∈ zigzag.keptLines zigzagParams 1,
        line.slope.isFinite = true ∧ line.intercept.isFinite = true) ∧
    (zigzag.foundClusters zigzagParams).map (·.lookbacks.toList) = [[1, 2]] ∧
    ∃ a b, zigzag.analyze zigzagParams = .ok a ∧ zigzag.analyze (zigzagParams.only 1) = .ok b ∧
      a.clusters = Cluster.select none none (zigzag.foundClusters zigzagParams) ∧
      b.clusters = Cluster.select none none (zigzag.foundClusters (zigzagParams.only 1)) ∧
      (zigzagParams.scoring.minScore = none → zigzagParams.topN = none →
        a.clusters.Perm (zigzag.foundClusters zigzagParams) ∧
          b.clusters.Perm (zigzag.foundClusters (zigzagParams.only 1))) ∧
      List.Forall₂ (Cluster.Alike 1) (zigzag.foundClusters zigzagParams)
        (zigzag.foundClusters (zigzagParams.only 1)) :=
  ⟨by decide +kernel, by decide +kernel,
    wider_lookbacks_add_no_cluster (by decide +kernel) (by decide +kernel) (by decide +kernel)
      (by decide +kernel) (by decide +kernel) (by decide +kernel)⟩

end Trendline
