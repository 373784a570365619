import Mathlib.Data.Fintype.Card
import Mathlib.Tactic.Linarith
import Trendline.Proofs.Clustering.Placing
import Trendline.Proofs.Scalar.Rational

/-!
Clusters of clusters. In exact arithmetic the representative of a cluster stays as near to the
founder as its lines are, so that clusters whose founders stand three tolerances apart come back as
they are. Others may merge, pass after pass, but none is ever split; a pass that merges nothing
changes nothing, and neither does any after it.
-/

namespace Trendline

section Groups

variable {α : Type} [Scalar α] {tolerance : Tolerance α} {lines : List (Line α)}

namespace Group

/-- Only lines near to the founder have joined. -/
theorem near_of_mem_joined {g : Group α} (mem : g ∈ ofLines tolerance lines) {line : Line α}
    (joined : line ∈ g.joined) : tolerance.Near g.founder line := by
  induction lines using List.reverseRecOn generalizing g line with
  | nil => cases mem
  | append_singleton lines last ih =>
      rw [ofLines_concat] at mem
      rcases place_cases tolerance last (ofLines tolerance lines) with
        ⟨k, host, entry, near, -, eq⟩ | ⟨-, eq⟩
      · rw [eq] at mem
        rcases List.mem_or_eq_of_mem_set mem with mem | rfl
        · exact ih mem joined
        · rcases List.mem_cons.mp joined with rfl | joined
          · exact near
          · exact ih (List.mem_of_getElem? entry) joined
      · rw [eq, List.mem_append, List.mem_singleton] at mem
        rcases mem with mem | rfl
        · exact ih mem joined
        · cases joined

theorem length_ofLines_le (tolerance : Tolerance α) (lines : List (Line α)) :
    (ofLines tolerance lines).length ≤ lines.length := by
  obtain ⟨founder, home, fit, -⟩ := Cluster.partitions_ofLines tolerance lines
  have fewer := Fintype.card_le_of_injective founder fit.founder_injective
  rwa [Fintype.card_fin, Fintype.card_fin, Cluster.ofLines, List.length_map] at fewer

/-- A line by itself. -/
def single (line : Line α) : Group α :=
  ⟨line, []⟩

/-- Lines that are not near to one another found a group each. -/
theorem ofLines_eq_singles (apart : lines.Pairwise fun line other => ¬ tolerance.Near line other) :
    ofLines tolerance lines = lines.map single := by
  induction lines using List.reverseRecOn with
  | nil => rfl
  | append_singleton lines line ih =>
      obtain ⟨before, -, last⟩ := List.pairwise_append.mp apart
      rw [ofLines_concat, ih before, List.map_append]
      rcases place_cases tolerance line (lines.map single) with ⟨k, g, entry, near, -⟩ | ⟨-, eq⟩
      · obtain ⟨other, mem, rfl⟩ := List.mem_map.mp (List.mem_of_getElem? entry)
        exact (last other mem line (List.mem_singleton_self line) near).elim
      · exact eq

/-- Where there are as many groups as lines, each has one line. -/
theorem ofLines_eq_singles_of_length (all : (ofLines tolerance lines).length = lines.length) :
    ofLines tolerance lines = lines.map single := by
  induction lines using List.reverseRecOn with
  | nil => rfl
  | append_singleton lines line ih =>
      have few := length_ofLines_le tolerance lines
      rw [ofLines_concat] at all ⊢
      rcases place_cases tolerance line (ofLines tolerance lines) with
        ⟨k, g, -, -, -, eq⟩ | ⟨-, eq⟩
      · rw [eq, List.length_set, List.length_append, List.length_singleton] at all
        omega
      · rw [eq, List.length_append, List.length_append] at all
        rw [eq, ih (by simpa using all), List.map_append]
        rfl

end Group

namespace Cluster

/-- Two clusters with one representative: all agrees but the score and what lines they are made
of. -/
structure Agrees (c d : Cluster α) : Prop where
  slope_eq : c.slope = d.slope
  intercept_eq : c.intercept = d.intercept
  rSquared_eq : c.rSquared = d.rSquared
  touches_eq : c.touches = d.touches
  violations_eq : c.violations = d.violations
  side_eq : c.side = d.side
  lookback_eq : c.lookback = d.lookback
  start_eq : c.start = d.start

omit [Scalar α] in
theorem Agrees.refl (c : Cluster α) : c.Agrees c :=
  ⟨rfl, rfl, rfl, rfl, rfl, rfl, rfl, rfl⟩

theorem Agrees.toLine_eq {c d : Cluster α} (h : c.Agrees d) : c.toLine = d.toLine := by
  obtain ⟨⟨⟨slope, intercept⟩, rSquared⟩, touches, violations, lookback, lookbacks, side, members,
    start, score, invalid⟩ := c
  obtain ⟨rfl, rfl, rfl, rfl, rfl, rfl, rfl, rfl⟩ := h
  rfl

/-- The clusters of the representatives of some clusters. -/
def regroup (tolerance : Tolerance α) (clusters : List (Cluster α)) : List (Cluster α) :=
  ofLines tolerance (clusters.map toLine)

/-- The clusters after some passes, of which the first is over the lines and each later one over the
representatives of the clusters before. -/
def pass (tolerance : Tolerance α) (lines : List (Line α)) : Nat → List (Cluster α)
  | 0 => ofLines tolerance lines
  | k + 1 => regroup tolerance (pass tolerance lines k)

theorem violations_lt {c : Cluster α} (mem : c ∈ ofLines tolerance lines) :
    c.violations < wordCount := by
  obtain ⟨g, -, rfl⟩ := List.mem_map.mp mem
  exact Nat.mod_lt _ (by decide)

/-- The violations of all clusters of one side. -/
def violationsOn (side : Side) (clusters : List (Cluster α)) : Nat :=
  ((clusters.filter (·.side = side)).map (·.violations)).sum

theorem filter_ofLines (tolerance : Tolerance α) (lines : List (Line α)) (side : Side) :
    (ofLines tolerance lines).filter (·.side = side)
      = ofLines tolerance (lines.filter (·.side = side)) := by
  rw [ofLines, ofLines, ← Group.ofLines_filter, List.filter_map]
  rfl

theorem filter_map_toLine (clusters : List (Cluster α)) (side : Side) :
    (clusters.map toLine).filter (·.side = side) = (clusters.filter (·.side = side)).map toLine :=
  List.filter_map

/-- The clusters of one side touch what they touched before. -/
theorem touched_regroup (tolerance : Tolerance α) (clusters : List (Cluster α)) (side : Side)
    (t : Int) :
    (∃ c ∈ regroup tolerance clusters, c.side = side ∧ t ∈ c.touches) ↔
      ∃ c ∈ clusters, c.side = side ∧ t ∈ c.touches := by
  have onSide (clusters : List (Cluster α)) :
      (∃ c ∈ clusters, c.side = side ∧ t ∈ c.touches) ↔
        ∃ c ∈ clusters.filter (·.side = side), t ∈ c.touches := by
    simp [and_assoc]
  rw [onSide, onSide, regroup, filter_ofLines, filter_map_toLine, touched_ofLines]
  simp only [List.mem_map, exists_exists_and_eq_and]
  exact Iff.rfl

theorem violationsOn_map_toLine (side : Side) (clusters : List (Cluster α)) :
    (((clusters.map toLine).filter (·.side = side)).map (·.violations)).sum
      = violationsOn side clusters := by
  rw [filter_map_toLine, List.map_map]
  rfl

theorem violationsOn_regroup_mod (tolerance : Tolerance α) (clusters : List (Cluster α))
    (side : Side) :
    violationsOn side (regroup tolerance clusters) % wordCount
      = violationsOn side clusters % wordCount := by
  rw [violationsOn, regroup, filter_ofLines, sum_violations_ofLines_mod, violationsOn_map_toLine]

theorem violationsOn_regroup (tolerance : Tolerance α) {clusters : List (Cluster α)} {side : Side}
    (fits : violationsOn side clusters < wordCount) :
    violationsOn side (regroup tolerance clusters) = violationsOn side clusters := by
  rw [← violationsOn_map_toLine side clusters] at fits ⊢
  rw [violationsOn, regroup, filter_ofLines, sum_violations_ofLines _ _ fits]

end Cluster

end Groups

section Exact

variable {tolerance : Tolerance Rat} {lines : List (Line Rat)}

/-- The representative of a cluster by itself is the cluster. -/
theorem Group.single_agrees {c : Cluster Rat} (small : c.violations < wordCount) :
    (single c.toLine).cluster.Agrees c := by
  have mean (x : Rat) : (0 + x) / ((1 : Nat) : Rat) = x := by
    rw [zero_add, Nat.cast_one, div_one]
  refine ⟨mean c.slope, mean c.intercept, mean c.rSquared, ?_, ?_, rfl, rfl, ?_⟩
  · apply Ascending.ext_mem
    intro t
    rw [mem_cluster_touches]
    constructor
    · intro ⟨line, mem, touched⟩
      obtain rfl := List.mem_singleton.mp mem
      exact touched
    · exact fun touched => ⟨c.toLine, List.mem_singleton_self _, touched⟩
  · change (0 + c.violations) % wordCount = c.violations
    rw [Nat.zero_add, Nat.mod_eq_of_lt small]
  · exact Nat.min_self c.start

theorem Cluster.regroup_agrees {clusters : List (Cluster Rat)}
    (small : ∀ c ∈ clusters, c.violations < wordCount)
    (singles : Group.ofLines tolerance (clusters.map toLine)
      = (clusters.map toLine).map Group.single) :
    List.Forall₂ Agrees (regroup tolerance clusters) clusters := by
  rw [regroup, ofLines, singles, List.map_map, List.map_map, List.forall₂_map_left_iff]
  exact List.forall₂_same.mpr fun c mem => Group.single_agrees (small c mem)

section Separation

/-- Not two lines of one side that are within three tolerances, in slope and in intercept. -/
def Tolerance.Apart (tolerance : Tolerance Rat) (line other : Line Rat) : Prop :=
  line.side = other.side → 3 * tolerance.slope < |line.slope - other.slope| ∨
    3 * tolerance.intercept < |line.intercept - other.intercept|

instance (tolerance : Tolerance Rat) : DecidableRel tolerance.Apart := fun line other =>
  inferInstanceAs (Decidable (line.side = other.side → _))

namespace Group

variable {g h : Group Rat}

theorem abs_meanOf_sub_le (quantity : Line Rat → Rat) {distance : Rat} (nonneg : 0 ≤ distance)
    (near : ∀ line ∈ g.joined, |quantity line - quantity g.founder| ≤ distance) :
    |g.meanOf quantity - quantity g.founder| ≤ distance := by
  rw [abs_sub_comm, Set.mem_Icc_iff_abs_le]
  apply meanOf_mem
  intro line listed
  rw [← Set.mem_Icc_iff_abs_le, abs_sub_comm]
  rcases List.mem_cons.mp listed with rfl | joined
  · rwa [sub_self, abs_zero]
  · exact near line (List.mem_reverse.mp joined)

/-- A representative is as near to the founder as the lines are. -/
theorem near_cluster (slope : 0 ≤ tolerance.slope) (intercept : 0 ≤ tolerance.intercept)
    (mem : g ∈ ofLines tolerance lines) :
    |g.cluster.slope - g.founder.slope| ≤ tolerance.slope ∧
      |g.cluster.intercept - g.founder.intercept| ≤ tolerance.intercept := by
  have near {line : Line Rat} (joined : line ∈ g.joined) := near_of_mem_joined mem joined
  simp only [Tolerance.Near, Rational.abs_eq_abs] at near
  exact ⟨abs_meanOf_sub_le (·.slope) slope fun line joined => (near joined).2.1,
    abs_meanOf_sub_le (·.intercept) intercept fun line joined => (near joined).2.2⟩

/-- The two representatives are at most two tolerances nearer to one another than the founders. -/
theorem not_near_clusters (slope : 0 ≤ tolerance.slope) (intercept : 0 ≤ tolerance.intercept)
    (hg : g ∈ ofLines tolerance lines) (hh : h ∈ ofLines tolerance lines)
    (apart : tolerance.Apart g.founder h.founder) :
    ¬ tolerance.Near g.cluster.toLine h.cluster.toLine := by
  intro ⟨side, slopes, intercepts⟩
  rw [Rational.abs_eq_abs] at slopes intercepts
  have stays {x x₀ y y₀ distance : Rat} (hx : |x - x₀| ≤ distance) (hy : |y - y₀| ≤ distance)
      (hxy : |y - x| ≤ distance) : ¬ 3 * distance < |x₀ - y₀| := by
    rw [abs_le] at hx hy hxy
    rw [not_lt, abs_le]
    constructor <;> linarith
  have left := near_cluster slope intercept hg
  have right := near_cluster slope intercept hh
  exact (apart side).elim (stays left.1 right.1 slopes) (stays left.2 right.2 intercepts)

end Group

/-- Clusters whose founders stand more than three tolerances apart come back as they are. -/
theorem separated_clusters_stay {tolerance : Tolerance Rat} (slope : 0 ≤ tolerance.slope)
    (intercept : 0 ≤ tolerance.intercept) (lines : List (Line Rat)) :
    (∀ g ∈ Group.ofLines tolerance lines,
      |g.cluster.slope - g.founder.slope| ≤ tolerance.slope ∧
        |g.cluster.intercept - g.founder.intercept| ≤ tolerance.intercept) ∧
    (((Group.ofLines tolerance lines).map Group.founder).Pairwise tolerance.Apart →
      List.Forall₂ Cluster.Agrees
        (Cluster.ofLines tolerance ((Cluster.ofLines tolerance lines).map Cluster.toLine))
        (Cluster.ofLines tolerance lines)) := by
  refine ⟨fun g mem => Group.near_cluster slope intercept mem, fun apart => ?_⟩
  apply Cluster.regroup_agrees fun c mem => Cluster.violations_lt mem
  apply Group.ofLines_eq_singles
  rw [Cluster.ofLines, List.map_map, List.pairwise_map]
  apply (List.pairwise_map.mp apart).imp_of_mem
  intro g h hg hh founders
  exact Group.not_near_clusters slope intercept hg hh founders

/-- A line of the given course, with nothing along it but breaks. -/
def courseLine (slope intercept : Rat) (side : Side) (violations : Nat) : Line Rat where
  slope
  intercept
  rSquared := 1
  touches := .empty
  violations
  lookback := 5
  side
  first := ⟨0, 0, intercept, side⟩
  second := ⟨0, 0, intercept, side⟩

def narrow : Tolerance Rat :=
  ⟨1 / 20, 1⟩

/-- Two near pairs on either side and two lines by themselves, one of which differs from a pair only
in its intercept. -/
def separateLines : List (Line Rat) :=
  [courseLine (1 / 2) 94 .low 1, courseLine (51 / 100) (943 / 10) .low 1,
    courseLine (-1 / 5) 150 .high 1, courseLine (-21 / 100) (751 / 5) .high 1,
    courseLine (3 / 2) 20 .low 1, courseLine (1 / 2) 98 .low 1]

theorem separated_clusters_stay_four :
    (0 ≤ narrow.slope ∧ 0 ≤ narrow.intercept ∧
      ((Group.ofLines narrow separateLines).map Group.founder).Pairwise narrow.Apart ∧
      (Cluster.ofLines narrow separateLines).map (·.members) = [2, 2, 1, 1]) ∧
    (∀ g ∈ Group.ofLines narrow separateLines,
      |g.cluster.slope - g.founder.slope| ≤ narrow.slope ∧
        |g.cluster.intercept - g.founder.intercept| ≤ narrow.intercept) ∧
    (((Group.ofLines narrow separateLines).map Group.founder).Pairwise narrow.Apart →
      List.Forall₂ Cluster.Agrees
        (Cluster.ofLines narrow ((Cluster.ofLines narrow separateLines).map Cluster.toLine))
        (Cluster.ofLines narrow separateLines)) :=
  ⟨by decide +kernel, separated_clusters_stay (by decide +kernel) (by decide +kernel) _⟩

end Separation

namespace Cluster

theorem violations_lt_of_mem_pass {k : Nat} {c : Cluster Rat} (mem : c ∈ pass tolerance lines k) :
    c.violations < wordCount := by
  cases k with
  | zero | succ k => exact violations_lt mem

/-- A pass that merges nothing leaves the representatives as they are, and so do all after it. -/
theorem pass_agrees {k l : Nat}
    (same : (pass tolerance lines (k + 1)).length = (pass tolerance lines k).length) (le : k ≤ l) :
    List.Forall₂ Agrees (pass tolerance lines l) (pass tolerance lines k) := by
  have singles : Group.ofLines tolerance ((pass tolerance lines k).map toLine)
      = ((pass tolerance lines k).map toLine).map Group.single := by
    apply Group.ofLines_eq_singles_of_length
    rw [pass, regroup, ofLines, List.length_map] at same
    rw [same, List.length_map]
  have next : List.Forall₂ Agrees (pass tolerance lines (k + 1)) (pass tolerance lines k) :=
    regroup_agrees (fun c mem => violations_lt_of_mem_pass mem) singles
  have representatives : (pass tolerance lines (k + 1)).map toLine
      = (pass tolerance lines k).map toLine :=
    (map_eq_of_forall₂ next fun c d agrees => agrees.toLine_eq.symm).symm
  have settled : pass tolerance lines (k + 2) = pass tolerance lines (k + 1) :=
    congrArg (ofLines tolerance) representatives
  rcases Nat.eq_or_lt_of_le le with rfl | less
  · exact List.forall₂_same.mpr fun c _ => .refl c
  · have stays : pass tolerance lines l = pass tolerance lines (k + 1) := by
      clear le
      induction l, less using Nat.le_induction with
      | base => rfl
      | succ l less ih => exact (congrArg (regroup tolerance) ih).trans settled
    rwa [stays]

theorem length_pass_succ_le (tolerance : Tolerance Rat) (lines : List (Line Rat)) (k : Nat) :
    (pass tolerance lines (k + 1)).length ≤ (pass tolerance lines k).length := by
  rw [pass, regroup, ofLines, List.length_map, ← List.length_map toLine]
  exact Group.length_ofLines_le tolerance _

theorem length_pass_pos {k : Nat} (nonempty : 0 < (pass tolerance lines 0).length) :
    0 < (pass tolerance lines k).length := by
  induction k with
  | zero => exact nonempty
  | succ k ih =>
      by_contra none
      have sum := sum_members_ofLines tolerance ((pass tolerance lines k).map toLine)
      rw [List.length_map] at sum
      change ((pass tolerance lines (k + 1)).map (·.members)).sum = _ at sum
      rw [List.eq_nil_of_length_eq_zero (Nat.eq_zero_of_not_pos none)] at sum
      exact Nat.ne_of_lt ih sum

/-- There are fewer clusters after every pass that merges some, so that one of the first passes
merges none. -/
theorem exists_settled (tolerance : Tolerance Rat) (lines : List (Line Rat)) :
    ∃ k ≤ (pass tolerance lines 0).length - 1,
      (pass tolerance lines (k + 1)).length = (pass tolerance lines k).length := by
  by_contra merging
  push Not at merging
  have falls (k : Nat) (le : k ≤ (pass tolerance lines 0).length) :
      (pass tolerance lines k).length + k ≤ (pass tolerance lines 0).length := by
    induction k with
    | zero => exact Nat.le_refl _
    | succ k ih =>
        have fewer := length_pass_succ_le tolerance lines k
        have other := merging k (by omega)
        have := ih (by omega)
        omega
  rcases Nat.eq_zero_or_pos (pass tolerance lines 0).length with none | some
  · have fewer := length_pass_succ_le tolerance lines 0
    exact merging 0 (Nat.zero_le _) (by omega)
  · have last := falls _ (Nat.le_refl _)
    have remains := length_pass_pos (k := (pass tolerance lines 0).length) some
    omega

end Cluster

/-- Clustering the representatives over and over only merges clusters, and comes to rest after no
more passes than there were clusters. -/
theorem passes_merge_and_settle (tolerance : Tolerance Rat) (lines : List (Line Rat)) :
    (∀ k,
      (Cluster.pass tolerance lines (k + 1)).length ≤ (Cluster.pass tolerance lines k).length ∧
      Cluster.Partitions tolerance ((Cluster.pass tolerance lines k).map Cluster.toLine)
        (Cluster.pass tolerance lines (k + 1)) ∧
      (∀ side,
        (∀ t, (∃ c ∈ Cluster.pass tolerance lines (k + 1), c.side = side ∧ t ∈ c.touches) ↔
          ∃ c ∈ Cluster.pass tolerance lines k, c.side = side ∧ t ∈ c.touches) ∧
        Cluster.violationsOn side (Cluster.pass tolerance lines (k + 1)) % wordCount
          = Cluster.violationsOn side (Cluster.pass tolerance lines k) % wordCount ∧
        (Cluster.violationsOn side (Cluster.pass tolerance lines k) < wordCount →
          Cluster.violationsOn side (Cluster.pass tolerance lines (k + 1))
            = Cluster.violationsOn side (Cluster.pass tolerance lines k))) ∧
      ((Cluster.pass tolerance lines (k + 1)).length = (Cluster.pass tolerance lines k).length →
        ∀ l, k ≤ l → List.Forall₂ Cluster.Agrees (Cluster.pass tolerance lines l)
          (Cluster.pass tolerance lines k))) ∧
    ∃ k ≤ (Cluster.pass tolerance lines 0).length - 1,
      ∀ l, k ≤ l → List.Forall₂ Cluster.Agrees (Cluster.pass tolerance lines l)
        (Cluster.pass tolerance lines k) := by
  refine ⟨fun k => ⟨Cluster.length_pass_succ_le tolerance lines k,
    Cluster.partitions_ofLines tolerance _, fun side => ⟨?_, ?_, ?_⟩, ?_⟩, ?_⟩
  · exact Cluster.touched_regroup tolerance _ side
  · exact Cluster.violationsOn_regroup_mod tolerance _ side
  · exact Cluster.violationsOn_regroup tolerance
  · exact fun same l le => Cluster.pass_agrees same le
  · obtain ⟨k, early, same⟩ := Cluster.exists_settled tolerance lines
    exact ⟨k, early, fun l le => Cluster.pass_agrees same le⟩

/-- Four level lines make two clusters that half a word's count of bars break each. Their
representatives are one tolerance apart, and the cluster they merge into has no violation left. -/
theorem violations_of_passes_wrap :
    let lines := [courseLine 0 100 .high halfWordCount, courseLine 0 (405 / 4) .high halfWordCount,
      courseLine 0 101 .high 0, courseLine 0 (407 / 4) .high 0]
    (Cluster.pass narrow lines 0).map (fun c => (c.members, c.violations))
        = [(2, halfWordCount), (2, halfWordCount)] ∧
      (Cluster.pass narrow lines 1).map (fun c => (c.members, c.violations)) = [(2, 0)] ∧
      Cluster.violationsOn .high (Cluster.pass narrow lines 0) = wordCount ∧
      Cluster.violationsOn .high (Cluster.pass narrow lines 1) = 0 := by
  decide +kernel

end Exact

end Trendline
