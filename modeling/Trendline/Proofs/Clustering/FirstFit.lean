import Trendline.Proofs.Analysis.Counts
import Trendline.Proofs.Double.Sign

/-!
What first fit makes of a list of lines. Lines come one after the other: each is in the first group
whose founder it is near to, and founds a new one if there is none. Groupings speak of positions,
since two lines of a list may be equal, and a list has only one that is first fit.
-/

namespace Trendline

variable {α : Type} [Scalar α]

namespace Tolerance

variable {tolerance : Tolerance α} {founder line : Line α}

/-- Two lines of one side whose slopes and intercepts are no further apart than the tolerance. -/
def Near (tolerance : Tolerance α) (founder line : Line α) : Prop :=
  founder.side = line.side ∧ Scalar.abs (line.slope - founder.slope) ≤ tolerance.slope ∧
    Scalar.abs (line.intercept - founder.intercept) ≤ tolerance.intercept

theorem admits_iff : tolerance.admits founder line = true ↔ tolerance.Near founder line := by
  simp [admits, Near, and_assoc]

end Tolerance

open Float Float.Model in
/-- The distance of two doubles is rounded the same in either direction. -/
theorem Double.abs_sub_comm (x y : Float) : (x - y).abs = (y - x).abs := by
  have turned : -x + y = y - x := by
    change Float.ofModel (Model.pack (UnpackedFloat.add _ (-x).toModel.unpack y.toModel.unpack))
      = Float.ofModel (Model.pack (UnpackedFloat.sub _ y.toModel.unpack x.toModel.unpack))
    rw [Double.unpack_neg, Double.sub_eq_add_neg, Double.add_comm]
  rw [← turned]
  exact (LawfulNeg.abs_eq (LawfulNeg.opposite_sub_add y (Scalar.opposite_neg x))).symm

theorem Tolerance.near_comm_of {tolerance : Tolerance α} {line other : Line α}
    (distance : ∀ x y : α, Scalar.abs (x - y) = Scalar.abs (y - x)) :
    tolerance.Near line other ↔ tolerance.Near other line := by
  rw [Near, Near, eq_comm, distance line.slope, distance line.intercept]

theorem Tolerance.near_comm {tolerance : Tolerance Float} {line other : Line Float} :
    tolerance.Near line other ↔ tolerance.Near other line :=
  near_comm_of Double.abs_sub_comm

/-- How first fit puts lines into `m` groups: `founder k` is the position of the line that founded
group `k`, and `home i` is the group of the line in position `i`. -/
structure FirstFit (tolerance : Tolerance α) (lines : List (Line α)) {m : Nat}
    (founder : Fin m → Fin lines.length) (home : Fin lines.length → Fin m) : Prop where
  /-- Groups stand in the order of their founders. -/
  founder_lt : ∀ j k, j < k → founder j < founder k
  home_founder : ∀ k, home (founder k) = k
  /-- A line that founded no group came after the founder of its group and is near to it. -/
  joined : ∀ i, founder (home i) ≠ i →
    founder (home i) < i ∧ tolerance.Near lines[founder (home i)] lines[i]
  /-- No founder of an earlier group is near to the line. -/
  first : ∀ i, ∀ k < home i, ¬ tolerance.Near lines[founder k] lines[i]

namespace FirstFit

variable {tolerance : Tolerance α} {lines : List (Line α)} {m m' : Nat}
  {founder : Fin m → Fin lines.length} {home : Fin lines.length → Fin m}
  {founder' : Fin m' → Fin lines.length} {home' : Fin lines.length → Fin m'}

theorem founder_le (h : FirstFit tolerance lines founder home) (i : Fin lines.length) :
    founder (home i) ≤ i := by
  by_cases eq : founder (home i) = i
  · exact eq.le
  · exact (h.joined i eq).1.le

theorem founder_injective (h : FirstFit tolerance lines founder home) :
    Function.Injective founder :=
  Function.LeftInverse.injective h.home_founder

theorem not_near (h : FirstFit tolerance lines founder home) {j k : Fin m} (less : j < k) :
    ¬ tolerance.Near lines[founder j] lines[founder k] := by
  apply h.first (founder k) j
  rwa [h.home_founder]

/-- Where two groupings agree on the first lines, they agree on the founders among them. -/
theorem founder_agrees (h : FirstFit tolerance lines founder home)
    (h' : FirstFit tolerance lines founder' home') {i : Fin lines.length}
    (agree : ∀ j < i, (home j : Nat) = home' j) {k : Fin m} {k' : Fin m'}
    (same : (k : Nat) = k') (before : founder k < i) : founder' k' = founder k := by
  have sent : home' (founder k) = k' := by
    rw [Fin.ext_iff, ← agree _ before, h.home_founder, same]
  have le : founder' k' ≤ founder k := by
    have := h'.founder_le (founder k)
    rwa [sent] at this
  by_contra other
  have less : founder' k' < founder k := lt_of_le_of_ne le other
  have back : home (founder' k') = k := by
    rw [Fin.ext_iff, agree _ (less.trans before), h'.home_founder, same]
  have := h.founder_le (founder' k')
  rw [back] at this
  exact absurd less (not_lt.mpr this)

theorem home_le (h : FirstFit tolerance lines founder home)
    (h' : FirstFit tolerance lines founder' home') {i : Fin lines.length}
    (agree : ∀ j < i, (home j : Nat) = home' j) : (home' i : Nat) ≤ home i := by
  by_contra less
  rw [Nat.not_le] at less
  let k' : Fin m' := ⟨home i, less.trans (home' i).isLt⟩
  -- The group in question has been founded before, so the line did not found it the other time.
  have before : founder' k' < i := (h'.founder_lt k' (home' i) less).trans_le (h'.founder_le i)
  have founded : founder (home i) = founder' k' :=
    founder_agrees h' h (fun j before => (agree j before).symm) rfl before
  have near := (h.joined i (founded ▸ before.ne)).2
  simp only [founded] at near
  exact h'.first i k' less near

/-- No two groupings are first fit. -/
theorem unique (h : FirstFit tolerance lines founder home)
    (h' : FirstFit tolerance lines founder' home') :
    m' = m ∧ ∀ i, (home' i : Nat) = home i := by
  have agree (i : Fin lines.length) : (home' i : Nat) = home i := by
    induction i using WellFoundedLT.induction with
    | ind i ih =>
        exact Nat.le_antisymm (home_le h h' fun j less => (ih j less).symm) (home_le h' h ih)
  have most {m m' : Nat} {founder : Fin m → Fin lines.length} {home : Fin lines.length → Fin m}
      {home' : Fin lines.length → Fin m'} (h : FirstFit tolerance lines founder home)
      (agree : ∀ i, (home' i : Nat) = home i) : m ≤ m' := by
    by_contra less
    rw [Nat.not_le] at less
    have inside := (home' (founder ⟨m', less⟩)).isLt
    rw [agree, h.home_founder] at inside
    exact Nat.lt_irrefl m' inside
  exact ⟨Nat.le_antisymm (most h' fun i => (agree i).symm) (most h agree), agree⟩

end FirstFit

/-- The lines of one group in their order. -/
def membersOf {m : Nat} (lines : List (Line α)) (home : Fin lines.length → Fin m) (k : Fin m) :
    List (Line α) :=
  ((List.finRange lines.length).filter (home · = k)).map lines.get

/-- A cluster that stands for some lines, of which one is the founder. -/
structure Cluster.Represents (c : Cluster α) (founder : Line α) (members : List (Line α)) :
    Prop where
  side_eq : c.side = founder.side
  lookback_eq : c.lookback = founder.lookback
  members_eq : c.members = members.length
  mem_touches : ∀ t, t ∈ c.touches ↔ ∃ line ∈ members, t ∈ line.touches
  mem_lookbacks : ∀ l, l ∈ c.lookbacks ↔ ∃ line ∈ members, line.lookback = l
  violations_eq : c.violations = (members.map (·.violations)).sum % wordCount
  start_le : ∀ line ∈ members, c.start ≤ line.start
  exists_start : ∃ line ∈ members, c.start = line.start
  slope_eq : c.slope = (members.map (·.slope)).foldl (· + ·) 0 / (members.length : α)
  intercept_eq : c.intercept = (members.map (·.intercept)).foldl (· + ·) 0 / (members.length : α)
  rSquared_eq : c.rSquared = (members.map (·.rSquared)).foldl (· + ·) 0 / (members.length : α)

/-- Every line is in one of the clusters, where first fit puts it, and every cluster stands for the
lines that are in it. -/
def Cluster.Partitions (tolerance : Tolerance α) (lines : List (Line α))
    (clusters : List (Cluster α)) : Prop :=
  ∃ (founder : Fin clusters.length → Fin lines.length)
    (home : Fin lines.length → Fin clusters.length),
    FirstFit tolerance lines founder home ∧
    ∀ k : Fin clusters.length, clusters[k].Represents lines[founder k] (membersOf lines home k)

end Trendline
