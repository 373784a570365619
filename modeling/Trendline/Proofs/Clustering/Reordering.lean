import Trendline.Proofs.Clustering.Placing
import Trendline.Proofs.Scalar.Rational

/-!
When the order of lines does not matter to their clusters. In general first fit depends on it. But
where being near is transitive, a founder stands for every line of its group, and the groups are
the classes of lines that are near to one another, in whatever order they come. A cluster takes its
side, touches, lookbacks, breaks, count and start from its lines in any order; its means are sums,
and these are only the same where nothing is rounded.
-/

namespace Trendline

variable {α : Type} [Scalar α]

namespace FirstFit

variable {tolerance : Tolerance α} {lines lines' : List (Line α)} {m m' : Nat}
  {founder : Fin m → Fin lines.length} {home : Fin lines.length → Fin m}
  {founder' : Fin m' → Fin lines'.length} {home' : Fin lines'.length → Fin m'}
  {place : Fin lines'.length ≃ Fin lines.length}

theorem near_founder (h : FirstFit tolerance lines founder home)
    (near : Equivalence fun i j => tolerance.Near (lines.get i) (lines.get j))
    (i : Fin lines.length) :
    tolerance.Near (lines.get (founder (home i))) (lines.get i) := by
  by_cases eq : founder (home i) = i
  · rw [eq]
    exact near.refl i
  · exact (h.joined i eq).2

/-- Two lines are in one group if they are near to one another. -/
theorem home_eq_iff (h : FirstFit tolerance lines founder home)
    (near : Equivalence fun i j => tolerance.Near (lines.get i) (lines.get j))
    (i j : Fin lines.length) :
    home i = home j ↔ tolerance.Near (lines.get i) (lines.get j) := by
  have left := h.near_founder near i
  have right := h.near_founder near j
  constructor
  · intro same
    rw [← same] at right
    exact near.trans (near.symm left) right
  · intro close
    have founders :
        tolerance.Near (lines.get (founder (home i))) (lines.get (founder (home j))) :=
      near.trans (near.trans left close) (near.symm right)
    by_contra other
    rcases lt_or_gt_of_ne other with less | greater
    · exact h.not_near less founders
    · exact h.not_near greater (near.symm founders)

/-- Where lines share a group whenever they do so in another order, the groups correspond. -/
theorem exists_twin (h : FirstFit tolerance lines founder home)
    (h' : FirstFit tolerance lines' founder' home')
    (together : ∀ i j, home' i = home' j ↔ home (place i) = home (place j)) :
    ∃ twin : Fin m' ≃ Fin m, ∀ i, twin (home' i) = home (place i) := by
  -- A group goes where its founder goes; that line need not have founded the other group.
  refine ⟨⟨fun k => home (place (founder' k)), fun k => home' (place.symm (founder k)), ?_, ?_⟩, ?_⟩
  · intro k
    rw [← h'.home_founder k, together, h'.home_founder, Equiv.apply_symm_apply, h.home_founder]
  · intro k
    have back := (together _ _).mp (h'.home_founder (home' (place.symm (founder k))))
    exact back.trans (by rw [Equiv.apply_symm_apply, h.home_founder])
  · exact fun i => (together _ _).mp (h'.home_founder (home' i))

end FirstFit

omit [Scalar α] in
theorem membersOf_perm {lines lines' : List (Line α)} {m m' : Nat}
    {home : Fin lines.length → Fin m} {home' : Fin lines'.length → Fin m'}
    {place : Fin lines'.length ≃ Fin lines.length}
    (same : ∀ i, lines'.get i = lines.get (place i))
    {twin : Fin m' ≃ Fin m} (sent : ∀ i, twin (home' i) = home (place i)) (k : Fin m') :
    (membersOf lines' home' k).Perm (membersOf lines home (twin k)) := by
  have places : (((List.finRange lines'.length).filter (home' · = k)).map place).Perm
      ((List.finRange lines.length).filter (home · = twin k)) := by
    rw [List.perm_ext_iff_of_nodup (((List.nodup_finRange _).filter _).map place.injective)
      ((List.nodup_finRange _).filter _)]
    intro i
    simp only [List.mem_map, List.mem_filter, List.mem_finRange, true_and, decide_eq_true_eq]
    constructor
    · rintro ⟨j, rfl, rfl⟩
      exact (sent j).symm
    · intro listed
      refine ⟨place.symm i, twin.injective ?_, place.apply_symm_apply i⟩
      rw [sent, place.apply_symm_apply, listed]
  have entries : lines'.get = lines.get ∘ place := funext same
  rw [membersOf, entries, ← List.map_map]
  exact places.map lines.get

namespace Cluster

/-- Two clusters that agree in what is the same in every order of their lines. -/
structure SameContents (c d : Cluster α) : Prop where
  side_eq : c.side = d.side
  touches_eq : c.touches = d.touches
  lookbacks_eq : c.lookbacks = d.lookbacks
  violations_eq : c.violations = d.violations
  members_eq : c.members = d.members
  start_eq : c.start = d.start

/-- They agree in their means as well. -/
structure SameInFull (c d : Cluster α) : Prop extends c.SameContents d where
  slope_eq : c.slope = d.slope
  intercept_eq : c.intercept = d.intercept
  rSquared_eq : c.rSquared = d.rSquared

theorem Represents.sameContents {c d : Cluster α} {founder other : Line α}
    {members others : List (Line α)} (hc : c.Represents founder members)
    (hd : d.Represents other others) (perm : members.Perm others)
    (side : founder.side = other.side) : c.SameContents d where
  side_eq := by rw [hc.side_eq, hd.side_eq, side]
  touches_eq := Ascending.ext_mem fun t => by
    simp only [hc.mem_touches, hd.mem_touches, perm.mem_iff]
  lookbacks_eq := Ascending.ext_mem fun l => by
    simp only [hc.mem_lookbacks, hd.mem_lookbacks, perm.mem_iff]
  violations_eq := by rw [hc.violations_eq, hd.violations_eq, (perm.map _).sum_eq]
  members_eq := by rw [hc.members_eq, hd.members_eq, perm.length_eq]
  start_eq := by
    obtain ⟨line, mem, eq⟩ := hc.exists_start
    obtain ⟨line', mem', eq'⟩ := hd.exists_start
    apply Nat.le_antisymm
    · rw [eq']
      exact hc.start_le line' (perm.mem_iff.mpr mem')
    · rw [eq]
      exact hd.start_le line (perm.mem_iff.mp mem)

theorem Represents.sameInFull {c d : Cluster Rat} {founder other : Line Rat}
    {members others : List (Line Rat)} (hc : c.Represents founder members)
    (hd : d.Represents other others) (perm : members.Perm others)
    (side : founder.side = other.side) : c.SameInFull d := by
  have sums (quantity : Line Rat → Rat) : (members.map quantity).foldl (· + ·) 0
      = (others.map quantity).foldl (· + ·) 0 := by
    rw [← List.sum_eq_foldl, ← List.sum_eq_foldl, (perm.map quantity).sum_eq]
  refine ⟨hc.sameContents hd perm side, ?_, ?_, ?_⟩
  · rw [hc.slope_eq, hd.slope_eq, sums, perm.length_eq]
  · rw [hc.intercept_eq, hd.intercept_eq, sums, perm.length_eq]
  · rw [hc.rSquared_eq, hd.rSquared_eq, sums, perm.length_eq]

/-- How the clusters of some lines come about: first fit puts the lines into groups, and every
cluster stands for the lines of its group. -/
structure GroupedBy (tolerance : Tolerance α) (lines : List (Line α))
    (founder : Fin (ofLines tolerance lines).length → Fin lines.length)
    (home : Fin lines.length → Fin (ofLines tolerance lines).length) : Prop where
  firstFit : FirstFit tolerance lines founder home
  represents : ∀ k : Fin (ofLines tolerance lines).length,
    (ofLines tolerance lines)[k].Represents lines[founder k] (membersOf lines home k)

/-- The clusters of some lines and of the same in another order, where `place i` is the position in
which the line in position `i` stood. The lines are parted into the classes of those that are near
to one another, by either list, and the clusters of one class agree. -/
def Correspond (Agree : Cluster α → Cluster α → Prop) (tolerance : Tolerance α)
    {lines lines' : List (Line α)} (place : Fin lines'.length ≃ Fin lines.length) : Prop :=
  ∃ founder home founder' home',
    GroupedBy tolerance lines founder home ∧ GroupedBy tolerance lines' founder' home' ∧
    (∀ i j, home i = home j ↔ tolerance.Near (lines.get i) (lines.get j)) ∧
    (∀ i j, home' i = home' j ↔ tolerance.Near (lines'.get i) (lines'.get j)) ∧
    ∃ twin : Fin (ofLines tolerance lines').length ≃ Fin (ofLines tolerance lines).length,
      (∀ i, twin (home' i) = home (place i)) ∧
      ∀ k, Agree (ofLines tolerance lines')[k] (ofLines tolerance lines)[twin k]

theorem correspond {Agree : Cluster α → Cluster α → Prop} {tolerance : Tolerance α}
    {lines lines' : List (Line α)} {place : Fin lines'.length ≃ Fin lines.length}
    (same : ∀ i, lines'.get i = lines.get (place i))
    (near : Equivalence fun i j => tolerance.Near (lines.get i) (lines.get j))
    (agree : ∀ {c d : Cluster α} {founder other : Line α} {members others : List (Line α)},
      c.Represents founder members → d.Represents other others → members.Perm others →
        founder.side = other.side → Agree c d) :
    Correspond Agree tolerance place := by
  have near' : Equivalence fun i j => tolerance.Near (lines'.get i) (lines'.get j) := by
    simp only [same]
    exact near.comap place
  obtain ⟨founder, home, fit, represents⟩ := partitions_ofLines tolerance lines
  obtain ⟨founder', home', fit', represents'⟩ := partitions_ofLines tolerance lines'
  have together (i j : Fin lines'.length) :
      home' i = home' j ↔ home (place i) = home (place j) := by
    rw [fit'.home_eq_iff near', fit.home_eq_iff near, same, same]
  obtain ⟨twin, sent⟩ := fit.exists_twin fit' together
  refine ⟨founder, home, founder', home', ⟨fit, represents⟩, ⟨fit', represents'⟩,
    fit.home_eq_iff near, fit'.home_eq_iff near', twin, sent, fun k => ?_⟩
  refine agree (represents' k) (represents (twin k)) (membersOf_perm same sent k) ?_
  have home_eq : home (founder (twin k)) = home (place (founder' k)) := by
    rw [fit.home_founder, ← sent, fit'.home_founder]
  have near_founders := (fit.home_eq_iff near _ _).mp home_eq
  rw [← same] at near_founders
  exact near_founders.1.symm

end Cluster

/-- Tolerances that keep no line from itself, and lines of finite course among which being near is
transitive. -/
structure Tolerance.Classifies (tolerance : Tolerance α) (lines : List (Line α)) : Prop where
  slope_nonneg : 0 ≤ tolerance.slope
  intercept_nonneg : 0 ≤ tolerance.intercept
  slope_finite : ∀ line ∈ lines, Scalar.isFinite line.slope = true
  intercept_finite : ∀ line ∈ lines, Scalar.isFinite line.intercept = true
  near_trans : ∀ a ∈ lines, ∀ b ∈ lines, ∀ c ∈ lines,
    tolerance.Near a b → tolerance.Near b c → tolerance.Near a c

theorem Tolerance.Classifies.equivalence [LawfulScalar α] {tolerance : Tolerance α}
    {lines : List (Line α)} (h : tolerance.Classifies lines)
    (distance : ∀ x y : α, Scalar.abs (x - y) = Scalar.abs (y - x)) :
    Equivalence fun i j => tolerance.Near (lines.get i) (lines.get j) where
  refl i := by
    have mem := List.get_mem lines i
    refine ⟨rfl, ?_, ?_⟩
    · rw [LawfulScalar.abs_sub_self (h.slope_finite _ mem)]
      exact h.slope_nonneg
    · rw [LawfulScalar.abs_sub_self (h.intercept_finite _ mem)]
      exact h.intercept_nonneg
  symm := (near_comm_of distance).mp
  trans := h.near_trans _ (List.get_mem _ _) _ (List.get_mem _ _) _ (List.get_mem _ _)

theorem Rational.distance_comm (x y : Rat) : Scalar.abs (x - y) = Scalar.abs (y - x) := by
  rw [abs_eq_abs, abs_eq_abs, abs_sub_comm]

/-- Where being near is transitive among some lines, their clusters are the same in any order of
them but for the order of the clusters and, where sums are rounded, their means. -/
theorem clusters_ignore_order :
    (∀ (tolerance : Tolerance Float) (lines lines' : List (Line Float))
      (place : Fin lines'.length ≃ Fin lines.length), tolerance.Classifies lines →
      (∀ i, lines'[i] = lines[place i]) → Cluster.Correspond Cluster.SameContents tolerance place) ∧
    (∀ (tolerance : Tolerance Rat) (lines lines' : List (Line Rat))
      (place : Fin lines'.length ≃ Fin lines.length), tolerance.Classifies lines →
      (∀ i, lines'[i] = lines[place i]) →
        Cluster.Correspond Cluster.SameInFull tolerance place) := by
  constructor
  · intro tolerance lines lines' place classifies same
    exact Cluster.correspond same (classifies.equivalence Double.abs_sub_comm)
      Cluster.Represents.sameContents
  · intro tolerance lines lines' place classifies same
    exact Cluster.correspond same (classifies.equivalence Rational.distance_comm)
      Cluster.Represents.sameInFull

/-- A level line over the first bars, which one bar touches and one breaks. -/
def levelLine (α : Type) [Scalar α] (height : Nat) (side : Side) (lookback : Nat) : Line α where
  slope := 0
  intercept := height
  rSquared := 1
  touches := .ofList [lookback]
  violations := 1
  lookback
  side
  first := ⟨lookback, lookback, height, side⟩
  second := ⟨lookback + 1, lookback + 1, height, side⟩

/-- Two lines that are one apart, and two that are not near to any other. -/
def levels (α : Type) [Scalar α] : List (Line α) :=
  [levelLine α 10 .low 5, levelLine α 20 .low 5, levelLine α 11 .low 8, levelLine α 10 .high 5]

def oneApart (α : Type) [Scalar α] : Tolerance α :=
  ⟨0, 1⟩

def backwards (α : Type) [Scalar α] : Fin (levels α).reverse.length ≃ Fin (levels α).length :=
  Fin.revPerm

instance (tolerance : Tolerance α) : DecidableRel tolerance.Near := fun line other =>
  inferInstanceAs (Decidable (line.side = other.side ∧ _ ∧ _))

theorem reverse_levels (α : Type) [Scalar α] (i : Fin (levels α).reverse.length) :
    (levels α).reverse[i] = (levels α)[backwards α i] := by
  match i with
  | ⟨0, _⟩ | ⟨1, _⟩ | ⟨2, _⟩ | ⟨3, _⟩ => rfl

theorem clusters_ignore_order_levels :
    ((oneApart Float).Classifies (levels Float) ∧
      (Cluster.ofLines (oneApart Float) (levels Float)).map (·.members) = [2, 1, 1] ∧
      (Cluster.ofLines (oneApart Float) (levels Float).reverse).map (·.members) = [1, 2, 1] ∧
      Cluster.Correspond Cluster.SameContents (oneApart Float) (backwards Float)) ∧
    (oneApart Rat).Classifies (levels Rat) ∧
      Cluster.Correspond Cluster.SameInFull (oneApart Rat) (backwards Rat) := by
  have rounded : (oneApart Float).Classifies (levels Float) :=
    ⟨by decide +kernel, by decide +kernel, by decide +kernel, by decide +kernel, by decide +kernel⟩
  have exact : (oneApart Rat).Classifies (levels Rat) :=
    ⟨by decide +kernel, by decide +kernel, by decide +kernel, by decide +kernel, by decide +kernel⟩
  exact ⟨⟨rounded, by decide +kernel, by decide +kernel,
      clusters_ignore_order.1 _ _ _ _ rounded (reverse_levels Float)⟩,
    exact, clusters_ignore_order.2 _ _ _ _ exact (reverse_levels Rat)⟩

/-- Where it is not transitive, the order decides how many clusters there are. -/
example :
    ([10, 11, 12].map (levelLine Float · .low 5) |> Cluster.ofLines (oneApart Float)).length = 2 ∧
      ([11, 10, 12].map (levelLine Float · .low 5) |> Cluster.ofLines (oneApart Float)).length
        = 1 := by
  decide +kernel

end Trendline
