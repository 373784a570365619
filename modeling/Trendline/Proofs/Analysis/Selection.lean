import Trendline.Proofs.Analysis.Overlays

/-!
The choice among ranked clusters. The rank order is transitive and places any two clusters, and
equally good ones keep their places; so a cluster that is left out, at the end or for its score,
leaves the others in their order. What is drawn changes in the relative score alone.
-/

namespace Trendline

section Sorting

variable {β : Type} {le : β → β → Bool}

/-- Where a list is cut in two by a property, the parts are known. -/
theorem append_inj_of_forall {holds : β → Bool} {xs ys xs' ys' : List β}
    (eq : xs ++ ys = xs' ++ ys') (hx : ∀ x ∈ xs, holds x = true) (hy : ∀ y ∈ ys, holds y = false)
    (hx' : ∀ x ∈ xs', holds x = true) (hy' : ∀ y ∈ ys', holds y = false) :
    xs = xs' ∧ ys = ys' := by
  have left {us vs : List β} (hu : ∀ u ∈ us, holds u = true) (hv : ∀ v ∈ vs, holds v = false) :
      (us ++ vs).filter holds = us := by
    have none : vs.filter holds = [] :=
      List.filter_eq_nil_iff.mpr fun v mem => by simp [hv v mem]
    rw [List.filter_append, List.filter_eq_self.mpr hu, none, List.append_nil]
  have same : xs = xs' := by rw [← left hx hy, eq, left hx' hy']
  exact ⟨same, List.append_cancel_left (same ▸ eq)⟩

theorem filter_mergeSort (trans : ∀ a b c, le a b = true → le b c = true → le a c = true)
    (total : ∀ a b, (le a b || le b a) = true) (keep : β → Bool) (xs : List β) :
    (xs.mergeSort le).filter keep = (xs.filter keep).mergeSort le := by
  induction xs with
  | nil => simp
  | cons x xs ih =>
      obtain ⟨before, after, whole, others, less⟩ := List.mergeSort_cons trans total x xs
      rw [whole, List.filter_append]
      rw [others, List.filter_append] at ih
      by_cases kept : keep x = true
      · rw [List.filter_cons_of_pos kept, List.filter_cons_of_pos kept]
        obtain ⟨before', after', whole', others', less'⟩ :=
          List.mergeSort_cons trans total x (xs.filter keep)
        rw [whole']
        rw [others'] at ih
        -- Both lists are cut where `x` no longer comes after the others.
        have follow {us vs ws : List β} (sorted : ws.mergeSort le = us ++ x :: vs) :
            ∀ v ∈ vs, (!le x v) = false := by
          have ascending := List.pairwise_mergeSort trans total ws
          rw [sorted] at ascending
          intro v mem
          rw [List.rel_of_pairwise_cons (List.pairwise_append.mp ascending).2.1 mem]
          rfl
        obtain ⟨same, same'⟩ := append_inj_of_forall ih
          (fun y mem => less y (List.mem_of_mem_filter mem))
          (fun y mem => follow whole y (List.mem_of_mem_filter mem)) less' (follow whole')
        rw [same, same']
      · rw [List.filter_cons_of_neg kept, List.filter_cons_of_neg kept]
        exact ih

end Sorting

section Pairs

variable {β γ δ : Type} {R : β → γ → Prop} {S : β → δ → Prop}

/-- Two lists that keep step with one list keep step with each other. -/
theorem forall₂_of_common {xs : List β} {ys : List γ} {zs : List δ} (left : List.Forall₂ R xs ys)
    (right : List.Forall₂ S xs zs) :
    List.Forall₂ (fun y z => ∃ x ∈ xs, R x y ∧ S x z) ys zs := by
  induction left generalizing zs with
  | nil =>
      cases right
      exact .nil
  | @cons x y xs ys rel _ ih =>
      obtain ⟨z, zs, first, later, rfl⟩ := List.forall₂_cons_left_iff.mp right
      refine .cons ⟨x, List.mem_cons_self, rel, first⟩ ((ih later).imp ?_)
      intro y' z' ⟨x', mem, both⟩
      exact ⟨x', List.mem_cons_of_mem x mem, both⟩

end Pairs

variable {α : Type} [Scalar α]

namespace Cluster

/-- The rank order, one criterion after the other. -/
theorem rankOrder_eq :
    (rankOrder : Cluster α → Cluster α → Ordering) =
      compareLex (compareOn (·.invalid)) (compareLex (fun a b => Scalar.order b.score a.score)
        (compareLex (fun a b => compare b.touchCount a.touchCount) (compareOn (·.lookback)))) :=
  rfl

theorem select_none_none (clusters : List (Cluster α)) :
    select none none clusters = clusters.mergeSort fun a b => a.rankOrder b ≠ .gt := by
  have all : clusters.filter (fun c => (none : Option α).all (· ≤ c.score)) = clusters :=
    List.filter_eq_self.mpr fun _ _ => rfl
  unfold select
  rw [all]

theorem decide_rankOrder_ne_gt (a b : Cluster α) :
    decide (a.rankOrder b ≠ .gt) = (a.rankOrder b).isLE := by
  cases a.rankOrder b <;> rfl

section Order

variable [Std.TransCmp (Scalar.order : α → α → Ordering)]

omit [Scalar α] in
theorem transCmp_on {β : Type} (cmp : α → α → Ordering) [Std.TransCmp cmp] (quantity : β → α) :
    Std.TransCmp fun a b => cmp (quantity a) (quantity b) where
  eq_swap {a b} := Std.OrientedCmp.eq_swap (a := quantity a) (b := quantity b)
  isLE_trans {a b c} hab hbc :=
    Std.TransCmp.isLE_trans (a := quantity a) (b := quantity b) (c := quantity c) hab hbc

instance : Std.TransCmp (rankOrder : Cluster α → Cluster α → Ordering) := by
  have score : Std.TransCmp fun a b : Cluster α => Scalar.order b.score a.score :=
    transCmp_on (fun x y => Scalar.order y x) fun c : Cluster α => c.score
  have touches : Std.TransCmp fun a b : Cluster α => compare b.touchCount a.touchCount :=
    transCmp_on (fun m n => compare n m) touchCount
  rw [rankOrder_eq]
  infer_instance

/-- Of two clusters one may always come first. -/
theorem isLE_rankOrder_total (a b : Cluster α) :
    ((a.rankOrder b).isLE || (b.rankOrder a).isLE) = true := by
  rw [@Std.OrientedCmp.eq_swap _ rankOrder _ b a]
  cases a.rankOrder b <;> rfl

/-- Clusters with too low a score may as well be left out after the ranking. -/
theorem select_some_none (least : α) (clusters : List (Cluster α)) :
    select (some least) none clusters
      = (select none none clusters).filter (least ≤ ·.score) := by
  rw [select_none_none]
  unfold select
  simp only [decide_rankOrder_ne_gt, Option.all_some]
  symm
  apply filter_mergeSort
  · intro a b c
    exact Std.TransCmp.isLE_trans
  · exact isLE_rankOrder_total

/-- The clusters chosen are listed in the rank order. -/
theorem pairwise_select (minScore : Option α) (topN : Option Nat) (clusters : List (Cluster α)) :
    (select minScore topN clusters).Pairwise fun a b => (a.rankOrder b).isLE = true := by
  have sorted : ((clusters.filter fun c => minScore.all (· ≤ c.score)).mergeSort
      fun a b => (a.rankOrder b).isLE).Pairwise fun a b => (a.rankOrder b).isLE = true := by
    apply List.pairwise_mergeSort
    · intro a b c
      exact Std.TransCmp.isLE_trans
    · exact isLE_rankOrder_total
  unfold select
  simp only [decide_rankOrder_ne_gt]
  cases topN with
  | none => exact sorted
  | some n => exact sorted.sublist (List.take_sublist n _)

end Order

end Cluster

instance : Std.TransCmp (Scalar.order : Float → Float → Ordering) :=
  inferInstanceAs (Std.TransCmp (compareOn Scalar.doubleRank))

/-- Overlays that differ at most in their relative scores, and so in the colours of these. -/
def Overlay.SameCourse (o o' : Overlay α) : Prop :=
  o = { o' with relative := o.relative }

namespace Overlay

variable {s : Series α} {p : Params α} {drawing : DrawOptions} {c : Cluster α} {o o' : Overlay α}

theorem ofCluster?_eq_map (relative relative' : α) :
    ofCluster? drawing s c relative
      = (ofCluster? drawing s c relative').map fun o => { o with relative } := by
  simp only [ofCluster?, Option.bind_eq_bind, Option.pure_def, Option.map_bind,
    Function.comp_def, Option.map_some]

theorem sameCourse_of_ofCluster? {relative relative' : α}
    (drawn : ofCluster? drawing s c relative = some o)
    (drawn' : ofCluster? drawing s c relative' = some o') : o.SameCourse o' := by
  rw [ofCluster?_eq_map relative relative', drawn', Option.map_some, Option.some.injEq] at drawn
  rw [← drawn]
  exact rfl

/-- A well-formed cluster is drawn, whatever its place on the scale of scores. -/
theorem exists_draws_of_wellFormed (hs : s.WellFormed) (hp : p.WellFormed) (drawing : DrawOptions)
    (wf : c.WellFormed s p) (relative : α) :
    ∃ o, ofCluster? drawing s c relative = some o ∧ Draws drawing s c o :=
  exists_draws hs drawing (hp.minTouches_pos.trans_le wf.enough) wf.touches_mem relative

/-- Well-formed clusters are drawn one by one. -/
theorem forall₂_ofClusters (hs : s.WellFormed) (hp : p.WellFormed) (drawing : DrawOptions)
    {ranked : List (Cluster α)} (wf : ∀ c ∈ ranked, c.WellFormed s p) :
    List.Forall₂ (fun c o => Draws drawing s c o ∧ ∃ relative,
      ofCluster? drawing s c relative = some o) ranked (ofClusters drawing s ranked) := by
  apply forall₂_filterMap_zip
  · rw [length_rescale, List.length_map]
  · intro c mem relative
    obtain ⟨o, drawn, draws⟩ := exists_draws_of_wellFormed hs hp drawing (wf c mem) relative
    exact ⟨o, drawn, draws, relative, drawn⟩

/-- What is drawn of the first clusters is the first of what is drawn of all. -/
theorem ofClusters_take (hs : s.WellFormed) (hp : p.WellFormed) (n : Nat)
    {ranked : List (Cluster α)} (wf : ∀ c ∈ ranked, c.WellFormed s p) :
    List.Forall₂ SameCourse (ofClusters drawing s (ranked.take n))
      ((ofClusters drawing s ranked).take n) := by
  have first := forall₂_ofClusters hs hp drawing
    fun c (mem : c ∈ ranked.take n) => wf c (List.mem_of_mem_take mem)
  have all := List.forall₂_take n (forall₂_ofClusters hs hp drawing wf)
  refine (forall₂_of_common first all).imp ?_
  rintro o o' ⟨c, -, ⟨-, relative, drawn⟩, -, relative', drawn'⟩
  exact sameCourse_of_ofCluster? drawn drawn'

end Overlay

namespace Params

/-- The same parameters with another choice of the clusters returned. -/
def choosing (p : Params α) (minScore : Option α) (topN : Option Nat) : Params α :=
  { p with scoring := { p.scoring with minScore }, topN }

theorem WellFormed.choosing {p : Params α} (wf : p.WellFormed) {minScore : Option α}
    (finite : ∀ x ∈ minScore, Scalar.isFinite x = true) (topN : Option Nat) :
    (p.choosing minScore topN).WellFormed :=
  { wf with minScore := finite }

end Params

/-- A limit to the number of clusters cuts their list off, and a limit to their scores takes those
below it from the list; the order stays, and so do the counts and what is drawn but for the colours
of the scores. -/
theorem selection_keeps_ranking [Std.TransCmp (Scalar.order : α → α → Ordering)] {s : Series α}
    {p : Params α} (valid : s.validate = .ok ()) (inRange : p.validate = .ok ()) (n : Nat) {m : α}
    (finite : Scalar.isFinite m = true) :
    ∃ all best unscored scored,
      s.analyze (p.choosing p.scoring.minScore none) = .ok all ∧
      s.analyze (p.choosing p.scoring.minScore (some n)) = .ok best ∧
      s.analyze (p.choosing none none) = .ok unscored ∧
      s.analyze (p.choosing (some m) none) = .ok scored ∧
      best.clusters = all.clusters.take n ∧
      scored.clusters = unscored.clusters.filter (m ≤ ·.score) ∧
      best.stats = all.stats ∧ unscored.stats = all.stats ∧ scored.stats = all.stats ∧
      List.Forall₂ Overlay.SameCourse best.overlays (all.overlays.take n) := by
  have hs := Series.validate_eq_ok_iff.mp valid
  have hp := Params.validate_eq_ok_iff.mp inRange
  refine ⟨_, _, _, _, Series.analyze_eq_ok hs (hp.choosing hp.minScore none),
    Series.analyze_eq_ok hs (hp.choosing hp.minScore (some n)),
    Series.analyze_eq_ok hs (hp.choosing (by simp) none),
    Series.analyze_eq_ok hs (hp.choosing (by simpa using finite) none),
    rfl, Cluster.select_some_none m _, rfl, rfl, rfl, ?_⟩
  have wf : ∀ c ∈ Cluster.select p.scoring.minScore none (s.foundClusters p), c.WellFormed s p :=
    fun c mem => Series.wellFormed_of_mem_foundClusters (Cluster.mem_of_mem_select mem)
  exact Overlay.ofClusters_take hs hp n wf

/-- Of the two lines of a rising zigzag the one along the tops is the best. -/
theorem selection_keeps_ranking_rising :
    (rising.validate = .ok () ∧ risingParams.validate = .ok () ∧ Float.isFinite 0.65 = true) ∧
    ∃ all best unscored scored,
      rising.analyze (risingParams.choosing none none) = .ok all ∧
      rising.analyze (risingParams.choosing none (some 1)) = .ok best ∧
      rising.analyze (risingParams.choosing none none) = .ok unscored ∧
      rising.analyze (risingParams.choosing (some 0.65) none) = .ok scored ∧
      best.clusters = all.clusters.take 1 ∧
      scored.clusters = unscored.clusters.filter (0.65 ≤ ·.score) ∧
      best.stats = all.stats ∧ unscored.stats = all.stats ∧ scored.stats = all.stats ∧
      List.Forall₂ Overlay.SameCourse best.overlays (all.overlays.take 1) :=
  ⟨by decide +kernel,
    selection_keeps_ranking (by decide +kernel) (by decide +kernel) 1 (by decide +kernel)⟩

end Trendline
