import Mathlib.Data.List.Destutter
import Trendline.Proofs.Analysis.Clusters

/-!
What an analysis makes of its list of lookbacks. They are sorted, equal neighbours are collapsed,
and the rest may be worked on side by side. None of this shows: neither the order of the lookbacks,
nor how often one is given, nor the way in which the work is spread has any part in the outcome, and
what one lookback contributes is the same whatever the others are.
-/

namespace Trendline

section Collapsing

variable {κ : Type} [DecidableEq κ] {x y : κ} {xs : List κ}

theorem mem_destutter'_ne_iff : x ∈ xs.destutter' (· ≠ ·) y ↔ x = y ∨ x ∈ xs := by
  induction xs generalizing y with
  | nil => simp
  | cons z xs ih =>
      by_cases same : y = z
      · rw [List.destutter'_cons_neg _ (by simp [same]), ih, same]
        simp
      · rw [List.destutter'_cons_pos _ same, List.mem_cons, ih, List.mem_cons]

theorem mem_destutter_ne_iff : x ∈ xs.destutter (· ≠ ·) ↔ x ∈ xs := by
  cases xs with
  | nil => simp
  | cons y xs => rw [List.destutter_cons', mem_destutter'_ne_iff, List.mem_cons]

theorem destutter_ne_ascending {xs : List Nat} (sorted : xs.Pairwise (· ≤ ·)) :
    (xs.destutter (· ≠ ·)).Pairwise (· < ·) := by
  have le := (sorted.sublist (List.destutter_sublist (· ≠ ·) xs)).isChain
  have ne := List.isChain_destutter (· ≠ ·) xs
  rw [List.isChain_iff_getElem] at le ne
  rw [← List.isChain_iff_pairwise, List.isChain_iff_getElem]
  exact fun i inside => lt_of_le_of_ne (le i inside) (ne i inside)

end Collapsing

section SideBySide

variable {κ β ε : Type}

/-- A way to work on each element of a list. -/
abbrev Traversal (κ β ε : Type) := (κ → Except ε β) → List κ → Except ε (List β)

/-- What is asked of a traversal that may work on the elements in any order: if none fails, it gives
the results in the order of the list. What it gives if several fail is left open. -/
def Traversal.InOrder (traverse : Traversal κ β ε) : Prop :=
  ∀ f xs ys, List.Forall₂ (fun x y => f x = .ok y) xs ys → traverse f xs = .ok ys

/-- From the last element to the first. -/
def fromTheBack (f : κ → Except ε β) : List κ → Except ε (List β)
  | [] => .ok []
  | x :: xs => do
      let later ← fromTheBack f xs
      return (← f x) :: later

theorem fromTheBack_inOrder : Traversal.InOrder (fromTheBack : Traversal κ β ε) := by
  intro f xs ys all
  induction all with
  | nil => rfl
  | cons ok _ ih =>
      rw [fromTheBack, ih, ok]
      rfl

end SideBySide

variable {α : Type} [Scalar α]

/-- The lookbacks, sorted and then freed of equal neighbours. -/
def Params.lookbacksInTurn (p : Params α) : List Nat :=
  (p.lookbacks.mergeSort (· ≤ ·)).destutter (· ≠ ·)

namespace Series

/-- An analysis whose lookbacks may be worked on side by side, by way of `traverse`. -/
def analyzeBy (traverse : Traversal Nat (List (Line α) × LookbackStats) (Error α)) (s : Series α)
    (p : Params α) : Except (Error α) (Analysis α) := do
  p.validate
  s.validate
  let found ← if p.parallel then traverse (s.linesFor p) p.lookbacksInTurn
    else p.lookbacksInTurn.mapM (s.linesFor p)
  let lines := found.flatMap (·.1)
  let clusters := (Cluster.ofLines p.merging lines).map (Cluster.assignScore p.scoring s)
  let ranked := Cluster.select p.scoring.minScore p.topN clusters
  return {
    symbol := s.symbol
    clusters := ranked
    overlays := Overlay.ofClusters p.drawing s ranked
    stats := ⟨s.size, found.map (·.2), clusters.length⟩ }

end Series

namespace Params

variable {p : Params α}

omit [Scalar α] in
theorem lookbacksInTurn_eq (p : Params α) : p.lookbacksInTurn = p.sortedLookbacks.toList := by
  have sorted : (p.lookbacks.mergeSort (· ≤ ·)).Pairwise (· ≤ ·) :=
    List.pairwise_mergeSort' (· ≤ ·) p.lookbacks
  have same : (⟨p.lookbacksInTurn, destutter_ne_ascending sorted⟩ : Ascending Nat)
      = p.sortedLookbacks := by
    apply Ascending.ext_mem
    intro l
    rw [sortedLookbacks, Ascending.mem_ofList]
    exact mem_destutter_ne_iff.trans List.mem_mergeSort
  rw [← same]

omit [Scalar α] in
theorem sortedLookbacks_congr {p' : Params α} (same : ∀ l, l ∈ p'.lookbacks ↔ l ∈ p.lookbacks) :
    p'.sortedLookbacks = p.sortedLookbacks := by
  apply Ascending.ext_mem
  intro l
  rw [sortedLookbacks, sortedLookbacks, Ascending.mem_ofList, Ascending.mem_ofList, same]

omit [Scalar α] in
theorem requireLookbacks_congr {ls ls' : List Nat} (same : ∀ l, l ∈ ls' ↔ l ∈ ls) :
    (requireLookbacks ls' : Option (ParamFault α)) = requireLookbacks ls := by
  have empty : ls'.isEmpty = ls.isEmpty := by
    rw [Bool.eq_iff_iff]
    simp only [List.isEmpty_iff, List.eq_nil_iff_forall_not_mem, same]
  have zero : ls'.any (· < 1) = ls.any (· < 1) := by
    rw [Bool.eq_iff_iff]
    simp only [List.any_eq_true, same]
  rw [requireLookbacks, requireLookbacks, empty, zero]

/-- The rules see neither the order nor the number of equal lookbacks. -/
theorem validate_congr {lookbacks : List Nat} (parallel : Bool)
    (same : ∀ l, l ∈ lookbacks ↔ l ∈ p.lookbacks) :
    { p with lookbacks, parallel }.validate = p.validate := by
  have fault : { p with lookbacks, parallel }.fault? = p.fault? := by
    unfold fault?
    simp only [requireLookbacks_congr same]
  rw [validate, validate, fault]

end Params

namespace Series

variable {s : Series α} {p : Params α}

/-- Neither sorting and collapsing nor working side by side shows in the outcome. -/
theorem analyzeBy_eq_analyze
    {traverse : Traversal Nat (List (Line α) × LookbackStats) (Error α)}
    (ordered : traverse.InOrder) (s : Series α) (p : Params α) :
    s.analyzeBy traverse p = s.analyze p := by
  unfold analyzeBy analyze
  cases inRange : p.validate with
  | error e => rfl
  | ok =>
      have hp := Params.validate_eq_ok_iff.mp inRange
      have fine : ∀ l ∈ p.sortedLookbacks.toList,
          s.linesFor p l = .ok (s.keptLines p l, s.lookbackStats p l) := fun l mem =>
        linesFor_eq_ok (hp.lookback_pos l (Ascending.mem_ofList.mp mem))
      have one := mapM_eq_ok fine
      have all : traverse (s.linesFor p) p.sortedLookbacks.toList = _ :=
        ordered _ _ _ (mapM_ok_iff.mp one)
      rw [Params.lookbacksInTurn_eq, all, one, ite_self]

theorem analyze_congr {lookbacks : List Nat} (parallel : Bool)
    (same : ∀ l, l ∈ lookbacks ↔ l ∈ p.lookbacks) :
    s.analyze { p with lookbacks, parallel } = s.analyze p := by
  have turns : ({ p with lookbacks, parallel } : Params α).sortedLookbacks = p.sortedLookbacks :=
    Params.sortedLookbacks_congr same
  unfold analyze
  rw [Params.validate_congr parallel same, turns]
  rfl

/-- One lookback has one entry, the same whatever the others are. -/
theorem filter_lookbackStats (s : Series α) (p : Params α) {l : Nat} (mem : l ∈ p.lookbacks) :
    (p.sortedLookbacks.toList.map (s.lookbackStats p)).filter (·.lookback = l)
      = [s.lookbackStats p l] := by
  have own : (fun entry : LookbackStats => decide (entry.lookback = l)) ∘ s.lookbackStats p
      = fun m => decide (m = l) := rfl
  have once : p.sortedLookbacks.toList.count l = 1 :=
    List.count_eq_one_of_mem p.sortedLookbacks.nodup (Ascending.mem_ofList.mpr mem)
  rw [List.filter_map, own, List.filter_eq, once]
  rfl

theorem lookbacks_of_analyze {a : Analysis α} (done : s.analyze p = .ok a) :
    a.stats.lookbacks = p.sortedLookbacks.toList.map (s.lookbackStats p) := by
  obtain ⟨hs, hp⟩ := wellFormed_of_analyze done
  rw [analyze_eq_ok hs hp] at done
  cases done
  rfl

end Series

/-- Two runs whose parameters agree but for the lookbacks, of which they list the same ones, have the
same outcome, on whatever ways the lookbacks are worked on side by side. And where both runs are
asked for a lookback, it has one entry in either, the same, even if they are not asked for the same
others. -/
theorem lookback_set_decides
    {traverse traverse' : Traversal Nat (List (Line α) × LookbackStats) (Error α)}
    (ordered : traverse.InOrder) (ordered' : traverse'.InOrder) (s : Series α) (p : Params α)
    (lookbacks : List Nat) (parallel : Bool) :
    let p' := { p with lookbacks, parallel }
    s.analyzeBy traverse p = s.analyze p ∧
      ((∀ l, l ∈ lookbacks ↔ l ∈ p.lookbacks) →
        s.analyzeBy traverse' p' = s.analyzeBy traverse p) ∧
      ∀ a a', s.analyzeBy traverse p = .ok a → s.analyzeBy traverse' p' = .ok a' →
        ∀ l ∈ p.lookbacks, l ∈ lookbacks → ∃ entry : LookbackStats, entry.lookback = l ∧
          a.stats.lookbacks.filter (·.lookback = l) = [entry] ∧
          a'.stats.lookbacks.filter (·.lookback = l) = [entry] := by
  intro p'
  rw [Series.analyzeBy_eq_analyze ordered, Series.analyzeBy_eq_analyze ordered']
  refine ⟨rfl, Series.analyze_congr parallel, ?_⟩
  intro a a' done done' l mem mem'
  refine ⟨s.lookbackStats p l, rfl, ?_, ?_⟩
  · rw [Series.lookbacks_of_analyze done, s.filter_lookbackStats p mem]
  · rw [Series.lookbacks_of_analyze done']
    exact s.filter_lookbackStats p' mem'

/-- The lookbacks of a zigzag the other way round, one of them twice and one after the other; and one
of them with another that is not among them. -/
theorem lookback_set_decides_zigzag :
    zigzagParams.lookbacks = [2, 1] ∧ zigzagParams.parallel = true ∧
      zigzag.analyzeBy fromTheBack { zigzagParams with lookbacks := [1, 2, 1], parallel := false }
        = zigzag.analyzeBy fromTheBack zigzagParams ∧
      ∃ a a' entry, zigzag.analyzeBy fromTheBack zigzagParams = .ok a ∧
        zigzag.analyzeBy fromTheBack { zigzagParams with lookbacks := [3, 1] } = .ok a' ∧
        a.stats.lookbacks.filter (·.lookback = 1) = [entry] ∧
        a'.stats.lookbacks.filter (·.lookback = 1) = [entry] := by
  obtain ⟨plain, same, -⟩ := lookback_set_decides fromTheBack_inOrder
    fromTheBack_inOrder zigzag zigzagParams [1, 2, 1] false
  obtain ⟨-, -, shared⟩ := lookback_set_decides fromTheBack_inOrder
    fromTheBack_inOrder zigzag zigzagParams [3, 1] true
  have valid : zigzag.WellFormed := Series.validate_eq_ok_iff.mp (by decide +kernel)
  have inRange : zigzagParams.WellFormed := Params.validate_eq_ok_iff.mp (by decide +kernel)
  have inRange' : ({ zigzagParams with lookbacks := [3, 1] } : Params Float).WellFormed :=
    Params.validate_eq_ok_iff.mp (by decide +kernel)
  have done := plain.trans (Series.analyze_eq_ok valid inRange)
  have done' := (Series.analyzeBy_eq_analyze fromTheBack_inOrder _ _).trans
    (Series.analyze_eq_ok valid inRange')
  obtain ⟨entry, -, first, second⟩ := shared _ _ done done' 1 (by decide) (by decide)
  exact ⟨rfl, rfl, same (by simp [zigzagParams, or_comm]), _, _, entry, done, done', first, second⟩

end Trendline
