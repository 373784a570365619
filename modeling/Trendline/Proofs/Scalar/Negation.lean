import Trendline.Proofs.Scalar.Lawful
import Trendline.Proofs.Traversal
import Trendline.Trend

/-!
Numbers with the opposite sign, and what becomes of it in the formulas of the analyses. Zeros of
either sign are one number: a sum may come out as either.
-/

namespace Trendline

namespace Scalar

variable {α : Type} [Scalar α]

/-- Two numbers of one value, or two values that are no numbers. -/
def Same (x y : α) : Prop :=
  x ≤ y ∧ y ≤ x ∨ isNumber x = false ∧ isNumber y = false

/-- Two numbers of which one has the value of the other with its sign turned, or two values that
are no numbers. -/
def Opposite [Neg α] (x y : α) : Prop :=
  Same y (-x)

theorem same_self (x : α) : Same x x := by
  by_cases le : x ≤ x
  · exact .inl ⟨le, le⟩
  · exact .inr ⟨decide_eq_false le, decide_eq_false le⟩

end Scalar

open Scalar

/-- Turning signs commutes with rounding. -/
class LawfulNeg (α : Type) [Scalar α] [Neg α] : Prop where
  opposite_zero : Opposite (0 : α) 0
  opposite_add : ∀ {x x' y y' : α}, Opposite x x' → Opposite y y' → Opposite (x + y) (x' + y')
  opposite_sub : ∀ {x x' y y' : α}, Opposite x x' → Opposite y y' → Opposite (x - y) (x' - y')
  opposite_add_sub : ∀ {x x' : α} (y : α), Opposite x x' → Opposite (x + y) (x' - y)
  opposite_sub_add : ∀ {x x' : α} (y : α), Opposite x x' → Opposite (x - y) (x' + y)
  opposite_mul_left : ∀ {x x' : α} (y : α), Opposite x x' → Opposite (x * y) (x' * y)
  opposite_mul_right : ∀ (x : α) {y y' : α}, Opposite y y' → Opposite (x * y) (x * y')
  opposite_div : ∀ {x x' : α} (y : α), Opposite x x' → Opposite (x / y) (x' / y)
  square_eq : ∀ {x x' : α}, Opposite x x' → x' * x' = x * x
  abs_eq : ∀ {x x' : α}, Opposite x x' → abs x' = abs x
  lt_iff : ∀ {x x' y y' : α}, Opposite x x' → Opposite y y' → (y' < x' ↔ x < y)
  le_iff : ∀ {x x' y y' : α}, Opposite x x' → Opposite y y' → (y' ≤ x' ↔ x ≤ y)
  isFinite_eq : ∀ {x x' : α}, Opposite x x' → isFinite x' = isFinite x

/-- One step of the running mean. -/
def meanStep {α : Type} [Scalar α] : Nat × α → α → Nat × α
  | (count, m), x => (count + 1, m + (x - m) / ((count + 1 : Nat) : α))

namespace Scalar

variable {α : Type} [Scalar α] [Neg α] {x x' y y' : α}

theorem opposite_neg (x : α) : Opposite x (-x) :=
  same_self (-x)

theorem forall₂_map_neg (xs : List α) : List.Forall₂ Opposite xs (xs.map (-·)) := by
  induction xs with
  | nil => exact .nil
  | cons x xs ih => exact .cons (opposite_neg x) ih

variable [LawfulNeg α]

theorem isNumber_eq (h : Opposite x x') : isNumber x' = isNumber x :=
  decide_eq_decide.mpr (LawfulNeg.le_iff h h)

theorem opposite_sum {xs xs' : List α} (h : List.Forall₂ Opposite xs xs') :
    Opposite (sum xs) (sum xs') := by
  have run {total total' : α} (start : Opposite total total') :
      Opposite (xs.foldl (· + ·) total) (xs'.foldl (· + ·) total') := by
    induction h generalizing total total' with
    | nil => exact start
    | cons hx _ ih => exact ih (LawfulNeg.opposite_add start hx)
  exact run LawfulNeg.opposite_zero

theorem opposite_mean {xs xs' : List α} (h : List.Forall₂ Opposite xs xs') :
    Opposite (mean xs) (mean xs') := by
  have run (count : Nat) {m m' : α} (start : Opposite m m') :
      Opposite (xs.foldl meanStep (count, m)).2 (xs'.foldl meanStep (count, m')).2 := by
    induction h generalizing count m m' with
    | nil => exact start
    | cons hx _ ih =>
        exact ih (count + 1) (LawfulNeg.opposite_add start
          (LawfulNeg.opposite_div _ (LawfulNeg.opposite_sub hx start)))
  exact run 0 LawfulNeg.opposite_zero

/-- How far a price is from a reference does not depend on the sign of both. -/
theorem relativeDistance_eq {price price' reference reference' : α} (hp : Opposite price price')
    (hr : Opposite reference reference') :
    relativeDistance price' reference' = relativeDistance price reference := by
  rw [relativeDistance, LawfulNeg.abs_eq (LawfulNeg.opposite_sub hp hr), LawfulNeg.abs_eq hr,
    relativeDistance]

/-- A range with its ends turned around, which only may be told apart if they are in order. -/
theorem opposite_clamp [LawfulScalar α] {low low' high high' : α} (hl : Opposite low low')
    (hh : Opposite high high') (hx : Opposite x x') (upright : ¬ high < low) :
    Opposite (clamp low high x) (clamp high' low' x') := by
  unfold clamp
  by_cases below : x < low
  · have notAbove : ¬ high < x := fun above => upright (LawfulScalar.lt_trans above below)
    rw [if_pos below, if_neg (mt (LawfulNeg.lt_iff hh hx).mp notAbove),
      if_pos ((LawfulNeg.lt_iff hx hl).mpr below)]
    exact hl
  · by_cases above : high < x
    · rw [if_neg below, if_pos above, if_pos ((LawfulNeg.lt_iff hh hx).mpr above)]
      exact hh
    · rw [if_neg below, if_neg above, if_neg (mt (LawfulNeg.lt_iff hh hx).mp above),
        if_neg (mt (LawfulNeg.lt_iff hx hl).mp below)]
      exact hx

end Scalar

/-- Trends that rise as steeply as the others fall. -/
structure Trend.Mirrors {α : Type} [Scalar α] [Neg α] (line line' : Trend α) : Prop where
  slope : Opposite line.slope line'.slope
  intercept : Opposite line.intercept line'.intercept

/-- The same with an equally good fit. -/
structure Fit.Mirrors {α : Type} [Scalar α] [Neg α] (fit fit' : Fit α) : Prop where
  trend : fit.toTrend.Mirrors fit'.toTrend
  rSquared : fit'.rSquared = fit.rSquared

section Fit

variable {α : Type} [Scalar α] [Neg α] [LawfulNeg α]

theorem Trend.Mirrors.value {line line' : Trend α} (h : line.Mirrors line') (x : α) :
    Opposite (line.value x) (line'.value x) :=
  LawfulNeg.opposite_add (LawfulNeg.opposite_mul_left x h.slope) h.intercept

theorem Trend.Mirrors.atBar {line line' : Trend α} (h : line.Mirrors line') (i : Nat) :
    Opposite (line.atBar i) (line'.atBar i) :=
  h.value _

/-- Points at the same positions and at opposite heights. -/
def Upturned (points points' : List (α × α)) : Prop :=
  List.Forall₂ (fun p p' => p'.1 = p.1 ∧ Opposite p.2 p'.2) points points'

namespace Upturned

variable {points points' : List (α × α)} (h : Upturned points points')

include h

theorem deviations (meanX : α) {my my' : α} (mean : Opposite my my') :
    Upturned (points.map fun p => (p.1 - meanX, p.2 - my))
      (points'.map fun p => (p.1 - meanX, p.2 - my')) :=
  forall₂_map_map h fun _ _ ⟨same, turned⟩ => ⟨by rw [same], LawfulNeg.opposite_sub turned mean⟩

/-- The squares along either axis stay, the products turn around. -/
theorem products :
    (points'.map fun d => d.1 * d.1) = points.map (fun d => d.1 * d.1) ∧
      (points'.map fun d => d.2 * d.2) = points.map (fun d => d.2 * d.2) ∧
      List.Forall₂ Opposite (points.map fun d => d.1 * d.2) (points'.map fun d => d.1 * d.2) := by
  refine ⟨map_eq_of_forall₂ h fun d d' ⟨same, _⟩ => by rw [same],
    map_eq_of_forall₂ h fun d d' ⟨_, turned⟩ => LawfulNeg.square_eq turned,
    forall₂_map_map h fun d d' ⟨same, turned⟩ => ?_⟩
  exact same ▸ LawfulNeg.opposite_mul_right d'.1 turned

/-- A line turned upside down leaves the same squares. -/
theorem residuals {line line' : Trend α} (turned : line.Mirrors line') :
    (points'.map fun p => p.2 - line'.value p.1).map (fun r => r * r)
      = (points.map fun p => p.2 - line.value p.1).map fun r => r * r := by
  have left : List.Forall₂ Opposite (points.map fun p => p.2 - line.value p.1)
      (points'.map fun p => p.2 - line'.value p.1) :=
    forall₂_map_map h fun _ p' ⟨same, opposite⟩ =>
      same ▸ LawfulNeg.opposite_sub opposite (turned.value p'.1)
  exact map_eq_of_forall₂ left fun _ _ => LawfulNeg.square_eq

end Upturned

/-- The line of least squares through points turned upside down is the line turned upside down. -/
theorem Fit.ofPoints?_mirrors {points points' : List (α × α)} (h : Upturned points points') :
    Option.Rel Fit.Mirrors (Fit.ofPoints? points) (Fit.ofPoints? points') := by
  have xs : points'.map (·.1) = points.map (·.1) := map_eq_of_forall₂ h fun _ _ hp => hp.1
  have meanY : Opposite (mean (points.map (·.2))) (mean (points'.map (·.2))) :=
    opposite_mean (forall₂_map_map h fun _ _ hp => hp.2)
  unfold Fit.ofPoints?
  rw [h.length_eq, xs]
  generalize mean (points.map (·.1)) = meanX
  generalize mean (points.map (·.2)) = my at meanY ⊢
  generalize mean (points'.map (·.2)) = my' at meanY ⊢
  have moved := h.deviations meanX meanY
  dsimp only
  generalize (points.map fun p => (p.1 - meanX, p.2 - my)) = deviations at moved ⊢
  generalize (points'.map fun p => (p.1 - meanX, p.2 - my')) = deviations' at moved ⊢
  obtain ⟨sxx, syy, products⟩ := moved.products
  have sxy := opposite_sum products
  rw [sxx, syy]
  generalize Scalar.sum (deviations.map fun d => d.1 * d.1) = spread
  generalize Scalar.sum (deviations.map fun d => d.1 * d.2) = joint at sxy ⊢
  generalize Scalar.sum (deviations'.map fun d => d.1 * d.2) = joint' at sxy ⊢
  have slope : Opposite (joint / spread) (joint' / spread) := LawfulNeg.opposite_div spread sxy
  have line : Trend.Mirrors ⟨joint / spread, my - joint / spread * meanX⟩
      ⟨joint' / spread, my' - joint' / spread * meanX⟩ :=
    ⟨slope, LawfulNeg.opposite_sub meanY (LawfulNeg.opposite_mul_left meanX slope)⟩
  rw [h.residuals line]
  split_ifs
  · exact .none
  · exact .none
  · exact .some ⟨line, rfl⟩
  · exact .some ⟨line, rfl⟩

end Fit

end Trendline
