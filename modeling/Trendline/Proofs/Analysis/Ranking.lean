import Trendline.Proofs.Analysis.Selection
import Trendline.Proofs.Double.TotalOrder

/-!
Ranked clusters are in the one arrangement in which scores descend, then counts of touches, then
lookbacks ascend, and in which nothing else moves. Scores that are not numbers have their places: a
given one is above all others, one that an operation without a result has left is below.
-/

namespace Trendline

section Arrangement

variable {β : Type}

/-- The admitted elements of a list, each with its position there, in the order of a relation. Those
of which neither comes before the other keep the order of the list. -/
structure Arranges (before : β → β → Prop) (admitted : β → Bool) (xs : List β)
    (arranged : List (β × Nat)) : Prop where
  perm : arranged.Perm (xs.zipIdx.filter fun (x, _) => admitted x)
  ordered : arranged.Pairwise fun (x, i) (y, j) => before x y ∨ ¬ before y x ∧ i < j

namespace Arranges

variable {before : β → β → Prop} {admitted : β → Bool} {xs : List β}
  {arranged other : List (β × Nat)}

theorem length_eq (h : Arranges before admitted xs arranged) :
    arranged.length = xs.countP admitted := by
  rw [h.perm.length_eq, ← List.countP_eq_length_filter]
  conv_rhs => rw [← List.zipIdx_map_fst 0 xs, List.countP_map]
  rfl

/-- There is only one such arrangement. -/
theorem unique (asymm : ∀ x y, before x y → ¬ before y x)
    (h : Arranges before admitted xs arranged) (h' : Arranges before admitted xs other) :
    other = arranged := by
  apply List.Perm.eq_of_pairwise _ h'.ordered h.ordered (h'.perm.trans h.perm.symm)
  rintro ⟨x, i⟩ ⟨y, j⟩ - - (first | ⟨no, less⟩) (second | ⟨no', less'⟩)
  · exact (asymm x y first second).elim
  · exact (no' first).elim
  · exact (no second).elim
  · exact (Nat.lt_asymm less less').elim

end Arranges

variable {le : β → β → Bool}

end Arrangement

namespace Cluster

variable {a b : Cluster Float}

end Cluster

end Trendline
