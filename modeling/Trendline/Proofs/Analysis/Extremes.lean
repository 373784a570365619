import Mathlib.Data.List.Basic
import Trendline.Extremes
import Trendline.Proofs.Scalar.Lawful

/-!
The greatest and the least of a list of finite numbers: an element of the list, with none beyond it.
-/

namespace Trendline

variable {β : Type} {beats : β → β → Bool}

/-- The winner of a row of duels is the one that came first or beats it, and no later one beats the
winner. -/
theorem foldl_duel (irrefl : ∀ x, beats x x = false)
    (trans : ∀ {x y z}, beats x y = true → beats y z = true → beats x z = true)
    (x : β) (xs : List β) :
    let best := xs.foldl (fun best y => if beats y best then y else best) x
    best ∈ x :: xs ∧ (best = x ∨ beats best x = true) ∧ ∀ y ∈ xs, beats y best = false := by
  have asymm {y z : β} (h : beats y z = true) : beats z y = false := by
    by_contra both
    rw [Bool.not_eq_false] at both
    exact Bool.false_ne_true ((irrefl y).symm.trans (trans h both))
  intro best
  induction xs generalizing x with
  | nil => simp [best]
  | cons y xs ih =>
      by_cases won : beats y x = true
      · have start : best = xs.foldl (fun best y => if beats y best then y else best) y := by
          simp only [best, List.foldl_cons, if_pos won]
        obtain ⟨mem, later, rest⟩ := ih y
        rw [← start] at mem later rest
        have beatsFirst : beats best x = true := by
          rcases later with eq | later
          · rw [eq]
            exact won
          · exact trans later won
        refine ⟨List.mem_cons_of_mem _ mem, .inr beatsFirst, List.forall_mem_cons.mpr ⟨?_, rest⟩⟩
        rcases later with eq | later
        · rw [eq]
          exact irrefl y
        · exact asymm later
      · have start : best = xs.foldl (fun best y => if beats y best then y else best) x := by
          simp only [best, List.foldl_cons, if_neg won]
        obtain ⟨mem, later, rest⟩ := ih x
        rw [← start] at mem later rest
        refine ⟨?_, later, List.forall_mem_cons.mpr ⟨?_, rest⟩⟩
        · rcases List.mem_cons.mp mem with eq | mem
          · exact eq ▸ List.mem_cons_self
          · exact List.mem_cons_of_mem _ (List.mem_cons_of_mem _ mem)
        · rw [Bool.not_eq_true] at won
          rcases later with eq | later
          · rw [eq]
            exact won
          · by_contra beaten
            rw [Bool.not_eq_false] at beaten
            exact Bool.false_ne_true (won.symm.trans (trans beaten later))

variable {α : Type} [Scalar α]

omit [Scalar α] in
/-- Where all elements count, the foremost one is unbeaten. -/
theorem foremost?_spec {counts : α → Bool} (beats : α → α → Bool) {xs : List α}
    (irrefl : ∀ x, beats x x = false)
    (trans : ∀ {x y z}, beats x y = true → beats y z = true → beats x z = true)
    (nonempty : xs ≠ []) (all : ∀ x ∈ xs, counts x = true) :
    ∃ best, foremost? counts beats xs = some best ∧ best ∈ xs ∧ ∀ y ∈ xs, beats y best = false := by
  obtain ⟨x, rest, rfl⟩ := List.exists_cons_of_ne_nil nonempty
  obtain ⟨mem, first, later⟩ := foldl_duel irrefl trans x rest
  refine ⟨_, ?_, mem, List.forall_mem_cons.mpr ⟨?_, later⟩⟩
  · unfold foremost?
    rw [List.filter_eq_self.mpr all]
  · rcases first with eq | first
    · rw [eq]
      exact irrefl x
    · by_contra beaten
      rw [Bool.not_eq_false] at beaten
      exact Bool.false_ne_true ((irrefl x).symm.trans (trans beaten first))

omit [Scalar α] in
theorem foldl_unbeaten {beats : α → α → Bool} {x : α} {xs : List α}
    (unbeaten : ∀ y ∈ xs, beats y x = false) :
    xs.foldl (fun best y => if beats y best then y else best) x = x := by
  induction xs with
  | nil => rfl
  | cons y xs ih =>
      obtain ⟨first, later⟩ := List.forall_mem_cons.mp unbeaten
      rw [List.foldl_cons, first, if_neg Bool.false_ne_true]
      exact ih later

omit [Scalar α] in
/-- An element that no later one beats is the foremost. -/
theorem foremost?_cons {counts : α → Bool} {beats : α → α → Bool} {x : α} {xs : List α}
    (all : ∀ y ∈ x :: xs, counts y = true) (unbeaten : ∀ y ∈ xs, beats y x = false) :
    foremost? counts beats (x :: xs) = some x := by
  unfold foremost?
  rw [List.filter_eq_self.mpr all]
  exact congrArg some (foldl_unbeaten unbeaten)

omit [Scalar α] in
theorem exists_foremost? {counts : α → Bool} {beats : α → α → Bool} {xs : List α}
    (nonempty : xs ≠ []) : ∃ best, foremost? counts beats xs = some best := by
  unfold foremost?
  split
  · exact ⟨_, List.head?_eq_some_head nonempty⟩
  · exact ⟨_, rfl⟩

theorem exists_greatest? {xs : List α} (nonempty : xs ≠ []) : ∃ best, greatest? xs = some best :=
  exists_foremost? nonempty

theorem exists_least? {xs : List α} (nonempty : xs ≠ []) : ∃ best, least? xs = some best :=
  exists_foremost? nonempty

variable [LawfulScalar α]

theorem takesPart_of_isFinite {xs : List α} {isNear : α → Bool} {x : α}
    (finite : Scalar.isFinite x = true) : takesPart xs isNear x = true := by
  unfold takesPart
  split
  · exact Scalar.isNumber_of_isFinite finite
  · rw [finite, Bool.true_or]

theorem greatest?_spec {xs : List α} (nonempty : xs ≠ [])
    (finite : ∀ x ∈ xs, Scalar.isFinite x = true) :
    ∃ best, greatest? xs = some best ∧ best ∈ xs ∧ ∀ y ∈ xs, ¬ best < y := by
  have irrefl (x : α) : decide (x < x) = false := decide_eq_false (LawfulScalar.lt_irrefl x)
  have trans {x y z : α} (hxy : decide (y < x) = true) (hyz : decide (z < y) = true) :
      decide (z < x) = true :=
    decide_eq_true (LawfulScalar.lt_trans (of_decide_eq_true hyz) (of_decide_eq_true hxy))
  have all : ∀ x ∈ xs, takesPart xs (0 < ·) x = true := fun x hx =>
    takesPart_of_isFinite (finite x hx)
  obtain ⟨best, found, mem, unbeaten⟩ := foremost?_spec (fun x y => y < x) irrefl trans nonempty all
  exact ⟨best, found, mem, fun y hy => of_decide_eq_false (unbeaten y hy)⟩

theorem greatest?_cons {x : α} {xs : List α} (finite : ∀ y ∈ x :: xs, Scalar.isFinite y = true)
    (most : ∀ y ∈ xs, ¬ x < y) : greatest? (x :: xs) = some x :=
  foremost?_cons (fun y mem => takesPart_of_isFinite (finite y mem))
    fun y mem => decide_eq_false (most y mem)

theorem least?_spec {xs : List α} (nonempty : xs ≠ [])
    (finite : ∀ x ∈ xs, Scalar.isFinite x = true) :
    ∃ best, least? xs = some best ∧ best ∈ xs ∧ ∀ y ∈ xs, ¬ y < best := by
  have irrefl (x : α) : decide (x < x) = false := decide_eq_false (LawfulScalar.lt_irrefl x)
  have trans {x y z : α} (hxy : decide (x < y) = true) (hyz : decide (y < z) = true) :
      decide (x < z) = true :=
    decide_eq_true (LawfulScalar.lt_trans (of_decide_eq_true hxy) (of_decide_eq_true hyz))
  have all : ∀ x ∈ xs, takesPart xs (· < 0) x = true := fun x hx =>
    takesPart_of_isFinite (finite x hx)
  obtain ⟨best, found, mem, unbeaten⟩ := foremost?_spec (fun x y => x < y) irrefl trans nonempty all
  exact ⟨best, found, mem, fun y hy => of_decide_eq_false (unbeaten y hy)⟩

end Trendline
