import Mathlib.Data.List.Sublists
import Trendline.Ascending

/-!
The ends and the sizes of finite sets, and what becomes of them under a map.
-/

namespace Trendline

namespace Ascending

variable {κ : Type} [LT κ] [LE κ] [Std.IsLinearOrder κ] [Std.LawfulOrderLT κ]
variable {s t : Ascending κ} {x : κ}

omit [Std.IsLinearOrder κ] in
theorem nodup (s : Ascending κ) : s.toList.Nodup :=
  s.ascending.imp fun {a b} (lt : a < b) (eq : a = b) => Std.lt_irrefl (eq ▸ lt)

omit [Std.IsLinearOrder κ] in
/-- A set has at most as many elements as one that contains it. -/
theorem size_le_size (sub : ∀ x ∈ s, x ∈ t) : s.size ≤ t.size :=
  (s.nodup.subperm fun _ mem => sub _ mem).length_le

theorem least?_eq_some_iff : s.least? = some x ↔ x ∈ s ∧ ∀ y ∈ s, x ≤ y := by
  obtain ⟨xs, ascending⟩ := s
  change xs.head? = some x ↔ x ∈ xs ∧ ∀ y ∈ xs, x ≤ y
  cases xs with
  | nil => simp
  | cons z zs =>
      have first : ∀ y ∈ z :: zs, z ≤ y := List.forall_mem_cons.mpr
        ⟨Std.le_refl z, fun y mem => Std.le_of_lt (List.rel_of_pairwise_cons ascending mem)⟩
      rw [List.head?_cons, Option.some.injEq]
      constructor
      · intro eq
        exact eq ▸ ⟨List.mem_cons_self, first⟩
      · intro ⟨mem, least⟩
        exact Std.le_antisymm (first x mem) (least z List.mem_cons_self)

theorem greatest?_eq_some_iff : s.greatest? = some x ↔ x ∈ s ∧ ∀ y ∈ s, y ≤ x := by
  obtain ⟨xs, ascending⟩ := s
  change xs.getLast? = some x ↔ x ∈ xs ∧ ∀ y ∈ xs, y ≤ x
  obtain rfl | ⟨zs, z, rfl⟩ := List.eq_nil_or_concat' xs
  · simp
  · have last : ∀ y ∈ zs ++ [z], y ≤ z := by
      intro y mem
      rcases List.mem_append.mp mem with mem | mem
      · have before := (List.pairwise_append.mp ascending).2.2 y mem
        exact Std.le_of_lt (before z (List.mem_singleton_self z))
      · exact List.mem_singleton.mp mem ▸ Std.le_refl z
    have own : z ∈ zs ++ [z] := List.mem_append_right _ (List.mem_singleton_self z)
    rw [List.getLast?_concat, Option.some.injEq]
    constructor
    · intro eq
      exact eq ▸ ⟨own, last⟩
    · intro ⟨mem, greatest⟩
      exact Std.le_antisymm (greatest z own) (last x mem)

omit [LE κ] [Std.IsLinearOrder κ] [Std.LawfulOrderLT κ] in
theorem exists_ends (nonempty : 0 < s.size) :
    ∃ first last, s.least? = some first ∧ s.greatest? = some last := by
  obtain ⟨xs, ascending⟩ := s
  change 0 < xs.length at nonempty
  have listed : xs ≠ [] := List.ne_nil_of_length_pos nonempty
  exact ⟨_, _, List.head?_eq_some_head listed, List.getLast?_eq_some_getLast listed⟩

section Image

variable [DecidableLT κ] {f : κ → κ} {y : κ}

/-- The set of the values of a map. -/
def image (f : κ → κ) (s : Ascending κ) : Ascending κ :=
  .ofList (s.toList.map f)

theorem mem_image : y ∈ s.image f ↔ ∃ x ∈ s, f x = y := by
  rw [image, mem_ofList, List.mem_map]
  exact Iff.rfl

theorem image_ofList (f : κ → κ) (xs : List κ) : (ofList xs).image f = ofList (xs.map f) := by
  apply ext_mem
  intro y
  rw [mem_image, mem_ofList, List.mem_map]
  simp only [mem_ofList]

/-- Where a map keeps the order of the elements, their values come in the order of the elements. -/
theorem toList_image (mono : ∀ x ∈ s, ∀ y ∈ s, x < y → f x < f y) :
    (s.image f).toList = s.toList.map f := by
  have ascending : (s.toList.map f).Pairwise (· < ·) := by
    rw [List.pairwise_map]
    exact s.ascending.imp_of_mem fun {x y} hx hy less => mono x hx y hy less
  have same : s.image f = ⟨s.toList.map f, ascending⟩ := ext_mem fun _ => mem_ofList
  rw [same]

theorem size_image (mono : ∀ x ∈ s, ∀ y ∈ s, x < y → f x < f y) : (s.image f).size = s.size := by
  rw [size, toList_image mono, List.length_map, size]

theorem least?_image (mono : ∀ x ∈ s, ∀ y ∈ s, x < y → f x < f y) :
    (s.image f).least? = s.least?.map f := by
  rw [least?, toList_image mono, List.head?_map, least?]

theorem greatest?_image (mono : ∀ x ∈ s, ∀ y ∈ s, x < y → f x < f y) :
    (s.image f).greatest? = s.greatest?.map f := by
  rw [greatest?, toList_image mono, List.getLast?_map, greatest?]

end Image

end Ascending

end Trendline
