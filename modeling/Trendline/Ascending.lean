/-!
Finite sets as ascending lists. Two sets with the same elements are equal.
-/
namespace Trendline

/-- A finite set, listed in ascending order. -/
structure Ascending (κ : Type) [LT κ] where
  toList : List κ
  ascending : toList.Pairwise (· < ·)
  deriving Repr, DecidableEq

namespace Ascending

variable {κ : Type} [LT κ] [DecidableLT κ]

/-- Merges two ascending lists and keeps one of two equal elements. -/
@[specialize]
def merge : List κ → List κ → List κ
  | [], ys => ys
  | x :: xs, [] => x :: xs
  | x :: xs, y :: ys =>
      if x < y then x :: merge xs (y :: ys)
      else if y < x then y :: merge (x :: xs) ys
      else x :: merge xs ys
termination_by xs ys => xs.length + ys.length

def empty : Ascending κ :=
  ⟨[], .nil⟩

def singleton (x : κ) : Ascending κ :=
  ⟨[x], List.pairwise_singleton _ x⟩

/-- The count of elements. -/
@[inline]
def size (s : Ascending κ) : Nat :=
  s.toList.length

def least? (s : Ascending κ) : Option κ :=
  s.toList.head?

def greatest? (s : Ascending κ) : Option κ :=
  s.toList.getLast?

instance : Membership κ (Ascending κ) where
  mem s x := x ∈ s.toList

variable [LE κ] [Std.IsLinearOrder κ] [Std.LawfulOrderLT κ]

theorem mem_merge {z : κ} {xs ys : List κ} : z ∈ merge xs ys ↔ z ∈ xs ∨ z ∈ ys := by
  fun_induction merge xs ys with
  | case1 => simp
  | case2 => simp
  | case3 x xs y ys _ ih => simp [ih, or_assoc]
  | case4 x xs y ys _ _ ih =>
      simp only [List.mem_cons, ih]
      grind
  | case5 x xs y ys hxy hyx ih =>
      have : x = y := Std.le_antisymm (Std.not_lt.1 hyx) (Std.not_lt.1 hxy)
      simp only [List.mem_cons, ih]
      grind

theorem pairwise_merge {xs ys : List κ} (hx : xs.Pairwise (· < ·)) (hy : ys.Pairwise (· < ·)) :
    (merge xs ys).Pairwise (· < ·) := by
  fun_induction merge xs ys with
  | case1 => exact hy
  | case2 => exact hx
  | case3 x xs y ys h ih =>
      refine List.pairwise_cons.2 ⟨fun z hz => ?_, ih hx.of_cons hy⟩
      rcases mem_merge.1 hz with hz | hz
      · exact List.rel_of_pairwise_cons hx hz
      · rcases List.mem_cons.1 hz with rfl | hz
        · exact h
        · exact Std.lt_trans h (List.rel_of_pairwise_cons hy hz)
  | case4 x xs y ys _ h ih =>
      refine List.pairwise_cons.2 ⟨fun z hz => ?_, ih hx hy.of_cons⟩
      rcases mem_merge.1 hz with hz | hz
      · rcases List.mem_cons.1 hz with rfl | hz
        · exact h
        · exact Std.lt_trans h (List.rel_of_pairwise_cons hx hz)
      · exact List.rel_of_pairwise_cons hy hz
  | case5 x xs y ys hxy hyx ih =>
      have : x = y := Std.le_antisymm (Std.not_lt.1 hyx) (Std.not_lt.1 hxy)
      refine List.pairwise_cons.2 ⟨fun z hz => ?_, ih hx.of_cons hy.of_cons⟩
      rcases mem_merge.1 hz with hz | hz
      · exact List.rel_of_pairwise_cons hx hz
      · exact this ▸ List.rel_of_pairwise_cons hy hz

def union (s t : Ascending κ) : Ascending κ :=
  ⟨merge s.toList t.toList, pairwise_merge s.ascending t.ascending⟩

/-- The set of the elements of a list. -/
def ofList (xs : List κ) : Ascending κ :=
  xs.foldr (fun x s => (singleton x).union s) empty

theorem mem_union {x : κ} {s t : Ascending κ} : x ∈ s.union t ↔ x ∈ s ∨ x ∈ t :=
  mem_merge

theorem mem_ofList {x : κ} {xs : List κ} : x ∈ ofList xs ↔ x ∈ xs := by
  induction xs with
  | nil => exact Iff.rfl
  | cons y ys ih =>
      rw [show ofList (y :: ys) = (singleton y).union (ofList ys) from rfl, mem_union, ih,
        List.mem_cons]
      exact or_congr List.mem_singleton Iff.rfl

omit [DecidableLT κ] in
theorem ext_mem {s t : Ascending κ} (h : ∀ x, x ∈ s ↔ x ∈ t) : s = t := by
  obtain ⟨xs, hx⟩ := s
  obtain ⟨ys, hy⟩ := t
  have distinct {zs : List κ} (hz : zs.Pairwise (· < ·)) : zs.Nodup :=
    hz.imp fun {a b} (lt : a < b) (eq : a = b) => Std.lt_irrefl (eq ▸ lt)
  have perm : xs.Perm ys := (List.perm_ext_iff_of_nodup (distinct hx) (distinct hy)).mpr h
  have same : xs = ys :=
    List.Perm.eq_of_pairwise
      (fun a b _ _ lt gt => (Std.lt_irrefl (Std.lt_trans lt gt)).elim) hx hy perm
  simp only [same]

omit [DecidableLT κ] in
/-- What comes before an element of an ascending list is what is less than it. -/
theorem mem_before_iff {x y : κ} {before later : List κ}
    (h : (before ++ x :: later).Pairwise (· < ·)) (mem : y ∈ before ++ x :: later) :
    y ∈ before ↔ y < x := by
  obtain ⟨-, after, less⟩ := List.pairwise_append.mp h
  constructor
  · intro hy
    exact less y hy x List.mem_cons_self
  · intro lt
    rcases List.mem_append.mp mem with hy | hy
    · exact hy
    · rcases List.mem_cons.mp hy with rfl | hy
      · exact (Std.lt_irrefl lt).elim
      · exact (Std.lt_irrefl (Std.lt_trans lt (List.rel_of_pairwise_cons after hy))).elim

end Ascending

end Trendline
