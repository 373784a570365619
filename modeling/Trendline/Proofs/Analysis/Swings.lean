import Trendline.Pivot
import Trendline.Proofs.Analysis.Extremes
import Trendline.Proofs.Validity

/-!
Where swings stand. Every swing keeps `lookback` bars on either side and comes in the order of the
bars; its price lies strictly beyond all others of its window, so that a wider window has fewer
swings and they are the same.
-/

namespace Trendline

variable {α : Type} [Scalar α]

/-- A price lies further out on a side than another. -/
def Side.Beyond (side : Side) (x y : α) : Prop :=
  match side with
  | .high => y < x
  | .low => x < y

namespace Side

variable [LawfulScalar α] {side : Side} {price : α} {others : Array α}

theorem beyond_or {x z : α} (y : α) (finite : Scalar.isFinite y = true) (h : side.Beyond x z) :
    side.Beyond x y ∨ side.Beyond y z := by
  cases side with
  | high => exact (LawfulScalar.lt_or_lt y finite h).symm
  | low => exact LawfulScalar.lt_or_lt y finite h

/-- To exceed some prices is to lie beyond one of them that none of them lies beyond. -/
theorem exists_exceeds_iff (side : Side) (price : α) (nonempty : 0 < others.size)
    (finite : ∀ y ∈ others, Scalar.isFinite y = true) :
    ∃ best ∈ others, (∀ y ∈ others, ¬ side.Beyond y best) ∧
      (side.exceeds price others = true ↔ side.Beyond price best) := by
  have listed : others.toList ≠ [] := fun empty => by simp_all
  simp only [← Array.mem_toList_iff] at finite ⊢
  cases side with
  | high =>
      obtain ⟨best, found, mem, unbeaten⟩ := greatest?_spec listed finite
      refine ⟨best, mem, unbeaten, ?_⟩
      rw [exceeds, found, Option.any_some, decide_eq_true_iff]
      exact Iff.rfl
  | low =>
      obtain ⟨best, found, mem, unbeaten⟩ := least?_spec listed finite
      refine ⟨best, mem, unbeaten, ?_⟩
      rw [exceeds, found, Option.any_some, decide_eq_true_iff]
      exact Iff.rfl

theorem exceeds_iff (nonempty : 0 < others.size)
    (finite : ∀ y ∈ others, Scalar.isFinite y = true) :
    side.exceeds price others = true ↔ ∀ y ∈ others, side.Beyond price y := by
  obtain ⟨best, mem, unbeaten, exceeds⟩ := exists_exceeds_iff side price nonempty finite
  rw [exceeds]
  constructor
  · intro beyond y hy
    exact (beyond_or y (finite y hy) beyond).resolve_right (unbeaten y hy)
  · intro all
    exact all best mem

end Side

section Lists

variable {β γ : Type} {near : β → β → Bool}

theorem filterMap_sublist_filterMap {f g : β → Option γ} {xs : List β}
    (fewer : ∀ x ∈ xs, ∀ y, f x = some y → g x = some y) :
    (xs.filterMap f).Sublist (xs.filterMap g) := by
  induction xs with
  | nil => exact .slnil
  | cons x xs ih =>
      obtain ⟨first, later⟩ := List.forall_mem_cons.mp fewer
      cases found : f x with
      | none =>
          rw [List.filterMap_cons_none found]
          exact (ih later).trans ((List.sublist_cons_self x xs).filterMap g)
      | some y =>
          rw [List.filterMap_cons_some found, List.filterMap_cons_some (first y found)]
          exact (ih later).cons_cons y

theorem thinOut_sublist (taken xs : List β) : (thinOut near taken xs).Sublist xs := by
  fun_induction thinOut near taken xs with
  | case1 => exact .slnil
  | case2 taken q rest close ih => exact ih.cons q
  | case3 taken q rest clear ih => exact ih.cons_cons q

theorem thinOut_eq_self (never : ∀ q p, near q p = false) (taken xs : List β) :
    thinOut near taken xs = xs := by
  fun_induction thinOut near taken xs with
  | case1 => rfl
  | case2 taken q rest close ih => simp [never] at close
  | case3 taken q rest clear ih => rw [ih]

end Lists

/-- A swing of one side with its window inside the series. -/
structure Pivot.Stands (s : Series α) (lookback : Nat) (side : Side) (q : Pivot α) : Prop where
  side_eq : q.side = side
  before : lookback ≤ q.index
  after : q.index + lookback < s.size
  time_eq : s.times[q.index]? = some q.time

namespace Series

variable {s : Series α} {source : PivotSource} {options : PivotOptions α}
variable {lookback i : Nat} {side : Side} {q : Pivot α}

theorem swing?_eq_some_iff :
    s.swing? source lookback i side = some q ↔
      q.index = i ∧ q.side = side ∧ s.times[i]? = some q.time ∧
        (s.pivotPrices source side)[i]? = some q.price ∧
        side.exceeds q.price ((s.pivotPrices source side).extract (i - lookback) i) = true ∧
        side.exceeds q.price
          ((s.pivotPrices source side).extract (i + 1) (i + 1 + lookback)) = true := by
  obtain ⟨index, time, price, qside⟩ := q
  simp only [swing?, Option.bind_eq_bind, Option.bind_eq_some_iff, Option.pure_def,
    Option.ite_none_right_eq_some, Bool.and_eq_true, Option.some.injEq, Pivot.mk.injEq]
  constructor
  · rintro ⟨x, hx, t, ht, ⟨before, after⟩, rfl, rfl, rfl, rfl⟩
    exact ⟨rfl, rfl, ht, hx, before, after⟩
  · rintro ⟨rfl, rfl, ht, hx, before, after⟩
    exact ⟨price, hx, time, ht, ⟨before, after⟩, rfl, rfl, rfl, rfl⟩

/-- The swings of one side before any is thinned out. -/
def rawSwingsOn (s : Series α) (source : PivotSource) (lookback : Nat) (side : Side) :
    List (Pivot α) :=
  (List.range' lookback (s.size - 2 * lookback)).filterMap fun i => s.swing? source lookback i side

theorem filter_rawSwings (s : Series α) (source : PivotSource) (lookback : Nat) (side : Side) :
    (s.rawSwings source lookback).filter (·.side = side) = s.rawSwingsOn source lookback side := by
  rw [rawSwings, rawSwingsOn, List.filter_flatMap, List.filterMap_eq_flatMap_toList]
  congr 1
  funext i
  have own (d : Side) : ∀ q ∈ (s.swing? source lookback i d).toList, q.side = d := by
    intro q mem
    exact (swing?_eq_some_iff.mp (Option.mem_toList.mp mem)).2.1
  have both : [Side.high, Side.low].filterMap (s.swing? source lookback i)
      = (s.swing? source lookback i .high).toList ++ (s.swing? source lookback i .low).toList := by
    rw [List.filterMap_eq_flatMap_toList]
    simp
  rw [both, List.filter_append]
  cases side with
  | high =>
      rw [List.filter_eq_self.mpr fun q mem => decide_eq_true (own .high q mem),
        List.filter_eq_nil_iff.mpr fun q mem => by simp [own .low q mem], List.append_nil]
  | low =>
      rw [List.filter_eq_nil_iff.mpr fun q mem => by simp [own .high q mem],
        List.filter_eq_self.mpr fun q mem => decide_eq_true (own .low q mem), List.nil_append]

/-- The swings of one side that are taken. -/
def swingsOn (s : Series α) (lookback : Nat) (options : PivotOptions α) (side : Side) :
    List (Pivot α) :=
  (thinOut options.near [] (s.rawSwings options.source lookback)).filter (·.side = side)

theorem swings_eq_ok (positive : 0 < lookback) :
    s.swings lookback options
      = .ok ⟨s.swingsOn lookback options .high, s.swingsOn lookback options .low⟩ := by
  rw [swings, if_neg (by omega)]
  rfl

theorem swingsOn_sublist (s : Series α) (lookback : Nat) (options : PivotOptions α) (side : Side) :
    (s.swingsOn lookback options side).Sublist (s.rawSwingsOn options.source lookback side) := by
  rw [← filter_rawSwings]
  exact (thinOut_sublist _ _).filter _

theorem swingsOn_eq_rawSwingsOn (off : ¬ 0 < options.dedupe) :
    s.swingsOn lookback options side = s.rawSwingsOn options.source lookback side := by
  have never (later earlier : Pivot α) : options.near later earlier = false := by
    simp [PivotOptions.near, off]
  rw [swingsOn, thinOut_eq_self never, filter_rawSwings]

theorem mem_rawSwingsOn_iff :
    q ∈ s.rawSwingsOn source lookback side ↔
      lookback ≤ q.index ∧ q.index + lookback < s.size ∧
        s.swing? source lookback q.index side = some q := by
  simp only [rawSwingsOn, List.mem_filterMap, List.mem_range'_1]
  constructor
  · intro ⟨i, inside, found⟩
    have index : q.index = i := (swing?_eq_some_iff.mp found).1
    subst index
    exact ⟨inside.1, by omega, found⟩
  · intro ⟨before, after, found⟩
    exact ⟨q.index, by omega, found⟩

theorem stands_of_mem_swingsOn (mem : q ∈ s.swingsOn lookback options side) :
    q.Stands s lookback side := by
  have raw := (s.swingsOn_sublist lookback options side).subset mem
  obtain ⟨before, after, found⟩ := mem_rawSwingsOn_iff.mp raw
  obtain ⟨-, side_eq, time_eq, -⟩ := swing?_eq_some_iff.mp found
  exact ⟨side_eq, before, after, time_eq⟩

theorem rawSwingsOn_ascending (s : Series α) (source : PivotSource) (lookback : Nat) (side : Side) :
    (s.rawSwingsOn source lookback side).Pairwise (·.index < ·.index) := by
  have ascending : (List.range' lookback (s.size - 2 * lookback)).Pairwise (· < ·) :=
    List.pairwise_lt_range' 1
  apply ascending.filterMap
  intro i j less q hq r hr
  rwa [(swing?_eq_some_iff.mp hq).1, (swing?_eq_some_iff.mp hr).1]

theorem swingsOn_ascending (s : Series α) (lookback : Nat) (options : PivotOptions α)
    (side : Side) : (s.swingsOn lookback options side).Pairwise (·.index < ·.index) :=
  (s.rawSwingsOn_ascending options.source lookback side).sublist
    (s.swingsOn_sublist lookback options side)

section Nesting

variable [LawfulScalar α]

/-- Of a stretch of bars inside the series a price exceeds all that are there. -/
theorem exceeds_extract_iff (wf : s.WellFormed) {price : α} {start stop : Nat}
    (nonempty : start < stop) (inside : stop ≤ s.size) :
    side.exceeds price ((s.pivotPrices source side).extract start stop) = true ↔
      ∀ j y, start ≤ j → j < stop → (s.pivotPrices source side)[j]? = some y →
        side.Beyond price y := by
  have size := wf.pivotPrices_size source side
  rw [Side.exceeds_iff]
  · simp only [Array.mem_iff_getElem?, Array.getElem?_extract, size, Nat.min_eq_left inside]
    constructor
    · intro all j y low high found
      refine all y ⟨j - start, ?_⟩
      rw [if_pos (by omega), show start + (j - start) = j by omega, found]
    · intro all y ⟨j, found⟩
      by_cases h : j < stop - start
      · rw [if_pos h] at found
        exact all (start + j) y (by omega) (by omega) found
      · rw [if_neg h] at found
        cases found
  · rw [Array.size_extract, size]
    omega
  · intro y mem
    obtain ⟨k, h, rfl⟩ := Array.mem_extract_iff_getElem.mp mem
    exact wf.pivotPrices_finite source side (Array.getElem_mem _)

/-- A bar is a swing exactly if its price lies strictly beyond all others of its window. -/
theorem swing?_eq_some_iff_beyond (wf : s.WellFormed) (positive : 0 < lookback)
    (before : lookback ≤ i) (after : i + lookback < s.size) :
    s.swing? source lookback i side = some q ↔
      q.index = i ∧ q.side = side ∧ s.times[i]? = some q.time ∧
        (s.pivotPrices source side)[i]? = some q.price ∧
        ∀ j y, i ≤ j + lookback → j ≤ i + lookback → j ≠ i →
          (s.pivotPrices source side)[j]? = some y → side.Beyond q.price y := by
  rw [swing?_eq_some_iff, exceeds_extract_iff wf (by omega) (by omega),
    exceeds_extract_iff wf (by omega) (by omega)]
  refine and_congr_right' (and_congr_right' (and_congr_right' (and_congr_right' ?_)))
  constructor
  · intro ⟨left, right⟩ j y low high other found
    rcases Nat.lt_or_gt_of_ne other with less | greater
    · exact left j y (by omega) less found
    · exact right j y greater (by omega) found
  · intro all
    exact ⟨fun j y low high => all j y (by omega) (by omega) (by omega),
      fun j y low high => all j y (by omega) (by omega) (by omega)⟩

theorem swing?_of_wider (wf : s.WellFormed) {wide : Nat} (positive : 0 < lookback)
    (le : lookback ≤ wide) (before : wide ≤ i) (after : i + wide < s.size)
    (found : s.swing? source wide i side = some q) :
    s.swing? source lookback i side = some q := by
  rw [swing?_eq_some_iff_beyond wf (by omega) before after] at found
  rw [swing?_eq_some_iff_beyond wf positive (by omega) (by omega)]
  obtain ⟨index, side_eq, time, price, beyond⟩ := found
  exact ⟨index, side_eq, time, price,
    fun j y low high => beyond j y (by omega) (by omega)⟩

/-- A wider window has fewer swings, and they are the same. -/
theorem rawSwingsOn_sublist_of_le (wf : s.WellFormed) {wide : Nat} (positive : 0 < lookback)
    (le : lookback ≤ wide) :
    (s.rawSwingsOn source wide side).Sublist (s.rawSwingsOn source lookback side) := by
  have fewer : (s.rawSwingsOn source wide side).Sublist
      ((List.range' wide (s.size - 2 * wide)).filterMap
        fun i => s.swing? source lookback i side) := by
    apply filterMap_sublist_filterMap
    intro i mem q found
    rw [List.mem_range'_1] at mem
    exact swing?_of_wider wf positive le (by omega) (by omega) found
  refine fewer.trans (List.Sublist.filterMap _ ?_)
  by_cases short : s.size ≤ 2 * wide
  · rw [Nat.sub_eq_zero_of_le short]
    exact List.nil_sublist _
  · have split : List.range' lookback (s.size - 2 * lookback)
        = List.range' lookback (wide - lookback) ++
          (List.range' wide (s.size - 2 * wide) ++
            List.range' (s.size - wide) (wide - lookback)) := by
      have inner := @List.range'_append wide (s.size - 2 * wide) (wide - lookback) 1
      have outer := @List.range'_append lookback (wide - lookback)
        (s.size - 2 * wide + (wide - lookback)) 1
      rw [show wide + 1 * (s.size - 2 * wide) = s.size - wide by omega] at inner
      rw [show lookback + 1 * (wide - lookback) = wide by omega,
        show wide - lookback + (s.size - 2 * wide + (wide - lookback)) = s.size - 2 * lookback
          by omega] at outer
      rw [inner, outer]
    rw [split]
    exact (List.sublist_append_left _ _).trans (List.sublist_append_right _ _)

end Nesting

end Series

end Trendline
