import Mathlib.Data.Nat.Choose.Basic
import Trendline.Proofs.Analysis.Windows

/-!
How close swings of one side stand. Of two bars in one window at most one exceeds the other, so two
swings keep more than a window's width apart; hence there are few of them, and few pairs to draw
lines through.
-/

namespace Trendline

section Lists

variable {β : Type}

/-- Positions with a gap between any two take that much room. -/
theorem length_mul_le_of_spaced {positions : List Nat} {start stop gap : Nat}
    (spaced : positions.Pairwise fun i j => i + gap < j)
    (inside : ∀ i ∈ positions, start ≤ i ∧ i < stop) (room : start ≤ stop + gap) :
    start + positions.length * (gap + 1) ≤ stop + gap := by
  induction positions generalizing start with
  | nil => simpa using room
  | cons i rest ih =>
      obtain ⟨first, spaced⟩ := List.pairwise_cons.mp spaced
      obtain ⟨⟨low, high⟩, inside⟩ := List.forall_mem_cons.mp inside
      have later : ∀ j ∈ rest, i + gap + 1 ≤ j ∧ j < stop := fun j mem =>
        ⟨first j mem, (inside j mem).2⟩
      have counted := ih spaced later (by omega)
      rw [List.length_cons, Nat.succ_mul]
      omega

theorem length_pairs (xs : List β) : (pairs xs).length = xs.length.choose 2 := by
  induction xs with
  | nil => rfl
  | cons x xs ih =>
      rw [pairs, List.length_append, List.length_map, ih, List.length_cons,
        Nat.choose_succ_succ, Nat.choose_one_right]

/-- As many pairs as elements that take room leave. -/
theorem length_pairs_mul_le {xs : List β} {width room : Nat} (fits : xs.length * width ≤ room) :
    2 * (pairs xs).length * width ^ 2 ≤ room * (room - width) := by
  have twice : 2 * (pairs xs).length = xs.length * (xs.length - 1) := by
    rw [length_pairs, Nat.choose_two_right, Nat.mul_comm, Nat.div_mul_cancel]
    exact (Nat.even_mul_pred_self _).two_dvd
  calc 2 * (pairs xs).length * width ^ 2
      = xs.length * width * (xs.length * width - width) := by
        rw [twice, ← Nat.sub_one_mul]
        ring
    _ ≤ room * (room - width) := Nat.mul_le_mul fits (Nat.sub_le_sub_right fits width)

end Lists

variable {α : Type}

/-- The swings of one side. -/
def Swings.on (swings : Swings α) (side : Side) : List (Pivot α) :=
  match side with
  | .high => swings.highs
  | .low => swings.lows

variable [Scalar α]

theorem PairOptions.length_lines_le (options : PairOptions) (lookback : Nat)
    (swings : List (Pivot α)) : (options.lines lookback swings).length ≤ (pairs swings).length :=
  (List.length_filterMap_le _ _).trans (List.length_filter_le _ _)

namespace Series

variable {s : Series α} {source : PivotSource} {lookback : Nat} {side : Side}
variable [LawfulScalar α]

/-- Two extremes are not in each other's windows. -/
theorem IsExtreme.spaced {i j : Nat} (hi : s.IsExtreme source lookback side i)
    (hj : s.IsExtreme source lookback side j) (less : i < j) : i + lookback < j := by
  by_contra near
  have beyond := hi.beyond j (by omega) (by omega) (by omega)
  have beaten := hj.beyond i (by omega) (by omega) (by omega)
  cases side with
  | high | low => exact LawfulScalar.lt_irrefl _ (LawfulScalar.lt_trans beyond beaten)

theorem rawSwingsOn_spaced (wf : s.WellFormed) (positive : 0 < lookback) (source : PivotSource)
    (side : Side) :
    (s.rawSwingsOn source lookback side).Pairwise fun p q => p.index + lookback < q.index := by
  have lists := listsExtremes_rawSwingsOn wf positive source side
  have extreme {q : Pivot α} (mem : q ∈ s.rawSwingsOn source lookback side) :=
    (lists.mem_iff q.index).mp (List.mem_map_of_mem mem)
  exact lists.ascending.imp_of_mem fun hp hq less => (extreme hp).spaced (extreme hq) less

variable {options : PivotOptions α}

theorem swingsOn_spaced (wf : s.WellFormed) (positive : 0 < lookback) (options : PivotOptions α)
    (side : Side) :
    (s.swingsOn lookback options side).Pairwise fun p q => p.index + lookback < q.index :=
  (rawSwingsOn_spaced wf positive options.source side).sublist
    (s.swingsOn_sublist lookback options side)

/-- So the series limits how many there are. -/
theorem length_swingsOn_mul_le (wf : s.WellFormed) (positive : 0 < lookback)
    (options : PivotOptions α) (side : Side)
    (some : 1 ≤ (s.swingsOn lookback options side).length) :
    (s.swingsOn lookback options side).length * (lookback + 1) ≤ s.size - lookback := by
  have stands {q : Pivot α} (mem : q ∈ s.swingsOn lookback options side) :=
    stands_of_mem_swingsOn mem
  obtain ⟨q, mem⟩ := List.exists_mem_of_length_pos some
  have before := (stands mem).before
  have after := (stands mem).after
  have spaced : ((s.swingsOn lookback options side).map (·.index)).Pairwise
      fun i j => i + lookback < j :=
    List.pairwise_map.mpr (swingsOn_spaced wf positive options side)
  have inside : ∀ i ∈ (s.swingsOn lookback options side).map (·.index),
      lookback ≤ i ∧ i < s.size - lookback := by
    intro i listed
    obtain ⟨r, mem, rfl⟩ := List.mem_map.mp listed
    have before := (stands mem).before
    have after := (stands mem).after
    omega
  have counted := length_mul_le_of_spaced spaced inside (by omega)
  rw [List.length_map] at counted
  omega

omit [LawfulScalar α] in
theorem exists_swings_eq_ok (s : Series α) (options : PivotOptions α) (positive : 0 < lookback) :
    ∃ swings, s.swings lookback options = .ok swings ∧
      ∀ side, swings.on side = s.swingsOn lookback options side :=
  ⟨_, swings_eq_ok positive, fun side => by cases side <;> rfl⟩

end Series

/-- Two swings of one side are more than `lookback` bars apart, which bounds their number and that
of the lines through them; and where nothing is thinned out, wider windows have fewer of the same
swings. -/
theorem swings_sparse {s : Series Float} {lookback : Nat} {options : PivotOptions Float}
    (valid : s.validate = .ok ()) (positive : 1 ≤ lookback) :
    ∃ swings, s.swings lookback options = .ok swings ∧
      (∀ side,
        (swings.on side).Pairwise (fun p q => p.index + lookback < q.index) ∧
        (1 ≤ (swings.on side).length →
          (swings.on side).length * (lookback + 1) ≤ s.size - lookback) ∧
        2 * (pairs (swings.on side)).length * (lookback + 1) ^ 2
          ≤ (s.size - lookback) * (s.size - lookback - (lookback + 1)) ∧
        ∀ pairing : PairOptions, (pairing.lines lookback (swings.on side)).length
          ≤ (pairs (swings.on side)).length) ∧
      (¬ 0 < options.dedupe → ∀ wide, lookback ≤ wide →
        ∃ fewer, s.swings wide options = .ok fewer ∧
          ∀ side, (fewer.on side).Sublist (swings.on side)) := by
  have wf := Series.validate_eq_ok_iff.mp valid
  obtain ⟨swings, found, on⟩ := s.exists_swings_eq_ok options positive
  refine ⟨swings, found, fun side => ?_, fun off wide le => ?_⟩
  · rw [on]
    have few := Series.length_swingsOn_mul_le wf positive options side
    refine ⟨Series.swingsOn_spaced wf positive options side, few, ?_, fun pairing =>
      pairing.length_lines_le lookback _⟩
    apply length_pairs_mul_le
    rcases Nat.eq_zero_or_pos (s.swingsOn lookback options side).length with none | some
    · rw [none, Nat.zero_mul]
      exact Nat.zero_le _
    · exact few some
  · obtain ⟨fewer, found, onFewer⟩ := s.exists_swings_eq_ok options (positive.trans le)
    refine ⟨fewer, found, fun side => ?_⟩
    rw [onFewer, on, Series.swingsOn_eq_rawSwingsOn off, Series.swingsOn_eq_rawSwingsOn off]
    exact Series.rawSwingsOn_sublist_of_le wf positive le

/-- The tops of a zigzag are four bars apart; with three bars to either side of the window only the
bottom between them is left. -/
theorem swings_sparse_zigzag :
    (zigzag.validate = .ok () ∧ 1 ≤ 1 ∧ ¬ 0 < everySwing.dedupe) ∧
    ((zigzag.swings 1 everySwing).toOption.map
        (fun swings => (swings.highs.map (·.index), swings.lows.map (·.index)))
          = some ([2, 6], [4]) ∧
      (zigzag.swings 3 everySwing).toOption.map
        (fun swings => (swings.highs.map (·.index), swings.lows.map (·.index)))
          = some ([], [4])) ∧
    ∃ swings, zigzag.swings 1 everySwing = .ok swings ∧
      (∀ side,
        (swings.on side).Pairwise (fun p q => p.index + 1 < q.index) ∧
        (1 ≤ (swings.on side).length → (swings.on side).length * (1 + 1) ≤ zigzag.size - 1) ∧
        2 * (pairs (swings.on side)).length * (1 + 1) ^ 2
          ≤ (zigzag.size - 1) * (zigzag.size - 1 - (1 + 1)) ∧
        ∀ pairing : PairOptions, (pairing.lines 1 (swings.on side)).length
          ≤ (pairs (swings.on side)).length) ∧
      (¬ 0 < everySwing.dedupe → ∀ wide, 1 ≤ wide →
        ∃ fewer, zigzag.swings wide everySwing = .ok fewer ∧
          ∀ side, (fewer.on side).Sublist (swings.on side)) :=
  ⟨by decide +kernel, by decide +kernel, swings_sparse (by decide +kernel) (by decide)⟩

end Trendline
