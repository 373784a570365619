import Trendline.Proofs.Analysis.Swings
import Trendline.Proofs.Double.Distance

/-!
The swings that are left when some are thinned out. They are chosen greedily in the order of time,
and two conditions leave no other choice: none that is taken is near one taken before, and whatever
is passed over is.
-/

namespace Trendline

section Lists

variable {β : Type} {precedes : β → β → Prop} {near : β → β → Bool} {taken xs ys : List β}

/-- A choice from a list, after some elements are taken already: none is near one taken before it,
and each that is passed over is. -/
structure Thins (precedes : β → β → Prop) (near : β → β → Bool) (taken xs ys : List β) : Prop where
  sublist : ys.Sublist xs
  apart : ys.Pairwise fun p q => near q p = false
  clear : ∀ q ∈ ys, ∀ p ∈ taken, near q p = false
  passed : ∀ q ∈ xs, q ∉ ys → ∃ p, (p ∈ taken ∨ p ∈ ys ∧ precedes p q) ∧ near q p = true

theorem thins_thinOut (ordered : xs.Pairwise precedes) :
    Thins precedes near taken xs (thinOut near taken xs) := by
  fun_induction thinOut near taken xs with
  | case1 taken => exact ⟨.slnil, .nil, by simp, by simp⟩
  | case2 taken q rest close ih =>
      obtain ⟨p, mem, close⟩ := List.any_eq_true.mp close
      have rest := ih (List.pairwise_cons.mp ordered).2
      refine ⟨rest.sublist.cons q, rest.apart, rest.clear,
        List.forall_mem_cons.mpr ⟨fun _ => ⟨p, .inl mem, close⟩, rest.passed⟩⟩
  | case3 taken q rest clear ih =>
      obtain ⟨first, ordered⟩ := List.pairwise_cons.mp ordered
      have rest := ih ordered
      refine ⟨rest.sublist.cons_cons q, List.pairwise_cons.mpr ⟨?_, rest.apart⟩,
        List.forall_mem_cons.mpr ⟨?_, ?_⟩, List.forall_mem_cons.mpr ⟨?_, ?_⟩⟩
      · exact fun r mem => rest.clear r mem q List.mem_cons_self
      · simpa using clear
      · exact fun r mem p listed => rest.clear r mem p (List.mem_cons_of_mem q listed)
      · exact fun missing => (missing List.mem_cons_self).elim
      · intro r mem missing
        obtain ⟨p, before, close⟩ := rest.passed r mem (mt (List.mem_cons_of_mem q) missing)
        refine ⟨p, ?_, close⟩
        rcases before with listed | ⟨later, before⟩
        · rcases List.mem_cons.mp listed with rfl | listed
          · exact .inr ⟨List.mem_cons_self, first r mem⟩
          · exact .inl listed
        · exact .inr ⟨List.mem_cons_of_mem q later, before⟩

/-- There is no other such choice. -/
theorem Thins.eq_thinOut (asymm : ∀ p q, precedes p q → ¬ precedes q p)
    (ordered : xs.Pairwise precedes) (h : Thins precedes near taken xs ys) :
    ys = thinOut near taken xs := by
  fun_induction thinOut near taken xs generalizing ys with
  | case1 taken => exact List.sublist_nil.mp h.sublist
  | case2 taken q rest close ih =>
      obtain ⟨p, mem, close⟩ := List.any_eq_true.mp close
      have missing : q ∉ ys := fun listed => by simp [h.clear q listed p mem] at close
      have within : ys.Sublist rest := by
        rcases List.sublist_cons_iff.mp h.sublist with within | ⟨zs, rfl, -⟩
        · exact within
        · exact (missing List.mem_cons_self).elim
      exact ih (List.pairwise_cons.mp ordered).2
        ⟨within, h.apart, h.clear, fun r mem => h.passed r (List.mem_cons_of_mem q mem)⟩
  | case3 taken q rest clear ih =>
      obtain ⟨first, ordered⟩ := List.pairwise_cons.mp ordered
      rw [List.any_eq_true, not_exists] at clear
      -- Nothing of the list comes before its head, so the head is not passed over.
      have unpreceded : ∀ p ∈ q :: rest, ¬ precedes p q := by
        intro p mem before
        rcases List.mem_cons.mp mem with rfl | later
        · exact asymm p p before before
        · exact asymm q p (first p later) before
      have listed : q ∈ ys := by
        by_contra missing
        obtain ⟨p, listed | ⟨listed, before⟩, close⟩ := h.passed q List.mem_cons_self missing
        · exact clear p ⟨listed, close⟩
        · exact unpreceded p (h.sublist.subset listed) before
      have outside : q ∉ rest := fun mem => unpreceded q List.mem_cons_self (first q mem)
      obtain ⟨zs, rfl, within⟩ := (List.sublist_cons_iff.mp h.sublist).resolve_left
        fun within => outside (within.subset listed)
      obtain ⟨near, apart⟩ := List.pairwise_cons.mp h.apart
      rw [ih ordered ⟨within, apart, ?_, ?_⟩]
      · intro r mem
        exact List.forall_mem_cons.mpr ⟨near r mem, h.clear r (List.mem_cons_of_mem q mem)⟩
      · intro r mem missing
        have other : r ∉ q :: zs := by
          rintro (_ | ⟨_, listed⟩)
          · exact outside mem
          · exact missing listed
        obtain ⟨p, before, close⟩ := h.passed r (List.mem_cons_of_mem q mem) other
        refine ⟨p, ?_, close⟩
        rcases before with listed | ⟨listed, before⟩
        · exact .inl (List.mem_cons_of_mem q listed)
        · rcases List.mem_cons.mp listed with rfl | later
          · exact .inl List.mem_cons_self
          · exact .inr ⟨later, before⟩

end Lists

section Order

variable {α : Type}

/-- One swing comes before another: on an earlier bar, or as the high of the same bar as a low. -/
def Pivot.Precedes (p q : Pivot α) : Prop :=
  p.index < q.index ∨ p.index = q.index ∧ p.side = .high ∧ q.side = .low

theorem Pivot.Precedes.asymm (p q : Pivot α) (h : p.Precedes q) : ¬ q.Precedes p := by
  intro reverse
  rcases h with less | ⟨same, high, -⟩ <;> rcases reverse with greater | ⟨same', -, low⟩
  · omega
  · omega
  · omega
  · rw [high] at low
    cases low

/-- The swings of both sides in one row, in the order of the bars. -/
structure Swings.InOrder (swings : Swings α) (row : List (Pivot α)) : Prop where
  ordered : row.Pairwise Pivot.Precedes
  highs_eq : swings.highs = row.filter (·.side = .high)
  lows_eq : swings.lows = row.filter (·.side = .low)

theorem Swings.InOrder.mem_iff {swings : Swings α} {row : List (Pivot α)} (h : swings.InOrder row)
    (q : Pivot α) : q ∈ row ↔ q ∈ swings.highs ∨ q ∈ swings.lows := by
  rw [h.highs_eq, h.lows_eq, List.mem_filter, List.mem_filter]
  cases side : q.side with
  | high | low => simp

/-- There is one such row. -/
theorem Swings.InOrder.unique {swings : Swings α} {row other : List (Pivot α)}
    (h : swings.InOrder row) (h' : swings.InOrder other) : row = other := by
  have : Std.Irrefl (@Pivot.Precedes α) := ⟨fun q less => less.asymm q q less⟩
  have : Std.Antisymm (@Pivot.Precedes α) :=
    ⟨fun p q less greater => (less.asymm p q greater).elim⟩
  exact h.ordered.eq_of_mem_iff h'.ordered fun q => (h.mem_iff q).trans (h'.mem_iff q).symm

end Order

section Selection

variable {α : Type} [Scalar α]

/-- A choice of swings, each at least so far from all that are taken before it, where each that is
passed over is nearer to one of them. -/
structure Selects (dedupe : α) (row taken : List (Pivot α)) : Prop where
  sublist : taken.Sublist row
  apart : taken.Pairwise fun p q => dedupe ≤ Scalar.relativeDistance q.price p.price
  passed : ∀ q ∈ row, q ∉ taken → ∃ p ∈ taken,
    p.Precedes q ∧ Scalar.relativeDistance q.price p.price < dedupe

theorem PivotOptions.near_iff {options : PivotOptions α} (on : 0 < options.dedupe)
    (later earlier : Pivot α) : options.near later earlier = true ↔
      Scalar.relativeDistance later.price earlier.price < options.dedupe := by
  simp [near, on]

/-- Among swings with finite prices the choice is the one that thins them out. -/
theorem selects_iff_thins {options : PivotOptions Float} {row taken : List (Pivot Float)}
    (on : 0 < options.dedupe) (finite : ∀ q ∈ row, q.price.isFinite = true) :
    Selects options.dedupe row taken ↔ Thins Pivot.Precedes options.near [] row taken := by
  have number := Double.isNumber_of_lt on
  have apart (within : taken.Sublist row) :
      taken.Pairwise (fun p q => options.dedupe ≤ Scalar.relativeDistance q.price p.price) ↔
        taken.Pairwise fun p q => options.near q p = false := by
    apply List.Pairwise.iff_of_mem
    intro p q hp hq
    rw [← Bool.not_eq_true, PivotOptions.near_iff on]
    exact Double.le_relativeDistance_iff number (finite q (within.subset hq))
      (finite p (within.subset hp))
  have passed (q : Pivot Float) :
      (∃ p ∈ taken, p.Precedes q ∧ Scalar.relativeDistance q.price p.price < options.dedupe) ↔
        ∃ p, (p ∈ [] ∨ p ∈ taken ∧ p.Precedes q) ∧ options.near q p = true := by
    simp only [PivotOptions.near_iff on, List.not_mem_nil, false_or, and_assoc]
  constructor
  · intro h
    exact ⟨h.sublist, (apart h.sublist).mp h.apart, fun _ _ _ => by simp,
      fun q mem missing => (passed q).mp (h.passed q mem missing)⟩
  · intro h
    exact ⟨h.sublist, (apart h.sublist).mpr h.apart,
      fun q mem missing => (passed q).mpr (h.passed q mem missing)⟩

namespace Series

theorem swing?_of_mem_rawSwings {s : Series α} {source : PivotSource} {lookback : Nat} {q : Pivot α}
    (mem : q ∈ s.rawSwings source lookback) : s.swing? source lookback q.index q.side = some q := by
  obtain ⟨i, -, listed⟩ := List.mem_flatMap.mp mem
  obtain ⟨side, -, found⟩ := List.mem_filterMap.mp listed
  obtain ⟨index, same, -⟩ := swing?_eq_some_iff.mp found
  rw [index, same]
  exact found

theorem rawSwings_ordered (s : Series α) (source : PivotSource) (lookback : Nat) :
    (s.rawSwings source lookback).Pairwise Pivot.Precedes := by
  refine List.pairwise_flatMap.mpr ⟨fun i _ => ?_, ?_⟩
  · have sides : [Side.high, Side.low].Pairwise fun a b => a = .high ∧ b = .low := by simp
    apply sides.filterMap
    intro a b order q hq r hr
    obtain ⟨index, side, -⟩ := swing?_eq_some_iff.mp hq
    obtain ⟨index', side', -⟩ := swing?_eq_some_iff.mp hr
    exact .inr ⟨index.trans index'.symm, side.trans order.1, side'.trans order.2⟩
  · have ascending : (List.range' lookback (s.size - 2 * lookback)).Pairwise (· < ·) :=
      List.pairwise_lt_range' 1
    refine ascending.imp fun {i j} less q hq r hr => .inl ?_
    obtain ⟨_, -, found⟩ := List.mem_filterMap.mp hq
    obtain ⟨_, -, found'⟩ := List.mem_filterMap.mp hr
    rwa [(swing?_eq_some_iff.mp found).1, (swing?_eq_some_iff.mp found').1]

theorem finite_of_mem_rawSwings {s : Series α} (wf : s.WellFormed) {source : PivotSource}
    {lookback : Nat} {q : Pivot α} (mem : q ∈ s.rawSwings source lookback) :
    Scalar.isFinite q.price = true := by
  obtain ⟨-, -, -, price, -⟩ := swing?_eq_some_iff.mp (swing?_of_mem_rawSwings mem)
  exact wf.pivotPrices_finite source q.side (Array.mem_of_getElem? price)

end Series

end Selection

/-- Where swings are thinned out, those of either side are the one selection from the row of all
swings in which each is far enough from the ones before it, and each that is passed over too near to
one of them. -/
theorem swings_greedy_selection {s : Series Float} {lookback : Nat} {options : PivotOptions Float}
    (valid : s.validate = .ok ()) (positive : 1 ≤ lookback) (on : 0 < options.dedupe) :
    ∃ plain thinned row taken,
      s.swings lookback { options with dedupe := 0 } = .ok plain ∧
      s.swings lookback options = .ok thinned ∧
      plain.InOrder row ∧ thinned.InOrder taken ∧ Selects options.dedupe row taken ∧
      ∀ row' taken', plain.InOrder row' → Selects options.dedupe row' taken' →
        row' = row ∧ taken' = taken := by
  have wf := Series.validate_eq_ok_iff.mp valid
  have ordered := s.rawSwings_ordered options.source lookback
  have finite (q : Pivot Float) (mem : q ∈ s.rawSwings options.source lookback) :
      q.price.isFinite = true := Series.finite_of_mem_rawSwings wf mem
  have chosen := (selects_iff_thins on finite).mpr (thins_thinOut ordered)
  have off : ¬ (0 : Float) < 0 := by decide +kernel
  have plain : (⟨s.rawSwingsOn options.source lookback .high,
      s.rawSwingsOn options.source lookback .low⟩ : Swings Float).InOrder
        (s.rawSwings options.source lookback) :=
    ⟨ordered, (s.filter_rawSwings options.source lookback .high).symm,
      (s.filter_rawSwings options.source lookback .low).symm⟩
  refine ⟨_, _, _, _, ?_, Series.swings_eq_ok positive, plain,
    ⟨ordered.sublist chosen.sublist, rfl, rfl⟩, chosen, ?_⟩
  · rw [Series.swings_eq_ok positive, Series.swingsOn_eq_rawSwingsOn off,
      Series.swingsOn_eq_rawSwingsOn off]
  · intro row taken inOrder selection
    have same := inOrder.unique plain
    subst same
    have thins := (selects_iff_thins on finite).mp selection
    exact ⟨rfl, thins.eq_thinOut Pivot.Precedes.asymm ordered⟩

/-- The second top is passed over, since it is near the first one. -/
theorem swings_greedy_selection_tops :
    (threeTops.validate = .ok () ∧ 1 ≤ 1 ∧ 0 < distinctSwings.dedupe) ∧
    ((threeTops.swings 1 { distinctSwings with dedupe := 0 }).toOption.map
        (fun swings => (swings.highs.map (·.index), swings.lows.map (·.index)))
          = some ([1, 5, 7], [3, 6]) ∧
      (threeTops.swings 1 distinctSwings).toOption.map
        (fun swings => (swings.highs.map (·.index), swings.lows.map (·.index)))
          = some ([1, 7], [3, 6])) ∧
    ∃ plain thinned row taken,
      threeTops.swings 1 { distinctSwings with dedupe := 0 } = .ok plain ∧
      threeTops.swings 1 distinctSwings = .ok thinned ∧
      plain.InOrder row ∧ thinned.InOrder taken ∧ Selects distinctSwings.dedupe row taken ∧
      ∀ row' taken', plain.InOrder row' → Selects distinctSwings.dedupe row' taken' →
        row' = row ∧ taken' = taken :=
  ⟨by decide +kernel, by decide +kernel,
    swings_greedy_selection (by decide +kernel) (by decide) (by decide +kernel)⟩

end Trendline
