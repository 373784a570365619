import Mathlib
import Trendline.Proofs.Checked.Steps
import Trendline.Proofs.Columns

/-!
The usual time between bars: of the times from one bar to the next that a word holds, the most
frequent, and of several the smallest. Whatever the bars are, no word is exceeded on the way.
-/

namespace Trendline

namespace Series

/-- The time from each bar to the next. -/
def steps (times : List Int) : List Int :=
  List.zipWith (fun time next => next - time) times times.tail

theorem gaps_eq (times : List Int) : gaps times = (steps times).filter (fitsWord ·) := by
  fun_induction gaps times with
  | case1 a b rest gap fits ih => simp [steps, ih, fits, gap]
  | case2 a b rest gap large ih => simp [steps, ih, large, gap]
  | case3 times short =>
      rcases times with _ | ⟨a, _ | ⟨b, rest⟩⟩
      · rfl
      · rfl
      · exact (short a b rest rfl).elim

theorem length_gaps_le (times : List Int) : (gaps times).length ≤ times.length := by
  rw [gaps_eq]
  refine (List.length_filter_le _ _).trans ?_
  simp [steps]

section Counting

/-- Each number of a list with how often it is there, in ascending order. -/
structure Tallies (counted : List (Int × Nat)) (xs : List Int) : Prop where
  ascending : counted.Pairwise (·.1 < ·.1)
  mem_iff : ∀ x n, (x, n) ∈ counted ↔ 0 < n ∧ xs.count x = n

variable {counted : List (Int × Nat)} {xs ys : List Int}

theorem Tallies.perm (h : Tallies counted xs) (perm : xs.Perm ys) : Tallies counted ys :=
  ⟨h.ascending, fun x n => by rw [h.mem_iff, perm.count_eq]⟩

theorem Tallies.mem_count (h : Tallies counted xs) {x : Int} (mem : x ∈ xs) :
    (x, xs.count x) ∈ counted :=
  (h.mem_iff x _).mpr ⟨List.count_pos_iff.mpr mem, rfl⟩

theorem Tallies.mem (h : Tallies counted xs) {x : Int} {n : Nat} (mem : (x, n) ∈ counted) :
    x ∈ xs ∧ xs.count x = n := by
  obtain ⟨some, count⟩ := (h.mem_iff x n).mp mem
  exact ⟨List.count_pos_iff.mp (count ▸ some), count⟩

/-- One number more that is there already, as the least. -/
theorem Tallies.again {y : Int} {n : Nat} {rest : List (Int × Nat)}
    (h : Tallies ((y, n) :: rest) xs) : Tallies ((y, n + 1) :: rest) (y :: xs) := by
  obtain ⟨above, ascending⟩ := List.pairwise_cons.mp h.ascending
  obtain ⟨-, count⟩ := h.mem List.mem_cons_self
  refine ⟨List.pairwise_cons.mpr ⟨above, ascending⟩, fun x m => ?_⟩
  have elsewhere := h.mem_iff x m
  rw [List.mem_cons, Prod.mk.injEq] at elsewhere ⊢
  rw [List.count_cons]
  by_cases same : x = y
  · subst same
    have absent : (x, m) ∉ rest := fun mem => Int.lt_irrefl x (above _ mem)
    simp [absent, count]
    omega
  · have other : ¬ y = x := fun eq => same eq.symm
    simpa [same, other] using elsewhere

/-- One number more, less than all that are there. -/
theorem Tallies.first {x : Int} (h : Tallies counted xs) (below : ∀ run ∈ counted, x < run.1) :
    Tallies ((x, 1) :: counted) (x :: xs) := by
  refine ⟨List.pairwise_cons.mpr ⟨below, h.ascending⟩, fun y m => ?_⟩
  rw [List.mem_cons, Prod.mk.injEq, List.count_cons, h.mem_iff]
  by_cases same : y = x
  · subst same
    have absent : xs.count y = 0 := by
      refine List.count_eq_zero.mpr fun mem => Int.lt_irrefl y ?_
      exact below _ (h.mem_count mem)
    simp [absent]
    omega
  · have other : ¬ x = y := fun eq => same eq.symm
    simp [same, other]

/-- Stretches of equal numbers are the tallies of a list in order. -/
theorem tallies_runs (sorted : xs.Pairwise (· ≤ ·)) : Tallies (runs xs) xs := by
  fun_induction runs xs with
  | case1 => exact ⟨.nil, by simp +contextual [Nat.pos_iff_ne_zero, eq_comm]⟩
  | case2 xs y n rest found ih =>
      rw [found] at ih
      exact (ih (List.pairwise_cons.mp sorted).2).again
  | case3 x xs y n rest found differs ih =>
      rw [found] at ih
      obtain ⟨least, sorted⟩ := List.pairwise_cons.mp sorted
      have tallies := ih sorted
      have less : x < y :=
        Int.lt_iff_le_and_ne.mpr ⟨least y (tallies.mem List.mem_cons_self).1, differs⟩
      obtain ⟨above, -⟩ := List.pairwise_cons.mp tallies.ascending
      exact tallies.first (List.forall_mem_cons.mpr
        ⟨less, fun run mem => Int.lt_trans less (above run mem)⟩)
  | case4 x xs found ih =>
      rw [found] at ih
      exact (ih (List.pairwise_cons.mp sorted).2).first nofun

/-- The first of the runs that no other exceeds in length. -/
def longest? (counted : List (Int × Nat)) : Option (Int × Nat) :=
  counted.foldl (fun best run =>
    match best with
    | none => some run
    | some b => if b.2 < run.2 then some run else some b) none

theorem longest?_cons_cons (b c : Int × Nat) (rest : List (Int × Nat)) :
    longest? (b :: c :: rest)
      = if b.2 < c.2 then longest? (c :: rest) else longest? (b :: rest) := by
  simp only [longest?, List.foldl_cons]
  split <;> rfl

/-- Since the runs ascend, the first of the longest is the one of the least number. -/
theorem longest?_spec (b : Int × Nat) {rest : List (Int × Nat)}
    (ascending : (b :: rest).Pairwise (·.1 < ·.1)) :
    ∃ best ∈ b :: rest, longest? (b :: rest) = some best ∧
      ∀ run ∈ b :: rest, run.2 < best.2 ∨ run.2 = best.2 ∧ best.1 ≤ run.1 := by
  induction rest generalizing b with
  | nil => exact ⟨b, List.mem_cons_self, rfl, by simp⟩
  | cons c rest ih =>
      obtain ⟨above, tail⟩ := List.pairwise_cons.mp ascending
      have less := above c List.mem_cons_self
      rw [longest?_cons_cons]
      split
      · next longer =>
          obtain ⟨best, mem, found, least⟩ := ih c tail
          refine ⟨best, List.mem_cons_of_mem _ mem, found, List.forall_mem_cons.mpr ⟨?_, least⟩⟩
          have := least c List.mem_cons_self
          omega
      · next short =>
          have kept := List.pairwise_cons.mpr
            ⟨fun run mem => above run (List.mem_cons_of_mem _ mem), (List.pairwise_cons.mp tail).2⟩
          obtain ⟨best, mem, found, least⟩ := ih b kept
          obtain ⟨first, rest⟩ := List.forall_mem_cons.mp least
          refine ⟨best, ?_, found,
            List.forall_mem_cons.mpr ⟨first, List.forall_mem_cons.mpr ⟨?_, rest⟩⟩⟩
          · exact List.mem_cons.mpr ((List.mem_cons.mp mem).imp_right (List.mem_cons_of_mem _))
          · omega

/-- The most frequent number of a list, the smallest of several. -/
structure Usual (xs : List Int) (x : Int) : Prop where
  mem : x ∈ xs
  frequent : ∀ y ∈ xs, xs.count y ≤ xs.count x
  least : ∀ y ∈ xs, xs.count y = xs.count x → x ≤ y

theorem exists_longest (nonempty : xs ≠ []) :
    ∃ x n, longest? (runs (xs.mergeSort (· ≤ ·))) = some (x, n) ∧ Usual xs x := by
  have sorted := List.pairwise_mergeSort' (· ≤ ·) xs
  have tallies := (tallies_runs sorted).perm (List.mergeSort_perm xs _)
  generalize runs (xs.mergeSort (· ≤ ·)) = counted at tallies ⊢
  obtain ⟨y, some⟩ := List.exists_mem_of_ne_nil xs nonempty
  obtain ⟨b, rest, rfl⟩ := List.exists_cons_of_ne_nil (List.ne_nil_of_mem (tallies.mem_count some))
  obtain ⟨⟨x, n⟩, mem, found, least⟩ := longest?_spec b tallies.ascending
  obtain ⟨memX, count⟩ := tallies.mem mem
  refine ⟨x, n, found, memX, fun y memY => ?_, fun y memY same => ?_⟩
  all_goals
    have := least _ (tallies.mem_count memY)
    dsimp only at this
    omega

end Counting

variable {times : List Int}

theorem usualGap_eq (times : List Int) :
    usualGap times =
      match longest? (runs ((gaps times).mergeSort (· ≤ ·))) with
      | some (gap, _) => if 0 < gap then gap else 0
      | none => 0 :=
  rfl

theorem usualGap_of_gaps_eq_nil (none : gaps times = []) : usualGap times = 0 := by
  simp [usualGap_eq, none, longest?, runs]

/-- Where time goes forward. -/
theorem usual_usualGap (some : gaps times ≠ []) (forward : ∀ gap ∈ gaps times, 0 < gap) :
    0 < usualGap times ∧ Usual (gaps times) (usualGap times) := by
  obtain ⟨gap, n, found, usual⟩ := exists_longest some
  have positive := forward gap usual.mem
  rw [usualGap_eq, found]
  dsimp only
  rw [if_pos positive]
  exact ⟨positive, usual⟩

theorem fitsWord_usualGap (times : List Int) : fitsWord (usualGap times) = true := by
  by_cases none : gaps times = []
  · rw [usualGap_of_gaps_eq_nil none]
    decide
  · obtain ⟨gap, n, found, usual⟩ := exists_longest none
    have fits := usual.mem
    rw [gaps_eq] at fits
    rw [usualGap_eq, found]
    dsimp only
    split
    · exact (List.mem_filter.mp fits).2
    · decide

theorem gaps_pos (ascending : times.Pairwise (· < ·)) : ∀ gap ∈ gaps times, 0 < gap := by
  fun_induction gaps times with
  | case1 a b rest gap fits ih =>
      obtain ⟨above, tail⟩ := List.pairwise_cons.mp ascending
      exact List.forall_mem_cons.mpr ⟨Int.sub_pos_of_lt (above b List.mem_cons_self), ih tail⟩
  | case2 a b rest gap large ih => exact ih (List.pairwise_cons.mp ascending).2
  | case3 => exact nofun

/-- No run is longer than the list. -/
theorem snd_le_length {xs : List Int} : ∀ run ∈ runs xs, run.2 ≤ xs.length := by
  fun_induction runs xs with
  | case1 => exact nofun
  | case2 xs y n rest found ih =>
      rw [found, List.forall_mem_cons] at ih
      exact List.forall_mem_cons.mpr
        ⟨Nat.succ_le_succ ih.1, fun run mem => Nat.le_succ_of_le (ih.2 run mem)⟩
  | case3 x xs y n rest found differs ih =>
      rw [found] at ih
      exact List.forall_mem_cons.mpr
        ⟨Nat.succ_pos _, fun run mem => Nat.le_succ_of_le (ih run mem)⟩
  | case4 x xs found ih => simp

end Series

namespace Checked

variable {α : Type}

/-- Stretches of equal numbers, each counted in a word. -/
def runs : List Int → Except (Halt α) (List (Int × Nat))
  | [] => return []
  | x :: xs => do
      match ← runs xs with
      | (y, n) :: rest =>
          if x = y then
            return (y, ← add n 1) :: rest
          else
            return (x, 1) :: (y, n) :: rest
      | [] => return [(x, 1)]

/-- The usual gap. A gap that no word holds is known before it is taken, so that only the counting
may fail. -/
def usualGap (times : List Int) : Except (Halt α) Int := do
  match Series.longest? (← runs ((Series.gaps times).mergeSort (· ≤ ·))) with
  | some (gap, _) => return if 0 < gap then gap else 0
  | none => return 0

theorem runs_eq_ok {xs : List Int} (short : xs.length < wordCount) :
    (runs xs : Except (Halt α) (List (Int × Nat))) = .ok (Series.runs xs) := by
  fun_induction Series.runs xs with
  | case1 => rfl
  | case2 xs y n rest found ih =>
      have bound := Series.snd_le_length (y, n) (found ▸ List.mem_cons_self)
      rw [List.length_cons] at short
      rw [runs, ih (Nat.lt_of_succ_lt short), ok_bind, found]
      dsimp only
      rw [if_pos rfl, add_of_lt (Nat.lt_of_le_of_lt (Nat.succ_le_succ bound) short), ok_bind]
      rfl
  | case3 x xs y n rest found differs ih =>
      rw [runs, ih (Nat.lt_of_succ_lt short), ok_bind, found]
      dsimp only
      rw [if_neg differs]
      rfl
  | case4 x xs found ih =>
      rw [runs, ih (Nat.lt_of_succ_lt short), ok_bind, found]
      rfl

theorem usualGap_eq_ok {times : List Int} (short : times.length < wordCount) :
    (usualGap times : Except (Halt α) Int) = .ok (Series.usualGap times) := by
  have few : ((Series.gaps times).mergeSort (· ≤ ·)).length < wordCount := by
    rw [List.length_mergeSort]
    exact Nat.lt_of_le_of_lt (Series.length_gaps_le times) short
  rw [usualGap, runs_eq_ok few, ok_bind, Series.usualGap_eq]
  cases Series.longest? (Series.runs ((Series.gaps times).mergeSort (· ≤ ·))) with
  | none | some run => rfl

end Checked

variable {α : Type} [Scalar α]

/-- The interval of a series made of some bars is the most frequent time from one bar to the next,
the smallest of several, among those that a word holds, and zero if there are none. It is found
without exceeding a word, in whatever order the bars are. -/
theorem interval_is_usual_gap {bars : List (Bar α)} (short : bars.length < wordCount) :
    let times := bars.map (·.time)
    let gaps := (Series.steps times).filter (fitsWord ·)
    (Checked.usualGap times : Except (Halt α) Int) = .ok (Series.usualGap times) ∧
      fitsWord (Series.usualGap times) = true ∧
      ∀ symbol s, Series.ofBars symbol bars = .ok s →
        (gaps = [] → s.interval = 0) ∧ (bars.length = 1 → s.interval = 0) ∧
          (gaps ≠ [] → 0 < s.interval ∧ Series.Usual gaps s.interval) := by
  intro times gaps
  have same : Series.gaps times = gaps := Series.gaps_eq times
  refine ⟨Checked.usualGap_eq_ok (by simpa [times] using short), Series.fitsWord_usualGap times, ?_⟩
  intro symbol s made
  obtain ⟨wf, rfl⟩ := Series.ofBars_eq_ok_iff.mp made
  have ascending : times.Pairwise (· < ·) := wf.ascending
  have interval : (Series.columnsOf symbol bars).interval = Series.usualGap times := rfl
  rw [interval, ← same]
  refine ⟨Series.usualGap_of_gaps_eq_nil, fun single => ?_, fun some =>
    Series.usual_usualGap some (Series.gaps_pos ascending)⟩
  obtain ⟨bar, rfl⟩ := List.length_eq_one_iff.mp single
  exact Series.usualGap_of_gaps_eq_nil rfl

/-- Bars at the start of time and from zero on, two gaps of five and two of sixty between them. -/
def unevenBars : List (Bar Float) :=
  [-0x8000000000000000, 0, 60, 120, 125, 130, 1000].map fun time => ⟨time, 1, 1, 1, 1, 1⟩

theorem interval_is_usual_gap_tied :
    unevenBars.length < wordCount ∧
      (Checked.usualGap (unevenBars.map (·.time)) : Except (Halt Float) Int) = .ok 5 ∧
      ∃ s, Series.ofBars "uneven" unevenBars = .ok s ∧
        0 < s.interval ∧ Series.Usual [60, 60, 5, 5, 870] s.interval := by
  have short : unevenBars.length < wordCount := by decide
  obtain ⟨checked, -, usual⟩ := interval_is_usual_gap short
  have gaps : (Series.steps (unevenBars.map (·.time))).filter (fitsWord ·)
      = [60, 60, 5, 5, 870] := by
    decide
  have made : Series.ofBars "uneven" unevenBars = .ok (Series.columnsOf "uneven" unevenBars) :=
    Series.ofBars_eq_ok_iff.mpr ⟨Series.validate_eq_ok_iff.mp (by decide), rfl⟩
  have gap : Series.usualGap (unevenBars.map (·.time)) = 5 := by cbv
  refine ⟨short, by rw [checked, gap], _, made, ?_⟩
  have most := (usual "uneven" _ made).2.2
  rw [gaps] at most
  exact most (by decide)

end Trendline
