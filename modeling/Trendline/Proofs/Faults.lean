import Trendline.Proofs.Checked.Steps
import Trendline.Proofs.Double.Order

/-!
The fault that a series is refused for. The rules are tried in a fixed order: there are bars, the
columns have one size, time ascends, and each bar is finite with its high not below its low. What is
reported is the first rule that is broken, in the first place where it is.
-/

namespace Trendline

theorem findSome?_range_eq_some_iff {β : Type} {f : Nat → Option β} {n : Nat} {b : β} :
    (List.range n).findSome? f = some b ↔ ∃ i < n, f i = some b ∧ ∀ k < i, f k = none := by
  induction n with
  | zero => simp
  | succ n ih =>
      rw [List.range_succ, List.findSome?_append, Option.or_eq_some_iff, ih,
        List.findSome?_eq_none_iff]
      simp only [List.mem_range, List.findSome?_singleton]
      constructor
      · rintro (⟨i, inside, found, before⟩ | ⟨before, found⟩)
        · exact ⟨i, Nat.lt_succ_of_lt inside, found, before⟩
        · exact ⟨n, Nat.lt_succ_self n, found, before⟩
      · rintro ⟨i, inside, found, before⟩
        rcases Nat.lt_succ_iff_lt_or_eq.mp inside with less | rfl
        · exact .inl ⟨i, less, found, before⟩
        · exact .inr ⟨before, found⟩

variable {α : Type} [Scalar α]

/-- What is asked of a single bar. -/
structure Bar.Sound (bar : Bar α) : Prop where
  finite : bar.isFinite = true
  upright : ¬ bar.high < bar.low

namespace Series

/-- A fault is the first one of a series if its rule is broken, no earlier rule is, and the place it
names is the first where the rule is broken. -/
inductive FirstFault (s : Series α) : SeriesFault α → Prop
  | empty (bare : s.size = 0) : FirstFault s .empty
  | misaligned {before after : List (String × Nat)} {column : String} {size : Nat}
      (some : 0 < s.size) (columns : s.columnSizes = before ++ (column, size) :: after)
      (aligned : ∀ c ∈ before, c.2 = s.size) (differs : size ≠ s.size) :
      FirstFault s (.misaligned column size s.size)
  | outOfOrder {i : Nat} (columns : ∀ c ∈ s.columnSizes, c.2 = s.size)
      (inside : i + 1 < s.times.size) (before : ∀ k, (less : k < i) → s.times[k] < s.times[k + 1])
      (later : s.times[i + 1] ≤ s.times[i]) :
      FirstFault s (.outOfOrder i s.times[i] s.times[i + 1])
  | notFinite {i : Nat} (columns : ∀ c ∈ s.columnSizes, c.2 = s.size)
      (ascending : s.times.toList.Pairwise (· < ·)) (inside : i < s.size)
      (before : ∀ k < i, (s.barAt k).Sound) (infinite : (s.barAt i).isFinite = false) :
      FirstFault s (.notFinite i (s.barAt i).time)
  | inverted {i : Nat} (columns : ∀ c ∈ s.columnSizes, c.2 = s.size)
      (ascending : s.times.toList.Pairwise (· < ·)) (inside : i < s.size)
      (before : ∀ k < i, (s.barAt k).Sound) (finite : (s.barAt i).isFinite = true)
      (crossed : (s.barAt i).high < (s.barAt i).low) :
      FirstFault s (.inverted i (s.barAt i).time (s.barAt i).high (s.barAt i).low)

variable {s : Series α} {fault : SeriesFault α}

omit [Scalar α] in
theorem misaligned?_eq_some_iff :
    s.misaligned? = some fault ↔ ∃ before column size after,
      s.columnSizes = before ++ (column, size) :: after ∧ (∀ c ∈ before, c.2 = s.size) ∧
        size ≠ s.size ∧ .misaligned column size s.size = fault := by
  simp only [misaligned?, Option.map_eq_some_iff, List.find?_eq_some_iff_append]
  constructor
  · rintro ⟨⟨column, size⟩, ⟨differs, before, after, columns, aligned⟩, rfl⟩
    refine ⟨before, column, size, after, columns, fun c mem => ?_, by simpa using differs, rfl⟩
    simpa using aligned c mem
  · rintro ⟨before, column, size, after, columns, aligned, differs, rfl⟩
    exact ⟨(column, size), ⟨by simpa using differs, before, after, columns, by simpa using aligned⟩,
      rfl⟩

omit [Scalar α] in
theorem outOfOrder?_eq_some_iff :
    outOfOrder? 0 s.times.toList = some fault ↔ ∃ i, ∃ inside : i + 1 < s.times.size,
      (∀ k, (less : k < i) → s.times[k] < s.times[k + 1]) ∧ s.times[i + 1] ≤ s.times[i] ∧
        .outOfOrder i s.times[i] s.times[i + 1] = fault := by
  have entry {k : Nat} (inside : k < s.times.size) : s.times.toList.getD k 0 = s.times[k] := by
    simp [inside]
  rw [Checked.outOfOrder?_eq_findSome?, findSome?_range_eq_some_iff, Array.length_toList]
  constructor
  · rintro ⟨i, inside, found, before⟩
    rw [entry (by omega), entry (by omega)] at found
    obtain ⟨later, eq⟩ := Option.ite_none_right_eq_some.mp found
    refine ⟨i, by omega, fun k less => ?_, later, by simpa using eq⟩
    have passed := before k less
    rw [entry (by omega), entry (by omega)] at passed
    simpa using passed
  · rintro ⟨i, inside, before, later, rfl⟩
    refine ⟨i, by omega, ?_, fun k less => ?_⟩
    · rw [entry inside, entry (Nat.lt_of_succ_lt inside), if_pos later, Nat.zero_add]
    · rw [entry (by omega), entry (by omega), if_neg (Int.not_le.mpr (before k less))]

theorem barFault?_eq_some_iff {i : Nat} {bar : Bar α} :
    barFault? i bar = some fault ↔
      (bar.isFinite = false ∧ .notFinite i bar.time = fault) ∨
        (bar.isFinite = true ∧ bar.high < bar.low ∧
          .inverted i bar.time bar.high bar.low = fault) := by
  unfold barFault?
  cases bar.isFinite <;> simp

theorem barFault?_eq_none_iff_sound {i : Nat} {bar : Bar α} :
    barFault? i bar = none ↔ bar.Sound := by
  rw [barFault?_eq_none_iff]
  exact ⟨fun ⟨finite, upright⟩ => ⟨finite, upright⟩, fun sound => ⟨sound.finite, sound.upright⟩⟩

/-- The fault that is found is the first one. -/
theorem fault?_eq_some_iff : s.fault? = some fault ↔ s.FirstFault fault := by
  have bare : (if s.size = 0 then some .empty else none : Option (SeriesFault α)) = none ↔
      0 < s.size := by
    simp [Nat.pos_iff_ne_zero]
  simp only [fault?, Option.orElse_eq_orElse, Option.orElse_eq_or, Option.or_eq_some_iff, bare,
    misaligned?_eq_none_iff, outOfOrder?_eq_none_iff, misaligned?_eq_some_iff,
    outOfOrder?_eq_some_iff, findSome?_range_eq_some_iff, barFault?_eq_none_iff_sound,
    barFault?_eq_some_iff, Option.ite_none_right_eq_some, Option.some.injEq]
  constructor
  · rintro (⟨none, rfl⟩ | ⟨some, ⟨before, column, size, after, columns, aligned, differs, rfl⟩ |
      ⟨columns, ⟨i, inside, before, later, rfl⟩ | ⟨ascending, i, inside, found, before⟩⟩⟩)
    · exact .empty none
    · exact .misaligned some columns aligned differs
    · exact .outOfOrder columns inside before later
    · rcases found with ⟨infinite, rfl⟩ | ⟨finite, crossed, rfl⟩
      · exact .notFinite columns ascending inside before infinite
      · exact .inverted columns ascending inside before finite crossed
  · rintro (none | ⟨some, columns, aligned, differs⟩ | ⟨columns, inside, before, later⟩ |
      ⟨columns, ascending, inside, before, infinite⟩ |
      ⟨columns, ascending, inside, before, finite, crossed⟩)
    · exact .inl ⟨none, rfl⟩
    · exact .inr ⟨some, .inl ⟨_, _, _, _, columns, aligned, differs, rfl⟩⟩
    · exact .inr ⟨Nat.zero_lt_of_lt inside, .inr ⟨columns, .inl ⟨_, inside, before, later, rfl⟩⟩⟩
    · exact .inr ⟨Nat.zero_lt_of_lt inside,
        .inr ⟨columns, .inr ⟨ascending, _, inside, .inl ⟨infinite, rfl⟩, before⟩⟩⟩
    · exact .inr ⟨Nat.zero_lt_of_lt inside,
        .inr ⟨columns, .inr ⟨ascending, _, inside, .inr ⟨finite, crossed, rfl⟩, before⟩⟩⟩

end Series

theorem Bar.sound_iff {bar : Bar Float} :
    bar.Sound ↔ (bar.opening.isFinite ∧ bar.high.isFinite ∧ bar.low.isFinite ∧
      bar.closing.isFinite ∧ bar.volume.isFinite) ∧ bar.low ≤ bar.high := by
  have finite : bar.isFinite = true ↔ bar.opening.isFinite ∧ bar.high.isFinite ∧
      bar.low.isFinite ∧ bar.closing.isFinite ∧ bar.volume.isFinite := by
    simp only [Bar.isFinite, Bool.and_eq_true, and_assoc]
    rfl
  rw [← finite]
  constructor
  · intro sound
    obtain ⟨-, high, low, -⟩ := finite.mp sound.finite
    exact ⟨sound.finite, LawfulScalar.le_of_not_lt low high sound.upright⟩
  · rintro ⟨finite, le⟩
    exact ⟨finite, Double.not_lt_of_le le⟩

namespace Series

variable {s : Series Float}

theorem wellFormed_iff :
    s.WellFormed ↔ 0 < s.size ∧
      (s.openings.size = s.size ∧ s.highs.size = s.size ∧ s.lows.size = s.size ∧
        s.closings.size = s.size ∧ s.volumes.size = s.size) ∧
      (∀ i j, (earlier : i < j) → (inside : j < s.times.size) → s.times[i] < s.times[j]) ∧
      ∀ bar ∈ s.bars, (bar.opening.isFinite ∧ bar.high.isFinite ∧ bar.low.isFinite ∧
        bar.closing.isFinite ∧ bar.volume.isFinite) ∧ bar.low ≤ bar.high := by
  have columns : (∀ c ∈ s.columnSizes, c.2 = s.size) ↔ s.openings.size = s.size ∧
      s.highs.size = s.size ∧ s.lows.size = s.size ∧ s.closings.size = s.size ∧
      s.volumes.size = s.size := by
    simp [columnSizes]
  have ascending : s.times.toList.Pairwise (· < ·) ↔
      ∀ i j, (earlier : i < j) → (inside : j < s.times.size) → s.times[i] < s.times[j] := by
    rw [List.pairwise_iff_getElem]
    simp only [Array.length_toList, Array.getElem_toList]
    exact ⟨fun h i j earlier inside => h i j (earlier.trans inside) inside earlier,
      fun h i j _ inside earlier => h i j earlier inside⟩
  have sound : (∀ bar ∈ s.bars, bar.Sound) ↔ ∀ i < s.size, (s.barAt i).Sound := by
    simp [bars]
  simp only [← Bar.sound_iff, sound, ← columns, ← ascending]
  constructor
  · intro wf
    exact ⟨wf.size_pos, wf.columns, wf.ascending,
      fun i inside => ⟨wf.finite i inside, wf.upright i inside⟩⟩
  · rintro ⟨some, columns, ascending, bars⟩
    exact ⟨some, columns, ascending, fun i inside => (bars i inside).finite,
      fun i inside => (bars i inside).upright⟩

end Series

/-- A series passes if it has bars, every column has an entry for each, time ascends, and all of
each bar is finite with its low at most its high. Every other series is refused for its first fault;
nothing is read beyond the end of a column on the way there. -/
theorem validate_names_first_fault {s : Series Float} (short : s.size < wordCount) :
    (s.validate = .ok () ↔ 0 < s.size ∧
      (s.openings.size = s.size ∧ s.highs.size = s.size ∧ s.lows.size = s.size ∧
        s.closings.size = s.size ∧ s.volumes.size = s.size) ∧
      (∀ i j, (earlier : i < j) → (inside : j < s.times.size) → s.times[i] < s.times[j]) ∧
      ∀ bar ∈ s.bars, (bar.opening.isFinite ∧ bar.high.isFinite ∧ bar.low.isFinite ∧
        bar.closing.isFinite ∧ bar.volume.isFinite) ∧ bar.low ≤ bar.high) ∧
    (∀ e, s.validate = .error e ↔ ∃ fault, s.FirstFault fault ∧ .series s.symbol fault = e) ∧
    Checked.validate s = s.validate.mapError .refused ∧
    ∀ trap, Checked.validate s ≠ .error (.trapped trap) := by
  have same := Checked.validate_eq short
  refine ⟨Series.validate_eq_ok_iff.trans Series.wellFormed_iff, fun e => ?_, same, ?_⟩
  · simp only [Series.validate_eq_error_iff, Series.fault?_eq_some_iff]
  · intro trap trapped
    rw [same] at trapped
    obtain ⟨e, -, wrong⟩ := mapError_eq_error_iff.mp trapped
    cases wrong

/-- Three bars of which the third is not later than the second, the first is not finite and the
second is inverted. -/
def tangled : Series Float where
  symbol := "tangled"
  interval := 0
  times := #[0, 60, 60]
  openings := #[0 / 0, 1, 1]
  highs := #[1, 0, 1]
  lows := #[1, 1, 1]
  closings := #[1, 1, 1]
  volumes := #[1, 1, 1 / 0]

/-- What is wrong with the order of time comes before what is wrong with a bar. -/
theorem validate_names_first_fault_tangled :
    tangled.size < wordCount ∧ tangled.FirstFault (.outOfOrder 1 60 60) ∧
      Checked.validate tangled
        = .error (.refused (.series "tangled" (.outOfOrder 1 60 60))) := by
  have short : tangled.size < wordCount := by decide
  have refused : tangled.validate = .error (.series "tangled" (.outOfOrder 1 60 60)) := by decide
  obtain ⟨-, faults, checked, -⟩ := validate_names_first_fault short
  obtain ⟨fault, first, eq⟩ := (faults _).mp refused
  cases eq
  refine ⟨short, first, ?_⟩
  rw [checked, refused]
  rfl

end Trendline
