import Trendline.Proofs.Analysis.Anchors
import Trendline.Proofs.Double.Coincidence

/-!
Which swings are joined by lines. There is one line for every two of them that may be joined, in
whatever order they are listed, and the lines come in the lexicographic order of the places of their
swings. Two swings over one bar stay apart, though no limit on the distance says so.
-/

namespace Trendline

section Lists

variable {β γ : Type}

/-- In a list in ascending order the pairs are those of an element and a greater one. -/
theorem mem_pairs_iff [Preorder β] {xs : List β} (ascending : xs.Pairwise (· < ·)) {x y : β} :
    (x, y) ∈ pairs xs ↔ x ∈ xs ∧ y ∈ xs ∧ x < y := by
  refine ⟨of_mem_pairs ascending, ?_⟩
  induction xs with
  | nil => exact fun ⟨hx, _⟩ => nomatch hx
  | cons z zs ih =>
      obtain ⟨first, later⟩ := List.pairwise_cons.mp ascending
      intro ⟨hx, hy, less⟩
      rw [pairs, List.mem_append]
      rcases List.mem_cons.mp hx with rfl | left
      · have right : y ∈ zs := (List.mem_cons.mp hy).resolve_left less.ne'
        exact .inl (List.mem_map.mpr ⟨y, right, rfl⟩)
      · rcases List.mem_cons.mp hy with rfl | right
        · exact (lt_asymm less (first x left)).elim
        · exact .inr (ih later ⟨left, right, less⟩)

theorem pairs_pairwise_lex [Preorder β] {xs : List β} (ascending : xs.Pairwise (· < ·)) :
    (pairs xs).Pairwise (Prod.Lex (· < ·) (· < ·)) := by
  induction xs with
  | nil => exact .nil
  | cons z zs ih =>
      obtain ⟨first, later⟩ := List.pairwise_cons.mp ascending
      rw [pairs, List.pairwise_append]
      refine ⟨List.pairwise_map.mpr (later.imp fun less => .right _ less), ih later, ?_⟩
      rintro p mem ⟨x, y⟩ pair
      obtain ⟨w, -, rfl⟩ := List.mem_map.mp mem
      exact .left _ _ (first x (of_mem_pairs later pair).1)

/-- Where a partial map is defined on those elements that meet a condition, its values go in step
with them. -/
theorem forall₂_filter_filterMap {R : β → γ → Prop} {p : β → Bool} {f : β → Option γ}
    {xs : List β} (defined : ∀ x ∈ xs, p x = true → ∃ y, f x = some y ∧ R x y)
    (undefined : ∀ x ∈ xs, p x = false → f x = none) :
    List.Forall₂ R (xs.filter p) (xs.filterMap f) := by
  induction xs with
  | nil => exact .nil
  | cons x xs ih =>
      rw [List.forall_mem_cons] at defined undefined
      cases met : p x with
      | true =>
          obtain ⟨y, value, rel⟩ := defined.1 met
          rw [List.filter_cons_of_pos met, List.filterMap_cons_some value]
          exact .cons rel (ih defined.2 undefined.2)
      | false =>
          rw [List.filter_cons_of_neg (by simp [met]), List.filterMap_cons_none (undefined.1 met)]
          exact ih defined.2 undefined.2

end Lists

variable {α : Type}

/-- How many bars apart two swings are. -/
def Pivot.distance (p q : Pivot α) : Nat :=
  ((p.index : Int) - q.index).natAbs

namespace PairOptions

/-- Two swings that may be joined: they are of one side, at different times and over different
bars, and their distance is in the range asked for. -/
structure Joinable (options : PairOptions) (p q : Pivot α) : Prop where
  side_eq : p.side = q.side
  time_ne : p.time ≠ q.time
  index_ne : p.index ≠ q.index
  minSpan_le : options.minSpan ≤ p.distance q
  le_maxSpan : ∀ most ∈ options.maxSpan, p.distance q ≤ most

end PairOptions

/-- A line that joins two swings, along which nothing has been looked for yet. -/
structure Line.Joins (line : Line α) (lookback : Nat) (p q : Pivot α) : Prop where
  anchors : p.index < q.index ∧ line.first = p ∧ line.second = q ∨
    q.index < p.index ∧ line.first = q ∧ line.second = p
  side_eq : line.side = p.side
  lookback_eq : line.lookback = lookback
  touches_eq : line.touches = .empty
  violations_eq : line.violations = 0

namespace PairOptions

variable {options : PairOptions} {p q : Pivot α} {lookback : Nat}

/-- Joinable swings are those that are admitted, unless they stand over one bar. -/
theorem joinable_iff [Scalar α] :
    options.Joinable p q ↔ options.admits p q = true ∧ p.index ≠ q.index := by
  have apart : max p.index q.index - min p.index q.index = p.distance q := by
    rw [Pivot.distance]
    omega
  have within : options.maxSpan.all (p.distance q ≤ ·) = true ↔
      ∀ most ∈ options.maxSpan, p.distance q ≤ most := by
    cases options.maxSpan <;> simp
  simp only [admits, apart, Bool.and_eq_true, decide_eq_true_eq, within]
  constructor
  · rintro ⟨sides, times, indices, least, most⟩
    exact ⟨⟨⟨⟨sides, times⟩, least⟩, most⟩, indices⟩
  · rintro ⟨⟨⟨⟨sides, times⟩, least⟩, most⟩, indices⟩
    exact ⟨sides, times, indices, least, most⟩

instance (options : PairOptions) (p q : Pivot α) [Scalar α] : Decidable (options.Joinable p q) :=
  decidable_of_iff _ joinable_iff.symm

theorem joins_of_line? [Scalar α] {line : Line α} (found : line? lookback p q = some line)
    (sides : p.side = q.side) (apart : p.index ≠ q.index) : line.Joins lookback p q := by
  rcases Nat.lt_or_gt_of_ne apart with ordered | ordered
  · simp only [line?, if_pos (Nat.le_of_lt ordered), Option.map_eq_some_iff] at found
    obtain ⟨fit, -, rfl⟩ := found
    exact ⟨.inl ⟨ordered, rfl, rfl⟩, rfl, rfl, rfl, rfl⟩
  · simp only [line?, if_neg (Nat.not_le.mpr ordered), Option.map_eq_some_iff] at found
    obtain ⟨fit, -, rfl⟩ := found
    exact ⟨.inr ⟨ordered, rfl, rfl⟩, sides.symm, rfl, rfl, rfl⟩

/-- Joinable swings are joined. -/
theorem exists_line? {p q : Pivot Float} (lookback : Nat) (joinable : options.Joinable p q)
    (hp : p.index < 2 ^ 53) (hq : q.index < 2 ^ 53) :
    ∃ line, line? lookback p q = some line ∧ line.Joins lookback p q := by
  have drawn : (line? lookback p q).isSome = true := by
    rcases Nat.lt_or_gt_of_ne joinable.index_ne with ordered | ordered
    · exact isSome_line? ordered hq
    · rw [line?_swap joinable.index_ne]
      exact isSome_line? ordered hp
  obtain ⟨line, found⟩ := Option.isSome_iff_exists.mp drawn
  exact ⟨line, found, joins_of_line? found joinable.side_eq joinable.index_ne⟩

/-- Swings over one bar are not. -/
theorem line?_eq_none {p q : Pivot Float} (lookback : Nat) (hp : p.index < 2 ^ 53)
    (same : p.index = q.index) : line? lookback p q = none := by
  have none := Double.ofPoints?_coinciding hp p.price q.price
  simp only [line?, if_pos (Nat.le_of_eq same)]
  rw [← same]
  exact Option.map_eq_none_iff.mpr none

end PairOptions

/-- The lines through some swings are those through every two of them that may be joined, in the
lexicographic order of their places. -/
theorem lines_join_joinable (options : PairOptions) (lookback : Nat) {swings : List (Pivot Float)}
    (bounded : ∀ p ∈ swings, p.index < 2 ^ 53) :
    ∃ places : List (Fin swings.length × Fin swings.length),
      places.Pairwise (Prod.Lex (· < ·) (· < ·)) ∧
      (∀ i j, (i, j) ∈ places ↔ i < j ∧ options.Joinable swings[i] swings[j]) ∧
      List.Forall₂ (fun place line => line.Joins lookback swings[place.1] swings[place.2])
        places (options.lines lookback swings) := by
  let all := pairs (List.finRange swings.length)
  have ascending : (List.finRange swings.length).Pairwise (· < ·) := List.pairwise_lt_finRange _
  have inside (i : Fin swings.length) : swings[i].index < 2 ^ 53 :=
    bounded _ (List.getElem_mem i.isLt)
  refine ⟨all.filter fun place => options.Joinable swings[place.1] swings[place.2],
    (pairs_pairwise_lex ascending).filter _, fun i j => ?_, ?_⟩
  · simp [all, mem_pairs_iff ascending]
  · have listed : pairs swings = all.map fun place => (swings[place.1], swings[place.2]) := by
      conv_lhs => rw [← List.map_get_finRange swings]
      exact pairs_map swings.get _
    rw [PairOptions.lines, listed, List.filterMap_filter, List.filterMap_map]
    apply forall₂_filter_filterMap
    · rintro ⟨i, j⟩ - joinable
      have joinable := of_decide_eq_true joinable
      have admitted := (PairOptions.joinable_iff.mp joinable).1
      obtain ⟨line, found, joins⟩ :=
        PairOptions.exists_line? lookback joinable (inside i) (inside j)
      exact ⟨line, (if_pos admitted).trans found, joins⟩
    · rintro ⟨i, j⟩ - apart
      have apart := of_decide_eq_false apart
      by_cases admitted : options.admits swings[i] swings[j] = true
      · have same : swings[i].index = swings[j].index := by
          by_contra other
          exact apart (PairOptions.joinable_iff.mpr ⟨admitted, other⟩)
        exact (if_pos admitted).trans (PairOptions.line?_eq_none lookback (inside i) same)
      · exact if_neg admitted

/-- Swings in no order. Two of them stand over one bar, two at one time, and one is a low. -/
def scattered : List (Pivot Float) :=
  [⟨7, 70, 4, .high⟩, ⟨3, 30, 2, .high⟩, ⟨3, 40, 5, .high⟩, ⟨5, 50, 1, .low⟩, ⟨9, 70, 3, .high⟩,
    ⟨12, 120, 6, .high⟩]

theorem lines_join_joinable_scattered :
    (∀ p ∈ scattered, p.index < 2 ^ 53) ∧
    (PairOptions.lines ⟨0, some 6⟩ 2 scattered).map
        (fun line => (line.first.index, line.second.index))
      = [(3, 7), (3, 7), (7, 12), (3, 9), (3, 9), (9, 12)] ∧
    ∃ places : List (Fin scattered.length × Fin scattered.length),
      places.Pairwise (Prod.Lex (· < ·) (· < ·)) ∧
      (∀ i j, (i, j) ∈ places ↔
        i < j ∧ PairOptions.Joinable ⟨0, some 6⟩ scattered[i] scattered[j]) ∧
      List.Forall₂ (fun place line => line.Joins 2 scattered[place.1] scattered[place.2])
        places (PairOptions.lines ⟨0, some 6⟩ 2 scattered) :=
  ⟨by decide, by decide +kernel, lines_join_joinable ⟨0, some 6⟩ 2 (by decide)⟩

end Trendline
