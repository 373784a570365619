import Mathlib
import Trendline.Decimal.Layout

/-!
Numerals as the grammar of documents has them. A whole number has no zero in front; the shortest
digits of a double are never all zero, so moving the point leaves none in front either.
-/

namespace Trendline.Decimal

/-- No zero in front of other digits, and digits wherever there is a power of ten. -/
structure Numeral.WellWritten (n : Numeral) : Prop where
  whole_ne_nil : n.whole ≠ []
  whole_head : n.whole.head? = some 0 → n.whole.length = 1
  exponent_ne_nil : ∀ e ∈ n.exponent, e.digits ≠ []

section Digits

theorem digitsOf_of_lt {n : Nat} (small : n < 10) : digitsOf n = [⟨n, small⟩] := by
  rw [digitsOf, dif_pos small]

theorem digitsOf_ne_nil (n : Nat) : digitsOf n ≠ [] := by
  fun_cases digitsOf n with
  | case1 => exact List.cons_ne_nil _ _
  | case2 => exact List.append_ne_nil_of_right_ne_nil _ (List.cons_ne_nil _ _)

/-- Only zero is written with a zero in front. -/
theorem eq_zero_of_head?_digitsOf {n : Nat} (head : (digitsOf n).head? = some 0) : n = 0 := by
  fun_induction digitsOf n with
  | case1 n small => simpa [Fin.ext_iff] using head
  | case2 n large ih =>
      rw [List.head?_append, Option.or_of_isSome (by simp [digitsOf_ne_nil])] at head
      have := ih head
      omega

theorem length_digitsOf_of_head? {n : Nat} (head : (digitsOf n).head? = some 0) :
    (digitsOf n).length = 1 := by
  rw [eq_zero_of_head?_digitsOf head, digitsOf_of_lt (by decide)]
  rfl

end Digits

theorem Numeral.wellWritten_ofInt (i : Int) : (ofInt i).WellWritten :=
  ⟨digitsOf_ne_nil _, length_digitsOf_of_head?, nofun⟩

section Finite

open Float.Model

/-- The stored exponent of a double, as its bits are cut apart. -/
theorem toNat_unpackExponent (b : BitVec 64) :
    (@UnpackedFloat.unpackExponent Format.binary64 b).toNat
      = b.toNat % halfWordCount / fractionCount := by
  rw [UnpackedFloat.unpackExponent, BitVec.toNat_cast, BitVec.extractLsb_toNat,
    Nat.shiftRight_eq_div_pow]
  simp only [halfWordCount, fractionCount, Format.binary64]
  omega

theorem isFinite_unpack_iff (b : BitVec 64) :
    (UnpackedFloat.unpack Format.binary64 b).isFinite = true ↔
      b.toNat % halfWordCount / fractionCount ≠ 2047 := by
  have top : (@UnpackedFloat.unpackExponent Format.binary64 b).toNat = 2047
      ↔ @UnpackedFloat.unpackExponent Format.binary64 b = -1#11 := by
    rw [← BitVec.toNat_inj]
    rfl
  rw [← toNat_unpackExponent, Ne, top, UnpackedFloat.unpack]
  simp only
  split
  · split <;> simp_all [UnpackedFloat.isFinite]
  · split
    · split <;> simp_all [UnpackedFloat.isFinite]
    · simp_all [UnpackedFloat.isFinite]

theorem isFinite_iff {x : Float} :
    x.isFinite = true ↔ x.toBits.toNat % halfWordCount / fractionCount ≠ 2047 :=
  isFinite_unpack_iff x.toBits.toBitVec

theorem isFinite_iff_magnitude {x : Float} :
    x.isFinite = true ↔ magnitude x ≠ .infinite ∧ magnitude x ≠ .notANumber := by
  rw [isFinite_iff, magnitude]
  generalize x.toBits.toNat % halfWordCount = bits
  split
  · refine iff_of_false (not_not_intro ‹_›) ?_
    split <;> simp
  · refine iff_of_true ‹_› ?_
    split
    · split <;> simp
    · simp

/-- The doubles with a numeral are the finite ones. -/
theorem Layout.numeral?_eq_none_iff {layout : Layout} {x : Float} :
    layout.numeral? x = none ↔ x.isFinite = false := by
  rw [← Bool.not_eq_true, isFinite_iff_magnitude, numeral?]
  cases magnitude x <;> simp

end Finite

section Shortest

theorem significand_pos {x : Float} {b : Binary} (finite : magnitude x = .finite b) :
    0 < b.significand := by
  simp only [magnitude] at finite
  split at finite
  · split at finite <;> cases finite
  · split at finite
    · split at finite
      · cases finite
      · cases finite
        exact Nat.pos_of_ne_zero ‹_›
    · cases finite
      exact Nat.add_pos_right _ (by decide)

/-- Zero is not among the decimals that read back as a double. -/
theorem Binary.not_readsBack_zero {b : Binary} (pos : 0 < b.significand) (e : Int) :
    (b.scale e).readsBack 0 = false := by
  have low : 0 < (b.scale e).low := by
    have : 0 < 4 * b.significand - if b.narrowBelow then 1 else 2 := by split <;> omega
    exact Nat.mul_pos this (Nat.mul_pos (Nat.pow_pos (by decide)) (Nat.pow_pos (by decide)))
  simp only [Scaled.readsBack, Nat.zero_mul]
  split
  all_goals simp [Nat.not_le.2 low]

theorem Scaled.readsBack_of_nearest? {s : Scaled} {tie : Tie} {d : Nat}
    (nearest : s.nearest? tie = some d) : s.readsBack d = true := by
  simp only [Scaled.nearest?] at nearest
  split at nearest
  · split at nearest
    · simp_all
    · simp_all
    · split at nearest <;> simp_all
  all_goals simp_all

/-- Digits that are not all zero. -/
theorem Digits.trim_ne_zero {fuel : Nat} {d : Digits} (nonzero : d.digits ≠ 0) :
    (d.trim fuel).digits ≠ 0 := by
  fun_induction trim fuel d with
  | case1 => exact nonzero
  | case2 fuel d zeros ih =>
      simp only [Bool.and_eq_true, decide_eq_true_eq] at zeros
      exact ih (by simp only; omega)
  | case3 => exact nonzero

/-- The shortest digits of a double, or nothing at all. -/
theorem Binary.shortest_digits {b : Binary} (pos : 0 < b.significand) (tie : Tie) :
    (b.shortest tie).digits ≠ 0 ∨ b.shortest tie = ⟨0, 0⟩ := by
  rw [shortest]
  generalize search : List.findSome? _ _ = found
  cases found with
  | none => exact .inr rfl
  | some d =>
      obtain ⟨count, _, found⟩ := List.exists_of_findSome?_eq_some search
      obtain ⟨n, nearest, rfl⟩ := Option.map_eq_some_iff.1 found
      refine .inl (Digits.trim_ne_zero fun zero => ?_)
      have readsBack := Scaled.readsBack_of_nearest? nearest
      simp only at zero
      rw [zero, not_readsBack_zero pos] at readsBack
      cases readsBack

end Shortest

section Layouts

theorem Digits.wellWritten_positional {d : Digits} (zero : d.digits = 0 → d.exponent ≤ 0)
    (wholeFraction : List Digit) : (d.positional wholeFraction).WellWritten := by
  have nonempty := List.length_pos_iff.2 (digitsOf_ne_nil d.digits)
  fun_cases positional wholeFraction d with
  | case1 => exact ⟨List.cons_ne_nil _ _, fun _ => rfl, nofun⟩
  | case2 ds point above fraction =>
      have take : (ds.take point.toNat).head? = ds.head? := by
        rw [List.head?_take, if_neg (by omega)]
      refine ⟨?_, fun head => ?_, nofun⟩
      · simpa [List.take_eq_nil_iff, ds, digitsOf_ne_nil] using above
      · have := length_digitsOf_of_head? (take ▸ head)
        simp only [List.length_take, ds] at *
        omega
  | case3 ds point above whole =>
      refine ⟨?_, fun head => ?_, nofun⟩
      · simp [ds, digitsOf_ne_nil]
      · rw [List.head?_append, Option.or_of_isSome (by simp [ds, digitsOf_ne_nil])] at head
        have := zero (eq_zero_of_head?_digitsOf head)
        have := length_digitsOf_of_head? head
        simp only [List.length_append, List.length_replicate, ds] at *
        omega

theorem Digits.wellWritten_scientific (d : Digits) : d.scientific.WellWritten := by
  obtain ⟨first, rest, digits⟩ := List.exists_cons_of_ne_nil (digitsOf_ne_nil d.digits)
  refine ⟨?_, fun _ => ?_, ?_⟩
  · simp [scientific, digits]
  · simp [scientific, digits]
  · simp [scientific, Exponent.ofInt, digitsOf_ne_nil]

theorem Numeral.WellWritten.withSign {n : Numeral} (written : n.WellWritten) (negative : Bool) :
    Numeral.WellWritten { n with negative } :=
  ⟨written.whole_ne_nil, written.whole_head, written.exponent_ne_nil⟩

theorem Layout.wellWritten_shortest (layout : Layout) {b : Binary} (pos : 0 < b.significand) :
    (layout.ofDigits (b.shortest layout.tie)).WellWritten := by
  have zero : (b.shortest layout.tie).digits = 0 → (b.shortest layout.tie).exponent ≤ 0 := by
    rcases b.shortest_digits pos layout.tie with nonzero | none
    · exact fun zero => absurd zero nonzero
    · exact fun _ => none ▸ Int.le_refl 0
  fun_cases ofDigits layout (b.shortest layout.tie) with
  | case1 => exact Digits.wellWritten_positional zero _
  | case2 => exact Digits.wellWritten_positional zero _
  | case3 => exact Digits.wellWritten_scientific _

/-- Every finite double is written as a numeral of documents. -/
theorem Layout.wellWritten_of_numeral? {layout : Layout} {x : Float} {n : Numeral}
    (written : layout.numeral? x = some n) : n.WellWritten := by
  revert written
  fun_cases numeral? layout x with
  | case1 | case2 => nofun
  | case3 =>
      rintro ⟨⟩
      exact ⟨List.cons_ne_nil _ _, fun _ => rfl, nofun⟩
  | case4 b finite =>
      rintro ⟨⟩
      exact (layout.wellWritten_shortest (significand_pos finite)).withSign _

end Layouts

end Trendline.Decimal
