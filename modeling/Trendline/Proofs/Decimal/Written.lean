import Trendline.Json.Printer
import Trendline.Proofs.Decimal.Shortest

/-!
What a numeral writes: the whole number that all its digits make together, and a power of ten.
Wherever the point stands, the digits of a double and their power make the same number.
-/

namespace Trendline.Decimal

section Digits

theorem foldl_digits (a : Nat) (ds : List Digit) :
    ds.foldl (fun n d => 10 * n + d.val) a = a * 10 ^ ds.length + valueOf ds := by
  induction ds generalizing a with
  | nil => simp [valueOf]
  | cons d ds ih =>
      have start := ih (10 * a + d.val)
      have zero := ih (10 * 0 + d.val)
      simp only [valueOf, List.foldl_cons, List.length_cons] at *
      rw [start, zero]
      ring

theorem valueOf_append (xs ys : List Digit) :
    valueOf (xs ++ ys) = valueOf xs * 10 ^ ys.length + valueOf ys := by
  rw [valueOf, List.foldl_append, foldl_digits]
  rfl

@[simp]
theorem valueOf_replicate_zero (n : Nat) : valueOf (List.replicate n .zero) = 0 := by
  induction n with
  | zero => rfl
  | succ n ih =>
      rw [List.replicate_succ', valueOf_append, ih]
      rfl

@[simp]
theorem valueOf_digitsOf (n : Nat) : valueOf (digitsOf n) = n := by
  fun_induction digitsOf n with
  | case1 n small => simp [valueOf]
  | case2 n large ih =>
      rw [valueOf_append, ih]
      simp only [valueOf, List.foldl_cons, List.foldl_nil, List.length_singleton]
      omega

theorem lt_ten_pow_length (n : Nat) : n < 10 ^ (digitsOf n).length := by
  fun_induction digitsOf n with
  | case1 n small => simpa using small
  | case2 n large ih =>
      rw [List.length_append, List.length_singleton, Nat.pow_succ]
      omega

end Digits

namespace Numeral

/-- The whole number that the digits on both sides of the point make together. -/
def significand (n : Numeral) : Nat :=
  valueOf (n.whole ++ n.fraction)

/-- The power of ten of the last digit. -/
def power (n : Numeral) : Int :=
  (n.exponent.map Exponent.toInt).getD 0 - n.fraction.length

/-- The number that is written, its sign apart. -/
def value (n : Numeral) : ℚ :=
  n.significand * 10 ^ n.power

end Numeral

@[simp]
theorem Exponent.toInt_ofInt (e : Int) : (ofInt e).toInt = e := by
  rcases Int.lt_or_le e 0 with negative | natural
  · have restored : -(e.natAbs : Int) = e := by omega
    simpa [toInt, ofInt, negative] using restored
  · have restored : (e.natAbs : Int) = e := by omega
    simpa [toInt, ofInt, not_lt.mpr natural] using restored

namespace Digits

variable {d : Digits}

theorem scientific_parts (d : Digits) :
    d.scientific.significand = d.digits ∧ d.scientific.power = d.exponent := by
  have some := List.length_pos_iff.mpr (digitsOf_ne_nil d.digits)
  constructor
  · rw [Numeral.significand, scientific, List.take_append_drop, valueOf_digitsOf]
  · simp [scientific, Numeral.power]
    omega

/-- A whole number has a zero behind the point and is written out, every other is written with
its digits alone. -/
theorem positional_parts (d : Digits) :
    (d.positional [.zero]).significand = d.digits ∧ (d.positional [.zero]).power = d.exponent ∨
      0 ≤ d.exponent ∧
        (d.positional [.zero]).significand = d.digits * 10 ^ (d.exponent.toNat + 1) ∧
        (d.positional [.zero]).power = -1 := by
  fun_cases positional [.zero] d with
  | case1 ds point below =>
      have zeros : valueOf ([.zero] ++ (List.replicate (-point).toNat .zero ++ ds)) = d.digits := by
        have front : valueOf [.zero] = 0 := rfl
        simp only [valueOf_append, front, valueOf_replicate_zero, ds, valueOf_digitsOf,
          Nat.zero_mul, Nat.zero_add]
      refine .inl ⟨zeros, ?_⟩
      simp [Numeral.power, ds, point] at below ⊢
      omega
  | case2 ds point above fraction =>
      refine .inl ⟨?_, ?_⟩
      · simp only [Numeral.significand, List.take_append_drop, ds, valueOf_digitsOf]
      · simp [Numeral.power, ds, point] at above ⊢
        omega
  | case3 ds point above whole =>
      refine .inr ⟨by omega, ?_, rfl⟩
      simp only [Numeral.significand, ds, valueOf_append, valueOf_digitsOf, List.length_replicate,
        valueOf_replicate_zero, List.length_singleton, Nat.add_zero, Nat.pow_succ]
      exact Nat.mul_assoc _ _ _

theorem fraction_positional_ne_nil (d : Digits) : (d.positional [.zero]).fraction ≠ [] := by
  fun_cases positional [.zero] d with
  | case1 ds point below => simp [ds, digitsOf_ne_nil]
  | case2 ds point above fraction =>
      have front : point.toNat < ds.length := by omega
      exact fun none => absurd (List.drop_eq_nil_iff.mp none) (not_le.mpr front)
  | case3 ds point above whole => exact List.cons_ne_nil _ _

end Digits

/-- What reading asks of a numeral that writes a double: it is not taken for a whole number, and
seventeen digits suffice. -/
structure Numeral.Short (n : Numeral) : Prop where
  broken : n.fraction ≠ [] ∨ n.exponent.isSome
  few : n.significand ≤ 10 ^ 17

/-- The numeral of a double in a document. -/
theorem ofDigits_spec {d : Digits} (few : d.digits ≤ 10 ^ 17) :
    (Json.layout.ofDigits d).Short ∧ (Json.layout.ofDigits d).value = d.value ∧
      min d.exponent (-1) ≤ (Json.layout.ofDigits d).power := by
  rw [Layout.ofDigits]
  dsimp only [Json.layout]
  split_ifs with inside
  · simp only [Bool.and_eq_true, decide_eq_true_eq] at inside
    have broken := d.fraction_positional_ne_nil
    rcases d.positional_parts with ⟨digits, power⟩ | ⟨whole, digits, power⟩
    · refine ⟨⟨.inl broken, digits.trans_le few⟩, ?_, ?_⟩
      · rw [Numeral.value, digits, power, Digits.value]
      · rw [power]
        exact min_le_left _ _
    · obtain ⟨k, exponent⟩ := Int.eq_ofNat_of_zero_le whole
      rw [exponent, Int.toNat_natCast] at digits
      refine ⟨⟨.inl broken, digits.trans_le ?_⟩, ?_, ?_⟩
      · calc d.digits * 10 ^ (k + 1)
            ≤ 10 ^ (digitsOf d.digits).length * 10 ^ (k + 1) :=
              Nat.mul_le_mul_right _ (Nat.le_of_lt (lt_ten_pow_length d.digits))
          _ = 10 ^ ((digitsOf d.digits).length + (k + 1)) := (Nat.pow_add ..).symm
          _ ≤ 10 ^ 17 := Nat.pow_le_pow_right (by decide) (by omega)
      · rw [Numeral.value, digits, power, Digits.value, exponent]
        push_cast
        rw [zpow_natCast, zpow_neg_one, pow_succ]
        ring
      · rw [power]
        exact min_le_right _ _
  · obtain ⟨digits, power⟩ := d.scientific_parts
    refine ⟨⟨.inr rfl, digits.trans_le few⟩, ?_, ?_⟩
    · rw [Numeral.value, digits, power, Digits.value]
    · rw [power]
      exact min_le_left _ _

end Trendline.Decimal
