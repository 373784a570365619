import Trendline.Proofs.Decimal.Magnitude
import Trendline.Proofs.Decimal.Written
import Trendline.Proofs.Json.Scaling
import Trendline.Proofs.Json.Values

/-!
Doubles read back from their own digits. The digits are right, but they are rounded to a double
before the power of ten comes in, and so is the result. So a double survives just when the last
exact product or quotient is still nearest to it.
-/

namespace Trendline

open Decimal Double
open Float.Model Float.Model.UnpackedFloat

namespace Number

/-- Digits that fit a word are gathered into the number they make; each moves the power by `k`. -/
theorem foldl_gathered {gather : Gathered → Digit → Gathered} {k : Int}
    (adds : ∀ a e d, 10 * a + d.val < wordCount →
      gather ⟨a, e, false⟩ d = ⟨10 * a + d.val, e - k, false⟩)
    {ds : List Digit} {a : Nat} {e : Int} (fits : a * 10 ^ ds.length + valueOf ds < wordCount) :
    ds.foldl gather ⟨a, e, false⟩
      = ⟨a * 10 ^ ds.length + valueOf ds, e - k * ds.length, false⟩ := by
  induction ds generalizing a e with
  | nil => simp [valueOf]
  | cons d ds ih =>
      have value : a * 10 ^ (d :: ds).length + valueOf (d :: ds)
          = (10 * a + d.val) * 10 ^ ds.length + valueOf ds := by
        rw [← foldl_digits, ← foldl_digits]
        rfl
      rw [value] at fits ⊢
      have less : 10 * a + d.val < wordCount :=
        ((Nat.le_mul_of_pos_right _ (by positivity)).trans (Nat.le_add_right _ _)).trans_lt fits
      rw [List.foldl_cons, adds a e d less, ih fits, List.length_cons]
      congr 1
      push_cast
      ring

theorem foldl_whole {ds : List Digit} (fits : valueOf ds < wordCount) :
    ds.foldl Gathered.whole ⟨0, 0, false⟩ = ⟨valueOf ds, 0, false⟩ := by
  have adds (a : Nat) (e : Int) (d : Digit) (less : 10 * a + d.val < wordCount) :
      Gathered.whole ⟨a, e, false⟩ d = ⟨10 * a + d.val, e - 0, false⟩ := by
    simp [Gathered.whole, Nat.not_le.mpr less]
  rw [foldl_gathered adds (by rwa [Nat.zero_mul, Nat.zero_add]), Nat.zero_mul, Nat.zero_add,
    Int.zero_mul, Int.sub_zero]

theorem foldl_fraction {ds : List Digit} {a : Nat} {e : Int}
    (fits : a * 10 ^ ds.length + valueOf ds < wordCount) :
    ds.foldl Gathered.fraction ⟨a, e, false⟩
      = ⟨a * 10 ^ ds.length + valueOf ds, e - ds.length, false⟩ := by
  have adds (a : Nat) (e : Int) (d : Digit) (less : 10 * a + d.val < wordCount) :
      Gathered.fraction ⟨a, e, false⟩ d = ⟨10 * a + d.val, e - 1, false⟩ := by
    simp [Gathered.fraction, Nat.not_le.mpr less]
  rw [foldl_gathered adds fits, Int.one_mul]

/-- A numeral with a point or a power is read as its digits and its power. -/
theorem ofNumeral?_eq_double? {n : Numeral} (short : n.Short) :
    ofNumeral? n = double? n.negative n.significand n.power := by
  have fits : n.significand < wordCount := short.few.trans_lt (by decide)
  have split : n.significand = valueOf n.whole * 10 ^ n.fraction.length + valueOf n.fraction :=
    valueOf_append _ _
  have front : valueOf n.whole < wordCount := by
    refine ((Nat.le_mul_of_pos_right _ ?_).trans (Nat.le_add_right _ _)).trans_lt (split ▸ fits)
    positivity
  have broken : (n.fraction.isEmpty && n.exponent.isNone) = false := by
    rcases short.broken with some | some <;> simp [some]
  rw [ofNumeral?, foldl_whole front, broken]
  dsimp only
  rw [foldl_fraction (split ▸ fits), ← split, Bool.false_and, if_neg Bool.false_ne_true,
    Numeral.power]
  congr 1
  dsimp only
  omega

/-- Where digits and power are doubles, nothing is rounded before the last step. -/
theorem lastStep_of_brief {n : Nat} {e : Int} (few : n < 2 ^ 53) (near : e.natAbs ≤ 22) :
    lastStep n e = n * 10 ^ e := by
  have digits : number (Scalar.doubleOfCount n) = n := (value_doubleOfCount few).2
  have power : number (powerOfTen e.natAbs) = 10 ^ (e.natAbs : Int) := by
    rw [(number_powerOfTen near).2, zpow_natCast]
  rw [lastStep, digits, power]
  split_ifs with positive small
  · rw [Int.natAbs_of_nonneg positive]
  · have restored : (e.natAbs : Int) = -e := by omega
    rw [restored, zpow_neg, div_inv_eq_mul]
  · omega

end Number

namespace Decimal

namespace Binary

variable {b : Binary}

/-- The numeral of a double in a document, its sign apart. -/
def numeral (b : Binary) : Numeral :=
  Json.layout.ofDigits (b.shortest Json.layout.tie)

theorem wholeDigits_lower (range : b.InRange) : -325 < b.wholeDigits := by
  obtain ⟨-, high⟩ := wholeDigits_spec range
  have least : (2 : ℚ) ^ (-1074 : Int) ≤ b.value :=
    (zpow_le_zpow_right₀ one_le_two range.least).trans
      (le_mul_of_one_le_left (zpow_pos two_pos _).le (Nat.one_le_cast.mpr range.pos))
  have close := ten_zpow_le_two_zpow (k := -324) (l := -1074) (by decide) le_rfl (by decide)
  exact (zpow_lt_zpow_iff_right₀ (by norm_num)).mp ((close.trans least).trans_lt high)

/-- What is written of a double above zero. -/
theorem numeral_spec (range : b.InRange) :
    b.numeral.Short ∧ b.Holds b.numeral.value ∧ 0 < b.numeral.significand ∧
      -616 ≤ b.numeral.power := by
  obtain ⟨holds, some, few, most⟩ := shortest_spec range Json.layout.tie
  obtain ⟨short, value, power⟩ := ofDigits_spec few
  have digits := wholeDigits_lower range
  refine ⟨short, ?_, ?_, ?_⟩
  · rw [numeral, value]
    exact holds
  · have positive : 0 < b.numeral.value := by
      rw [numeral, value]
      exact mul_pos (Nat.cast_pos.mpr some) (zpow_pos (by norm_num) _)
    refine Nat.pos_of_ne_zero fun none => positive.ne' ?_
    rw [Numeral.value, none, Nat.cast_zero, zero_mul]
  · rw [numeral]
    omega

/-- The halfway point above every double but the largest. -/
theorem high_le (range : b.InRange) (inner : ¬ (b.significand = 2 ^ 53 - 1 ∧ b.exponent = 971)) :
    b.high ≤ Number.lastHalfway := by
  have halfway : (Number.lastHalfway : ℚ) = (2 ^ 54 - 3) * 2 ^ (970 : Int) := by
    rw [Number.lastHalfway, Nat.cast_mul, Nat.cast_pow, ← zpow_natCast]
    norm_num
  have unit : (0 : ℚ) < 2 ^ (970 : Int) := zpow_pos two_pos _
  have more : (b.significand : ℚ) + 1 ≤ 2 ^ 53 := by exact_mod_cast range.high
  rw [halfway, high]
  rcases lt_or_eq_of_le range.greatest with less | last
  · have small : (2 : ℚ) ^ b.exponent ≤ 2 ^ (970 : Int) :=
      zpow_le_zpow_right₀ one_le_two (by omega)
    calc (b.significand + 1 / 2) * (2 : ℚ) ^ b.exponent
        ≤ (2 ^ 54 - 3) * 2 ^ b.exponent :=
          mul_le_mul_of_nonneg_right (by linarith) (zpow_pos two_pos _).le
      _ ≤ (2 ^ 54 - 3) * 2 ^ (970 : Int) := mul_le_mul_of_nonneg_left small (by norm_num)
  · have most : (b.significand : ℚ) + 2 ≤ 2 ^ 53 := by
      have := range.high
      have : b.significand + 2 ≤ 2 ^ 53 := by omega
      exact_mod_cast this
    have double : (2 : ℚ) ^ b.exponent = 2 * 2 ^ (970 : Int) := by
      rw [last, show (971 : Int) = 970 + 1 by rfl, zpow_add_one₀ two_ne_zero, mul_comm]
    rw [double, ← mul_assoc]
    exact mul_le_mul_of_nonneg_right (by linarith) unit.le

/-- The largest double. -/
def largest : Binary :=
  ⟨2 ^ 53 - 1, 971, false⟩

theorem eq_largest (range : b.InRange) (full : b.significand = 2 ^ 53 - 1)
    (top : b.exponent = 971) : b = largest := by
  have wide : b.narrowBelow = false := by
    rw [← Bool.not_eq_true, range.narrow, full]
    exact fun narrow => absurd narrow.1 (by decide)
  obtain ⟨m, e, narrow⟩ := b
  cases full
  cases top
  cases wide
  rfl

theorem numeral_largest :
    largest.numeral.significand = 17976931348623157 ∧ largest.numeral.power = 292 := by
  decide +kernel

end Binary

/-- The exact number that is rounded last where the digits of a double are read. -/
def Binary.reread (b : Binary) : ℚ :=
  Number.lastStep b.numeral.significand b.numeral.power

/-- The digits of a double above zero are read as a double. -/
theorem Binary.exists_scale? {b : Binary} (range : b.InRange) :
    ∃ x, Number.scale? 4 (Scalar.doubleOfCount b.numeral.significand) b.numeral.power = some x ∧
      Brought b.reread .positive x.toModel.unpack := by
  by_cases last : b.significand = 2 ^ 53 - 1 ∧ b.exponent = 971
  · -- The product of these digits is above the bound, and yet it is rounded down.
    obtain rfl := eq_largest range last.1 last.2
    have left : IsPositive (Scalar.doubleOfCount 17976931348623157) :=
      isPositive_doubleOfCount (by decide) (by decide)
    have power : IsPositive (Number.powerOfTen 292) := Number.isPositive_powerOfTen (by decide)
    have finite : (Scalar.doubleOfCount 17976931348623157 * Number.powerOfTen 292).isFinite := by
      decide +kernel
    rw [reread, numeral_largest.1, numeral_largest.2]
    exact ⟨_, Number.scale?_of_nonneg (by decide) (by decide) finite, left.mul power⟩
  · obtain ⟨short, holds, some, low⟩ := numeral_spec range
    exact Number.exists_scale? some short.few low (holds.le.2.trans (high_le range last))

end Decimal

namespace Json

variable {x : Float} {b : Binary}

theorem numeral?_of_finite (finite : magnitude x = .finite b) :
    layout.numeral? x = some { b.numeral with negative := isNegative x } := by
  rw [Layout.numeral?, finite, Binary.numeral]

theorem float?_ofFloat (finite : magnitude x = .finite b) (short : b.numeral.Short) :
    float? (ofFloat x) =
      (Number.scale? 4 (Scalar.doubleOfCount b.numeral.significand) b.numeral.power).map
        fun y => if isNegative x then -y else y := by
  have signed : Numeral.Short { b.numeral with negative := isNegative x } :=
    ⟨short.broken, short.few⟩
  rw [ofFloat, numeral?_of_finite finite]
  dsimp only [float?]
  rw [Number.ofNumeral?_eq_double? signed, Number.double?, Option.map_map]
  rfl

/-- Whether a double comes back from its digits: the exact product or quotient that is rounded last
is nearest to it. Nothing is rounded where the double is zero. -/
def Survives (x : Float) : Prop :=
  ∀ b, magnitude x = .finite b → b.Holds b.reread

theorem survives_iff (finite : magnitude x = .finite b) : Survives x ↔ b.Holds b.reread := by
  rw [Survives, finite]
  exact ⟨fun holds => holds b rfl, fun holds _ same => Magnitude.finite.inj same ▸ holds⟩

instance (x : Float) : Decidable (Survives x) :=
  match parts : magnitude x with
  | .finite b => decidable_of_iff (b.Holds b.reread) (survives_iff parts).symm
  | .zero | .infinite | .notANumber => .isTrue fun b same => by
      rw [parts] at same
      cases same

theorem float?_ofFloat_of_zero (zero : magnitude x = .zero) : float? (ofFloat x) = some x := by
  have short : Numeral.Short ⟨isNegative x, [.zero], [.zero], none⟩ :=
    ⟨.inl (List.cons_ne_nil _ _), Nat.zero_le _⟩
  have scaled : Number.scale? 4 (Scalar.doubleOfCount 0) (-1) = some 0 := by decide +kernel
  have numeral : layout.numeral? x = some ⟨isNegative x, [.zero], [.zero], none⟩ := by
    rw [Layout.numeral?, zero]
    rfl
  have unpack := unpack_of_magnitude_zero zero
  rw [signOf] at unpack
  rw [ofFloat, numeral]
  dsimp only [float?]
  rw [Number.ofNumeral?_eq_double? short, Number.double?]
  change ((Number.scale? 4 (Scalar.doubleOfCount 0) (-1)).map _).map _ = _
  rw [scaled, Option.map_some, Option.map_some, Option.some.injEq, Number.toFloat, eq_iff_unpack,
    unpack]
  split_ifs <;> rfl

theorem neg_eq_finite_iff {u : UnpackedFloat} {m : Nat} {e : Int} {positive : 0 < m} :
    u.neg = .finite .negative m e positive ↔ u = .finite .positive m e positive := by
  constructor
  · intro same
    rw [← Double.neg_neg u, same]
    rfl
  · rintro rfl
    rfl

/-- A finite double is always read back as a double, and as itself just if it survives. -/
theorem exists_float?_ofFloat (finite : x.isFinite = true) :
    ∃ y, float? (ofFloat x) = some y ∧ (y = x ↔ Survives x) := by
  rw [isFinite_iff_magnitude] at finite
  cases parts : magnitude x with
  | notANumber => exact absurd parts finite.2
  | infinite => exact absurd parts finite.1
  | zero =>
      refine ⟨x, float?_ofFloat_of_zero parts, iff_of_true rfl fun b same => ?_⟩
      rw [parts] at same
      cases same
  | finite b =>
      obtain ⟨range, positive, unpack⟩ := unpack_of_magnitude parts
      obtain ⟨y, scaled, brought⟩ := Binary.exists_scale? range
      refine ⟨if isNegative x then -y else y, ?_, ?_⟩
      · rw [float?_ofFloat parts (Binary.numeral_spec range).1, scaled, Option.map_some]
      · have whole := unpacked x.toModel
        rw [unpack] at whole
        rw [survives_iff parts, holds_iff_around range, eq_iff_unpack, unpack]
        rw [signOf] at whole ⊢
        split_ifs at whole ⊢
        · rw [unpack_neg, neg_eq_finite_iff]
          exact brought.eq_iff whole.neg
        · exact brought.eq_iff whole

/-- What a double becomes by being written and read. -/
def reread (x : Float) : Float :=
  (float? (ofFloat x)).getD x

theorem float?_ofFloat_eq_reread (finite : x.isFinite = true) :
    float? (ofFloat x) = some (reread x) := by
  obtain ⟨y, read, -⟩ := exists_float?_ofFloat finite
  rw [reread, read, Option.getD_some]

theorem reread_eq_iff (finite : x.isFinite = true) : reread x = x ↔ Survives x := by
  obtain ⟨y, read, same⟩ := exists_float?_ofFloat finite
  rw [reread, read, Option.getD_some, same]

/-- Digits of full length may be read as another double, also those of a whole number. -/
example : Survives 0.1 ∧ ¬ Survives 121.00000000000001 ∧ ¬ Survives 2000000000000001 := by
  decide +kernel

/-- Digits that are a double themselves, and a power of ten that is one. -/
def Brief (x : Float) : Prop :=
  ∀ n, layout.numeral? x = some n → n.significand < 2 ^ 53 ∧ n.power.natAbs ≤ 22

theorem Brief.survives (brief : Brief x) : Survives x := by
  intro b finite
  obtain ⟨range, -⟩ := unpack_of_magnitude finite
  have written := brief _ (numeral?_of_finite finite)
  obtain ⟨few, near⟩ : b.numeral.significand < 2 ^ 53 ∧ b.numeral.power.natAbs ≤ 22 := written
  rw [Binary.reread, Number.lastStep_of_brief few near]
  exact (Binary.numeral_spec range).2.1

end Json

end Trendline
