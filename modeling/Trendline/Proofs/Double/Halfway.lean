import Trendline.Proofs.Double.Monotone

/-!
Which exact results are rounded to a double: those up to the halfway points to its neighbours, and
these points themselves if its significand is even. This holds of products and of quotients, whose
digits need not end.
-/

namespace Trendline

namespace Double

open Float.Model Float.Model.UnpackedFloat
open Float.Model.UnpackedFloat.ExtendedMantissa
open ExtendedMantissa

variable {em : ExtendedMantissa} {q : ℚ} {m n k l : Nat} {e d t t' : Int} {s : Sign}

/-- Between two numbers, the ends included if `closed`. -/
def Between (closed : Prop) (low high q : ℚ) : Prop :=
  closed ∧ low ≤ q ∧ q ≤ high ∨ low < q ∧ q < high

instance {closed : Prop} [Decidable closed] (low high q : ℚ) :
    Decidable (Between closed low high q) :=
  inferInstanceAs (Decidable (_ ∨ _))

/-- The whole number nearest to `q`, the even one of two. -/
def IsNearest (k : Nat) (q : ℚ) : Prop :=
  Between (k % 2 = 0) (k - 1 / 2) (k + 1 / 2) q

theorem Between.le {closed : Prop} {low high : ℚ} (h : Between closed low high q) :
    low ≤ q ∧ q ≤ high := by
  rcases h with ⟨-, h⟩ | h
  · exact h
  · exact ⟨h.1.le, h.2.le⟩

theorem IsNearest.mono {r : ℚ} (left : IsNearest k q) (right : IsNearest l r) (le : q ≤ r) :
    k ≤ l := by
  by_contra less
  have next : (l : ℚ) + 1 ≤ k := by exact_mod_cast not_le.mp less
  -- Both must lie at the point halfway between, and only one of them is even.
  rcases left with ⟨even, low, high⟩ | ⟨low, high⟩ <;>
    rcases right with ⟨even', low', high'⟩ | ⟨low', high'⟩
  · have same : (k : ℚ) = l + 1 := by linarith
    have same : k = l + 1 := by exact_mod_cast same
    omega
  all_goals linarith

theorem IsNearest.unique (left : IsNearest k q) (right : IsNearest l q) : k = l :=
  le_antisymm (left.mono right le_rfl) (right.mono left le_rfl)

/-! What a significand and its residue tell about the exact value -/

/-- The value is the significand, lies below, at or above the halfway point behind it. -/
inductive Traces : ExtendedMantissa → ℚ → Prop
  | exact (m : Nat) : Traces ⟨m, false, false⟩ m
  | below {m : Nat} {q : ℚ} (low : (m : ℚ) < q) (high : q < m + 1 / 2) : Traces ⟨m, false, true⟩ q
  | half (m : Nat) : Traces ⟨m, true, false⟩ (m + 1 / 2)
  | above {m : Nat} {q : ℚ} (low : (m : ℚ) + 1 / 2 < q) (high : q < m + 1) :
      Traces ⟨m, true, true⟩ q

namespace Traces

theorem whole (h : Traces em q) : (em.mantissa : ℚ) ≤ q ∧ q < em.mantissa + 1 := by
  cases h with
  | exact m | half m => constructor <;> linarith
  | below low high | above low high => constructor <;> linarith

/-- A quotient of whole numbers, as a whole number and what is left over. -/
theorem fraction (positive : 0 < n) :
    Traces (ofMantissaAndAccuracy (m / n) (accuracyOfFraction (m % n) n)) ((m : ℚ) / n) := by
  have divisor : (0 : ℚ) < n := Nat.cast_pos.mpr positive
  have less : ((m % n : Nat) : ℚ) < n := Nat.cast_lt.mpr (Nat.mod_lt m positive)
  have parts : (m : ℚ) = n * (m / n : Nat) + (m % n : Nat) := by
    exact_mod_cast (Nat.div_add_mod m n).symm
  rw [parts, accuracyOfFraction]
  generalize m / n = c at *
  generalize m % n = r at *
  have value : ((n : ℚ) * c + r) / n = c + r / n := by
    rw [add_div, mul_div_cancel_left₀ _ divisor.ne']
  rw [value]
  split_ifs with none
  · rw [none, Nat.cast_zero, zero_div, add_zero]
    exact .exact c
  · have some : (0 : ℚ) < r / n := div_pos (Nat.cast_pos.mpr (Nat.pos_of_ne_zero none)) divisor
    have below : (r : ℚ) / n < 1 := (div_lt_one divisor).mpr less
    cases order : compare (2 * r) n with
    | lt =>
        have small : (2 * r : ℚ) < n := by exact_mod_cast Nat.compare_eq_lt.mp order
        have : (r : ℚ) / n < 1 / 2 := by rw [div_lt_div_iff₀ divisor two_pos]; linarith
        exact .below (by linarith) (by linarith)
    | eq =>
        have same : (2 * r : ℚ) = n := by exact_mod_cast Nat.compare_eq_eq.mp order
        have : (r : ℚ) / n = 1 / 2 := by rw [div_eq_div_iff divisor.ne' two_ne_zero]; linarith
        rw [this]
        exact .half c
    | gt =>
        have large : (n : ℚ) < 2 * r := by exact_mod_cast Nat.compare_eq_gt.mp order
        have : 1 / 2 < (r : ℚ) / n := by rw [div_lt_div_iff₀ two_pos divisor]; linarith
        exact .above (by linarith) (by linarith)

theorem shiftRightOne (h : Traces em q) : Traces em.shiftRightOne (q / 2) := by
  obtain ⟨c, parity⟩ : ∃ c, em.mantissa = 2 * c ∨ em.mantissa = 2 * c + 1 :=
    ⟨em.mantissa / 2, by omega⟩
  -- Half of an even significand leaves the value below the middle, half of an odd one past it.
  rcases parity with even | odd
  · have shifted : em.shiftRightOne = ⟨c, false, em.roundBit || em.stickyBit⟩ := by
      rw [ExtendedMantissa.shiftRightOne, even, Nat.mul_div_cancel_left c two_pos,
        Nat.mul_mod_right]
      rfl
    have double : (em.mantissa : ℚ) = 2 * c := by exact_mod_cast even
    rw [shifted]
    cases h with
    | exact m =>
        rw [double, mul_div_cancel_left₀ _ two_ne_zero]
        exact .exact c
    | below low high | above low high => exact .below (by linarith) (by linarith)
    | half m => exact .below (by linarith) (by linarith)
  · have shifted : em.shiftRightOne = ⟨c, true, em.roundBit || em.stickyBit⟩ := by
      rw [ExtendedMantissa.shiftRightOne, odd, Nat.mul_add_div two_pos, Nat.mul_add_mod]
      rfl
    have double : (em.mantissa : ℚ) = 2 * c + 1 := by exact_mod_cast odd
    rw [shifted]
    cases h with
    | exact m =>
        rw [double, add_div, mul_div_cancel_left₀ _ two_ne_zero]
        exact .half c
    | below low high | above low high => exact .above (by linarith) (by linarith)
    | half m => exact .above (by linarith) (by linarith)

theorem shiftRight (h : Traces em q) (n : Nat) : Traces (em >>> n) (q / 2 ^ n) := by
  induction n with
  | zero =>
      rw [pow_zero, div_one]
      exact h
  | succ n ih =>
      rw [pow_succ, ← div_div]
      exact ih.shiftRightOne

/-- The rounded significand is the whole number nearest to the value. -/
theorem isNearest (h : Traces em q) : IsNearest em.roundedMantissa q := by
  cases h with
  | exact m =>
      change IsNearest m m
      exact .inr ⟨by linarith, by linarith⟩
  | @below m q low high =>
      change IsNearest m q
      exact .inr ⟨by linarith, by linarith⟩
  | half m =>
      change IsNearest (m + m % 2) _
      refine .inl ⟨by omega, ?_⟩
      rcases Nat.mod_two_eq_zero_or_one m with even | odd
      · rw [even, Nat.add_zero]
        constructor <;> linarith
      · rw [odd, Nat.cast_succ]
        constructor <;> linarith
  | @above m q low high =>
      change IsNearest (m + 1) q
      refine .inr ⟨?_, ?_⟩ <;> rw [Nat.cast_succ] <;> linarith

end Traces

/-! Rounding an exact value -/

/-- The exponent of the last bit that a double near `q` has. -/
structure Spans (q : ℚ) (t : Int) : Prop where
  least : -1074 ≤ t
  high : q < 2 ^ (53 + t)
  low : -1074 < t → 2 ^ (52 + t) ≤ q

/-- The double, with this sign, that a positive exact value is rounded to. -/
def Brought (q : ℚ) (s : Sign) (u : UnpackedFloat) : Prop :=
  ∃ k t, Spans q t ∧ IsNearest k (q / 2 ^ t) ∧ u = (Float.Model.pack (settled s k t)).unpack

theorem Spans.mono {r : ℚ} (left : Spans q t) (right : Spans r t') (le : q ≤ r) : t ≤ t' := by
  by_contra less
  have low := left.low (by have := right.least; omega)
  have := (zpow_lt_zpow_iff_right₀ one_lt_two).mp ((low.trans le).trans_lt right.high)
  omega

theorem Spans.unique (left : Spans q t) (right : Spans q t') : t = t' :=
  le_antisymm (left.mono right le_rfl) (right.mono left le_rfl)

theorem zpow_le_of_log2 (positive : 0 < n) (whole : (n : ℚ) ≤ q / 2 ^ e) :
    (2 : ℚ) ^ (n.log2 + e) ≤ q :=
  (zpow_le_mul_zpow positive e).trans ((le_div_iff₀ (zpow_pos two_pos e)).mp whole)

theorem lt_zpow_of_log2 (whole : q / 2 ^ e < n + 1) : q < 2 ^ (n.log2 + 1 + e) := by
  rw [div_lt_iff₀ (zpow_pos two_pos e)] at whole
  refine whole.trans_le ?_
  rw [← Nat.cast_succ, ← Nat.cast_succ, ← natCast_two_pow_mul_zpow,
    mul_le_mul_iff_left₀ (zpow_pos two_pos e), Nat.cast_le]
  exact Nat.lt_log2_self

/-- What has all the bits that a double of its size has is rounded to the nearest one. -/
theorem brought_roundWithAccuracy {accuracy : Accuracy}
    (traces : Traces (ofMantissaAndAccuracy n accuracy) (q / 2 ^ e)) (enough : e ≤ lastBit n e) :
    Brought q s (Float.Model.pack (roundWithAccuracy Format.binary64 s n e accuracy)).unpack := by
  obtain ⟨low, high⟩ := traces.whole
  rw [mantissa_ofMantissaAndAccuracy] at low high
  have last : lastBit n e = e + (lastBit n e - e).toNat := by omega
  refine ⟨_, e + (lastBit n e - e).toNat, ?_, ?_, congrArg (fun u => (Float.Model.pack u).unpack)
    (roundWithAccuracy_eq_settled s n e accuracy)⟩
  · rw [← last]
    unfold lastBit at *
    refine ⟨le_max_right _ _, ?_, fun above => ?_⟩
    · exact (lt_zpow_of_log2 high).trans_le (zpow_le_zpow_right₀ one_le_two (by omega))
    · have positive : 0 < n := by
        refine Nat.pos_of_ne_zero ?_
        rintro rfl
        rw [Nat.log2_zero] at enough above
        omega
      exact (zpow_le_zpow_right₀ one_le_two (by omega)).trans (zpow_le_of_log2 positive low)
  · have shifted := (traces.shiftRight (lastBit n e - e).toNat).isNearest
    rw [div_div, ← zpow_natCast, ← zpow_add₀ two_ne_zero] at shifted
    exact shifted

/-! The numbers that are rounded to one double -/

theorem Spans.fills (spans : Spans q t) (nearest : IsNearest k (q / 2 ^ t)) : Fills k t := by
  obtain ⟨low, high⟩ := nearest.le
  refine ⟨spans.least, ?_, fun above => ?_⟩
  · have below : q / 2 ^ t < 2 ^ 53 := by
      rw [div_lt_iff₀ (zpow_pos two_pos t), ← zpow_natCast, ← zpow_add₀ two_ne_zero]
      exact spans.high
    have less : (k : ℚ) < (2 ^ 53 + 1 : Nat) := by
      push_cast
      linarith
    exact Nat.le_of_lt_succ (Nat.cast_lt.mp less)
  · have reached : 2 ^ 52 ≤ q / 2 ^ t := by
      rw [le_div_iff₀ (zpow_pos two_pos t), ← zpow_natCast, ← zpow_add₀ two_ne_zero]
      exact spans.low above
    have less : ((2 ^ 52 : Nat) : ℚ) < (k + 1 : Nat) := by
      push_cast
      linarith
    exact Nat.le_of_lt_succ (Nat.cast_lt.mp less)

theorem pack_eq_iff {positive : 0 < m} {some : 0 < n} (h : Unpacked (.finite s m e positive))
    (fills : Fills n d) (high : n < 2 ^ 53) :
    (Float.Model.pack (.finite s n d some)).unpack = .finite s m e positive ↔ n = m ∧ d = e := by
  constructor
  · intro same
    have fits : d ≤ 971 := by
      by_contra large
      rw [unpack_pack_overflow (by omega)] at same
      cases same
    have unpacked : Unpacked (.finite s n d some) := by
      by_cases small : n < 2 ^ 52
      · have low := fills.low
        obtain rfl : d = -1074 := by have := fills.least; omega
        exact .subnormal s small some
      · exact .normal s ⟨by omega, high, fills.least, fits⟩ some
    rw [unpacked.unpack_pack, UnpackedFloat.finite.injEq] at same
    exact same.2
  · rintro ⟨rfl, rfl⟩
    exact h.unpack_pack

theorem pack_settled_eq_iff {positive : 0 < m} (h : Unpacked (.finite s m e positive))
    (fills : Fills k t) :
    (Float.Model.pack (settled s k t)).unpack = .finite s m e positive ↔ Settles k t m e := by
  rcases Nat.eq_zero_or_pos k with rfl | some
  · rw [settled_zero, (Unpacked.zero s).unpack_pack, Settles]
    exact iff_of_false UnpackedFloat.noConfusion (by omega)
  · rcases Nat.lt_or_eq_of_le fills.high with less | rfl
    · rw [settled_of_lt less fills.least some, pack_eq_iff h fills less, Settles]
      omega
    · have least : -1074 ≤ t + 1 := by have := fills.least; omega
      have next : Fills (2 ^ 52) (t + 1) := ⟨least, by decide, fun _ => le_rfl⟩
      rw [settled_full fills.least, pack_eq_iff h next (by decide), Settles]
      omega

/-- The numbers that are nearer to `m * 2 ^ e` than to its neighbours. Below a power of two the
neighbour is only half as far. -/
def Around (m : Nat) (e : Int) (q : ℚ) : Prop :=
  Between (m % 2 = 0) ((m - if m = 2 ^ 52 ∧ -1074 < e then 1 / 4 else 1 / 2) * 2 ^ e)
    ((m + 1 / 2) * 2 ^ e) q

theorem around_iff : Around m e q ↔
    Between (m % 2 = 0) (m - if m = 2 ^ 52 ∧ -1074 < e then 1 / 4 else 1 / 2) (m + 1 / 2)
      (q / 2 ^ e) := by
  have unit : (0 : ℚ) < 2 ^ e := zpow_pos two_pos e
  simp only [Around, Between, le_div_iff₀ unit, div_le_iff₀ unit, lt_div_iff₀ unit,
    div_lt_iff₀ unit]

theorem spans_iff : Spans q t ↔
    -1074 ≤ t ∧ q / 2 ^ t < 2 ^ 53 ∧ (-1074 < t → 2 ^ 52 ≤ q / 2 ^ t) := by
  have unit : (0 : ℚ) < 2 ^ t := zpow_pos two_pos t
  have power (n : Nat) : (2 : ℚ) ^ n * 2 ^ t = 2 ^ (n + t) := by
    rw [zpow_add₀ two_ne_zero, zpow_natCast]
  rw [div_lt_iff₀ unit, le_div_iff₀ unit, power, power]
  exact ⟨fun h => ⟨h.least, h.high, h.low⟩, fun ⟨least, high, low⟩ => ⟨least, high, low⟩⟩

theorem Unpacked.fills {positive : 0 < m} (h : Unpacked (.finite s m e positive)) :
    Fills m e ∧ m < 2 ^ 53 := by
  cases h with
  | subnormal _ small => exact ⟨⟨le_rfl, by omega, fun above => (lt_irrefl _ above).elim⟩, by omega⟩
  | normal _ normal =>
      exact ⟨⟨normal.least, Nat.le_of_lt normal.high, fun _ => normal.low⟩, normal.high⟩

theorem div_zpow_sub_one (q : ℚ) (e : Int) : q / 2 ^ (e - 1) = 2 * (q / 2 ^ e) := by
  rw [zpow_sub_one₀ two_ne_zero]
  field_simp

theorem Around.exists_settles {positive : 0 < m} (h : Unpacked (.finite s m e positive))
    (around : Around m e q) :
    ∃ k t, Spans q t ∧ IsNearest k (q / 2 ^ t) ∧ Settles k t m e := by
  obtain ⟨⟨least, -, low⟩, high⟩ := h.fills
  have ends := (around_iff.mp around).le
  have upper : (m : ℚ) + 1 ≤ 2 ^ 53 := by exact_mod_cast high
  by_cases below : m = 2 ^ 52 ∧ -1074 < e ∧ q / 2 ^ e < 2 ^ 52
  -- Below a power of two the last bit is the next one, and rounding up fills one more.
  · obtain ⟨rfl, above, less⟩ := below
    rw [if_pos ⟨rfl, above⟩] at ends
    push_cast at ends
    have double := div_zpow_sub_one q e
    refine ⟨2 ^ 53, e - 1, spans_iff.mpr ⟨by omega, ?_, fun _ => ?_⟩, .inl ⟨by decide, ?_, ?_⟩,
      .inr ⟨rfl, rfl, by omega⟩⟩
    all_goals
      rw [double]
      push_cast
      linarith
  · refine ⟨m, e, spans_iff.mpr ⟨least, by linarith, fun above => ?_⟩, ?_, .inl ⟨high, rfl, rfl⟩⟩
    · by_contra less
      have one : m ≠ 2 ^ 52 := fun full => below ⟨full, above, not_le.mp less⟩
      rw [if_neg fun narrow => one narrow.1] at ends
      have more : ((2 ^ 52 + 1 : Nat) : ℚ) ≤ m := Nat.cast_le.mpr (by have := low above; omega)
      push_cast at more
      linarith
    · by_cases narrow : m = 2 ^ 52 ∧ -1074 < e
      · obtain ⟨rfl, above⟩ := narrow
        have : 2 ^ 52 ≤ q / 2 ^ e := not_lt.mp fun less => below ⟨rfl, above, less⟩
        push_cast at ends
        refine .inl ⟨by decide, ?_, ?_⟩
        all_goals
          push_cast
          linarith
      · have whole := around_iff.mp around
        rwa [if_neg narrow] at whole

theorem around_of_settles {positive : 0 < m} (h : Unpacked (.finite s m e positive))
    (spans : Spans q t) (nearest : IsNearest k (q / 2 ^ t)) (settles : Settles k t m e) :
    Around m e q := by
  rw [spans_iff] at spans
  rw [around_iff]
  rcases settles with ⟨-, rfl, rfl⟩ | ⟨rfl, rfl, rfl⟩
  · split_ifs with narrow
    · obtain ⟨rfl, above⟩ := narrow
      have reached := spans.2.2 above
      have ends := nearest.le
      push_cast at ends ⊢
      exact .inl ⟨by decide, by linarith, ends.2⟩
    · exact nearest
  · have double := div_zpow_sub_one q (t + 1)
    rw [add_sub_cancel_right] at double
    rw [double] at nearest spans
    have ends := nearest.le
    have above : -1074 < t + 1 := by omega
    rw [if_pos ⟨rfl, above⟩]
    push_cast at ends ⊢
    exact .inl ⟨by decide, by linarith, by linarith⟩

theorem Brought.eq_iff {u : UnpackedFloat} {positive : 0 < m}
    (h : Unpacked (.finite s m e positive)) (brought : Brought q s u) :
    u = .finite s m e positive ↔ Around m e q := by
  obtain ⟨k, t, spans, nearest, rfl⟩ := brought
  rw [pack_settled_eq_iff h (spans.fills nearest)]
  refine ⟨around_of_settles h spans nearest, fun around => ?_⟩
  obtain ⟨k', t', spans', nearest', settles⟩ := around.exists_settles h
  obtain rfl := spans.unique spans'
  obtain rfl := nearest.unique nearest'
  exact settles

/-! The order of what is rounded -/

namespace Brought

variable {u v : UnpackedFloat} {r : ℚ}

theorem placeOf_eq (h : Brought q .positive u) :
    ∃ k t, Spans q t ∧ IsNearest k (q / 2 ^ t) ∧ Fills k t ∧ placeOf u = some (standing k t) := by
  obtain ⟨k, t, spans, nearest, rfl⟩ := h
  have fills := spans.fills nearest
  exact ⟨k, t, spans, nearest, fills, placeOf_settled fills⟩

theorem zero_atMost (h : Brought q .positive u) : AtMost (.zero .positive) u := by
  obtain ⟨k, t, -, -, -, place⟩ := h.placeOf_eq
  exact ⟨_, rfl, _, place, standing_nonneg k t⟩

/-- A larger number is rounded to no smaller double. -/
theorem atMost (hu : Brought q .positive u) (hv : Brought r .positive v) (le : q ≤ r) :
    AtMost u v := by
  obtain ⟨k, t, spans, nearest, fills, place⟩ := hu.placeOf_eq
  obtain ⟨l, t', spans', nearest', fills', place'⟩ := hv.placeOf_eq
  refine ⟨_, place, _, place', standing_le_standing fills fills' ?_⟩
  rcases (spans.mono spans' le).lt_or_eq with less | rfl
  · exact .inl less
  · exact .inr ⟨rfl, nearest.mono nearest' (div_le_div_of_nonneg_right le (zpow_pos two_pos t).le)⟩

theorem isFinite (hu : Brought q .positive u) (hv : Brought r .positive v) (le : q ≤ r)
    (finite : v.isFinite = true) : u.isFinite = true :=
  hu.zero_atMost.isFinite_of_between (hu.atMost hv le) rfl finite

end Brought

theorem brought_round (positive : 0 < n) (e : Int) :
    Brought (n * 2 ^ e) s
      (Float.Model.pack (UnpackedFloat.round Format.binary64 s n e)).unpack := by
  rw [UnpackedFloat.round, targetExponent_eq, decreaseExponent]
  dsimp only
  refine brought_roundWithAccuracy ?_ ?_
  · have shifted : (n : ℚ) * 2 ^ e / 2 ^ (e - (e - lastBit n e).toNat)
        = (n <<< (e - lastBit n e).toNat : Nat) := by
      rw [mul_div_assoc, ← zpow_sub₀ two_ne_zero, Nat.shiftLeft_eq, Nat.cast_mul, Nat.cast_pow,
        Nat.cast_ofNat, ← zpow_natCast]
      congr 2
      omega
    rw [shifted]
    exact .exact _
  · have bits := log2_shiftLeft_eq positive (e - lastBit n e).toNat
    unfold lastBit at *
    omega

/-! Products and quotients above zero -/

section Operations

variable {x y : Float} {positiveX : 0 < m} {positiveY : 0 < n}
  (hx : x.toModel.unpack = .finite .positive m e positiveX)
  (hy : y.toModel.unpack = .finite .positive n d positiveY)
include hx hy

theorem brought_mul :
    Brought (value x.toModel.unpack * value y.toModel.unpack) .positive (x * y).toModel.unpack := by
  have fillsX := (hx ▸ unpacked x.toModel : Unpacked (.finite .positive m e positiveX)).fills.1
  have fillsY := (hy ▸ unpacked y.toModel : Unpacked (.finite .positive n d positiveY)).fills.1
  change Brought _ _ (Float.Model.pack
    (UnpackedFloat.mul Format.binary64 x.toModel.unpack y.toModel.unpack)).unpack
  rw [hx, hy, UnpackedFloat.mul]
  refine brought_roundWithAccuracy ?_ ?_
  · have whole : (m : ℚ) * 2 ^ e * (n * 2 ^ d) / 2 ^ (e + d) = (m * n : Nat) := by
      rw [zpow_add₀ two_ne_zero, mul_mul_mul_comm, Nat.cast_mul]
      exact mul_div_cancel_right₀ _ (mul_pos (zpow_pos two_pos e) (zpow_pos two_pos d)).ne'
    change Traces _ ((m : ℚ) * 2 ^ e * (n * 2 ^ d) / 2 ^ (e + d))
    rw [whole]
    exact .exact _
  -- The product has all bits if one factor has; else both stand at the end of the scale.
  · have bits (full : 2 ^ 52 ≤ m ∨ 2 ^ 52 ≤ n) : 52 ≤ (m * n).log2 := by
      refine (Nat.le_log2 (Nat.mul_pos positiveX positiveY).ne').mpr ?_
      rcases full with full | full
      · exact full.trans (Nat.le_mul_of_pos_right m positiveY)
      · exact full.trans (Nat.le_mul_of_pos_left n positiveX)
    obtain ⟨leastX, -, lowX⟩ := fillsX
    obtain ⟨leastY, -, lowY⟩ := fillsY
    unfold lastBit
    omega

theorem brought_div :
    Brought (value x.toModel.unpack / value y.toModel.unpack) .positive (x / y).toModel.unpack := by
  change Brought _ _ (Float.Model.pack
    (UnpackedFloat.div Format.binary64 x.toModel.unpack y.toModel.unpack)).unpack
  rw [hx, hy, UnpackedFloat.div, divCore]
  have target : Format.binary64.targetExponent (totalExponent m e - totalExponent n d)
      = max ((m.log2 : Int) + e - (n.log2 + d) - 53) (-1074) := by
    change max (((m.log2 : Int) + 1 + e) - ((n.log2 : Int) + 1 + d) - 53) (-1074) = _
    omega
  rw [target]
  dsimp only
  generalize low : min (e - d) (max ((m.log2 : Int) + e - (n.log2 + d) - 53) (-1074)) = t
  refine brought_roundWithAccuracy ?_ ?_
  · have quotient : (m : ℚ) * 2 ^ e / (n * 2 ^ d) / 2 ^ t
        = (m <<< (e - d - t).toNat : Nat) / n := by
      have shifted : ((m <<< (e - d - t).toNat : Nat) : ℚ) = m * 2 ^ (e - d - t) := by
        rw [Nat.shiftLeft_eq, Nat.cast_mul, Nat.cast_pow, Nat.cast_ofNat, ← zpow_natCast,
          Int.toNat_of_nonneg (by omega)]
      rw [shifted, zpow_sub₀ two_ne_zero, zpow_sub₀ two_ne_zero]
      field_simp
    change Traces _ ((m : ℚ) * 2 ^ e / (n * 2 ^ d) / 2 ^ t)
    rw [quotient]
    exact Traces.fraction positiveY
  · by_cases least : t ≤ -1074
    · unfold lastBit
      omega
    · have size := log2_shiftLeft_eq positiveX (e - d - t).toNat
      have wide : 2 ^ 52 ≤ m <<< (e - d - t).toNat / n := by
        have large : 2 ^ (n.log2 + 53) ≤ m <<< (e - d - t).toNat :=
          (Nat.le_log2 (Nat.shiftLeft_pos_iff.mpr positiveX).ne').mp (by omega)
        rw [Nat.le_div_iff_mul_le positiveY]
        calc 2 ^ 52 * n ≤ 2 ^ 52 * 2 ^ (n.log2 + 1) :=
              Nat.mul_le_mul_left _ (Nat.le_of_lt Nat.lt_log2_self)
          _ = 2 ^ (n.log2 + 53) := by rw [← Nat.pow_add]; congr 1; omega
          _ ≤ _ := large
      have bits := (Nat.le_log2 (by omega)).mpr wide
      unfold lastBit
      omega

end Operations

end Double

end Trendline
