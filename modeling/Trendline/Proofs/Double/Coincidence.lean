import Trendline.Trend
import Trendline.Proofs.Double.Nearest

/-!
Points in one place. The mean of a position taken twice is rounded to the position itself, so that
two points over one bar do not spread, and no line is drawn through them.
-/

namespace Trendline

namespace Double

open Float.Model Float.Model.UnpackedFloat
open Float.Model.UnpackedFloat.ExtendedMantissa
open ExtendedMantissa

variable {x y : Float} {m : Nat} {e : Int}

/-- What comes out of an operation as it went in is packed as it was. -/
theorem Is.pack (h : Is x m e) {u : UnpackedFloat} (same : u = x.toModel.unpack) :
    Is (Float.ofModel (Float.Model.pack u)) m e := by
  obtain ⟨normal, positive, eq⟩ := h
  refine ⟨normal, positive, ?_⟩
  rw [same, eq]
  exact unpack_pack normal positive

theorem Is.add_zero (h : Is x m e) : Is (x + 0) m e := by
  change Is (Float.ofModel (Float.Model.pack
    (UnpackedFloat.add Format.binary64 x.toModel.unpack (.zero .positive)))) m e
  exact h.pack (by rw [h.2.2]; rfl)

theorem Is.zero_add (h : Is x m e) : Is (0 + x) m e := by
  change Is (Float.ofModel (Float.Model.pack
    (UnpackedFloat.add Format.binary64 (.zero .positive) x.toModel.unpack))) m e
  exact h.pack (by rw [h.2.2]; rfl)

theorem Is.sub_zero (h : Is x m e) : Is (x - 0) m e := by
  change Is (Float.ofModel (Float.Model.pack
    (UnpackedFloat.sub Format.binary64 x.toModel.unpack (.zero .positive)))) m e
  exact h.pack (by rw [h.2.2]; rfl)

theorem Is.sub_self (hx : Is x m e) (hy : Is y m e) : x - y = 0 := by
  obtain ⟨-, _, left⟩ := hx
  obtain ⟨-, _, right⟩ := hy
  change Float.ofModel (Float.Model.pack
    (UnpackedFloat.sub Format.binary64 x.toModel.unpack y.toModel.unpack)) = 0
  rw [left, right, Double.sub_self rfl]
  rfl

theorem Is.div_self (h : Is x m e) : x / x = 1 := by
  have whole : m <<< 53 = m * 2 ^ 53 := Nat.shiftLeft_eq m 53
  rw [div_eq h h (by omega), whole, Nat.mul_div_cancel_left _ h.2.1, Nat.mul_mod_right,
    Int.sub_self]
  rfl

/-- What is divided by one is rounded to itself. -/
theorem Is.div_one (h : Is x m e) (near : -64 ≤ e + 52) : Is (x / 1) m e := by
  have one : Is 1 (2 ^ 52) (-52) := ⟨⟨by decide, by decide, by decide, by decide⟩, by decide, rfl⟩
  have ⟨⟨low, high, least, _⟩, positive, _⟩ := h
  have whole : m <<< 53 / 2 ^ 52 = m <<< 1 := by
    simp only [Nat.shiftLeft_eq]
    omega
  have exact : accuracyOfFraction (m <<< 53 % 2 ^ 52) (2 ^ 52) = .exact := by
    have none : m <<< 53 % 2 ^ 52 = 0 := by
      simp only [Nat.shiftLeft_eq]
      omega
    rw [none]
    rfl
  have log : (m <<< 1).log2 = 52 + 1 := by
    rw [log2_shiftLeft_eq positive, (Nat.log2_eq_iff (Nat.ne_of_gt positive)).mpr ⟨low, high⟩]
  obtain ⟨m', e', pos, eq, -, -, settles⟩ :=
    roundWithAccuracy_settles (s := .positive) .exact log (e := e - -52 - 53) (by omega)
  rw [shiftRight_shiftLeft] at settles
  have same : m' = m ∧ e' = e := by
    have rounded : (ofMantissaAndAccuracy m .exact).roundedMantissa = m := rfl
    rw [rounded, Settles] at settles
    omega
  obtain ⟨rfl, rfl⟩ := same
  refine ⟨h.1, positive, ?_⟩
  rw [div_eq h one (by omega), whole, exact, eq]
  exact unpack_pack h.1 positive

/-- The mean of a position taken twice is this position. -/
theorem Is.mean_pair (h : Is x m e) (near : -64 ≤ e + 52) : Is (mean [x, x]) m e := by
  have first : Is (0 + (x - 0) / 1) m e := (h.sub_zero.div_one near).zero_add
  change Is ((0 + (x - 0) / 1) + (x - (0 + (x - 0) / 1)) / Scalar.doubleOfCount 2) m e
  rw [h.sub_self first]
  exact first.add_zero

theorem sub_mean_pair {n : Nat} (fits : n < 2 ^ 53) :
    Scalar.doubleOfCount n - mean [Scalar.doubleOfCount n, Scalar.doubleOfCount n] = 0 := by
  rcases Nat.eq_zero_or_pos n with rfl | positive
  · decide +kernel
  · obtain ⟨m, e, is, settles⟩ := is_doubleOfCount positive (fits.trans (by decide))
    unfold Settles at settles
    exact is.sub_self (is.mean_pair (by omega))

/-- There is no line through two points over one bar, whatever the prices are. -/
theorem ofPoints?_coinciding {n : Nat} (fits : n < 2 ^ 53) (y z : Float) :
    Fit.ofPoints? [(Scalar.doubleOfCount n, y), (Scalar.doubleOfCount n, z)] = none := by
  have two : ¬ [(Scalar.doubleOfCount n, y), (Scalar.doubleOfCount n, z)].length < 2 :=
    Nat.lt_irrefl 2
  have level : Scalar.sum [(0 : Float) * 0, 0 * 0] ≤ Scalar.epsilon := by decide +kernel
  rw [Fit.ofPoints?, if_neg two]
  dsimp only [List.map]
  rw [sub_mean_pair fits, if_pos level]

end Double

end Trendline
