import Mathlib
import Trendline.Scalar

/-!
Doubles and their parts. What a double is unpacked into survives being packed again, and the sign is
kept apart from the rest.
-/

namespace Trendline

namespace Double

open Float.Model Float.Model.UnpackedFloat

/-- The significand fills its bits and the exponent is in range. -/
structure Normal (m : Nat) (e : Int) : Prop where
  low : 2 ^ 52 ≤ m
  high : m < 2 ^ 53
  least : -1074 ≤ e
  greatest : e ≤ 971

theorem ofBitVec_toBitVec (s : Sign) : Sign.ofBitVec s.toBitVec = s := by
  cases s <;> rfl

theorem unpackSign_packComponents {spec : Format} {sign exponent mantissa} :
    unpackSign (packComponents spec sign exponent mantissa) = sign.toBitVec := by
  ext i hi
  obtain rfl : i = 0 := by omega
  simp [unpackSign, packComponents, BitVec.getLsbD_append, BitVec.getElem_append]

theorem toNat_one_append (v : BitVec 52) : (1#1 ++ v).toNat = 2 ^ 52 + v.toNat := by
  rw [BitVec.toNat_append, ← Nat.shiftLeft_add_eq_or_of_lt v.isLt]
  rfl

variable {s : Sign} {m : Nat} {e : Int}

theorem unpack_pack (h : Normal m e) (positive : 0 < m) :
    (Float.Model.pack (.finite s m e positive)).unpack = .finite s m e positive := by
  obtain ⟨low, high, least, greatest⟩ := h
  have log : m.log2 + 1 = Format.binary64.mantissaBits := by
    rw [(Nat.log2_eq_iff (by omega)).mpr ⟨low, high⟩]
    rfl
  have bias : (Format.binary64.exponentBias : Int) + (52 : Nat) = 1075 := rfl
  have stored : (BitVec.ofNat 11 (e + 1075).toNat).toNat = (e + 1075).toNat := by
    rw [BitVec.toNat_ofNat, Nat.mod_eq_of_lt (by omega)]
  have notTop : BitVec.ofNat 11 (e + 1075).toNat ≠ -1#11 := by
    intro eq
    have top : (e + 1075).toNat = 2047 := stored.symm.trans (congrArg BitVec.toNat eq)
    omega
  have notZero : BitVec.ofNat 11 (e + 1075).toNat ≠ 0#11 := by
    intro eq
    have zero : (e + 1075).toNat = 0 := stored.symm.trans (congrArg BitVec.toNat eq)
    omega
  have whole : (1#1 ++ BitVec.ofNat 52 m).toNat = m := by
    rw [toNat_one_append, BitVec.toNat_ofNat]
    omega
  change UnpackedFloat.unpack Format.binary64 (UnpackedFloat.pack Format.binary64 _) = _
  rw [UnpackedFloat.pack]
  simp only [log, Int.add_assoc, bias]
  rw [if_neg (by omega), if_pos trivial, UnpackedFloat.unpack]
  simp only [unpackExponent_packComponents, unpackMantissa_packComponents,
    unpackSign_packComponents, ofBitVec_toBitVec, bias]
  rw [if_neg notTop, if_neg notZero, UnpackedFloat.finite.injEq, stored]
  exact ⟨rfl, whole, by omega⟩

/-- Below the least normal number the exponent is fixed and the significand has fewer bits. -/
theorem unpack_pack_subnormal (small : m < 2 ^ 52) (positive : 0 < m) :
    (Float.Model.pack (.finite s m (-1074) positive)).unpack = .finite s m (-1074) positive := by
  have log : m.log2 < 52 := (Nat.log2_lt (Nat.ne_of_gt positive)).mpr small
  have stored : (BitVec.ofNat 52 m).toNat = m := by
    rw [BitVec.toNat_ofNat, Nat.mod_eq_of_lt small]
  have notZero : BitVec.ofNat 52 m ≠ 0#52 := by
    intro eq
    have zero : m = 0 := stored.symm.trans (congrArg BitVec.toNat eq)
    omega
  have bias : (-1074 + (Format.binary64.exponentBias : Int) + (52 : Nat)).toNat = 1 := by decide
  have bits : Format.binary64.mantissaBits = 53 := rfl
  change UnpackedFloat.unpack Format.binary64 (UnpackedFloat.pack Format.binary64 _) = _
  rw [UnpackedFloat.pack]
  simp only [bias, bits]
  rw [if_neg (by decide), if_neg (by omega), UnpackedFloat.unpack]
  simp only [unpackExponent_packComponents, unpackMantissa_packComponents,
    unpackSign_packComponents, ofBitVec_toBitVec]
  rw [if_neg (by decide), if_pos trivial, dif_neg notZero, UnpackedFloat.finite.injEq]
  exact ⟨rfl, stored, rfl⟩

/-- What is too large for the exponent is packed as infinity. -/
theorem unpack_pack_overflow (large : 972 ≤ e) (positive : 0 < m) :
    (Float.Model.pack (.finite s m e positive)).unpack = .infinity s := by
  have bias : (Format.binary64.exponentBias : Int) + (52 : Nat) = 1075 := rfl
  change UnpackedFloat.unpack Format.binary64 (UnpackedFloat.pack Format.binary64 _) = _
  rw [UnpackedFloat.pack]
  simp only [Int.add_assoc, bias]
  rw [if_pos (by omega)]
  cases s <;> rfl

/-- What a double can be unpacked into. -/
inductive Unpacked : UnpackedFloat → Prop
  | notANumber : Unpacked .notANumber
  | infinity (s : Sign) : Unpacked (.infinity s)
  | zero (s : Sign) : Unpacked (.zero s)
  | subnormal (s : Sign) {m : Nat} (small : m < 2 ^ 52) (positive : 0 < m) :
      Unpacked (.finite s m (-1074) positive)
  | normal (s : Sign) {m : Nat} {e : Int} (h : Normal m e) (positive : 0 < m) :
      Unpacked (.finite s m e positive)

theorem unpacked (x : Float.Model) : Unpacked x.unpack := by
  have bias : (Format.binary64.exponentBias : Int) + (52 : Nat) = 1075 := rfl
  obtain ⟨b, eq⟩ : ∃ b : BitVec Format.binary64.numBits,
      x.unpack = UnpackedFloat.unpack Format.binary64 b := ⟨_, rfl⟩
  have bound : (unpackExponent b).toNat < 2 ^ 11 := (unpackExponent b).isLt
  have room : (unpackMantissa b).toNat < 2 ^ 52 := (unpackMantissa b).isLt
  rw [eq]
  unfold UnpackedFloat.unpack
  dsimp only
  rw [bias]
  split_ifs with top infinite bottom zero
  · exact .infinity _
  · exact .notANumber
  · exact .zero _
  · have least : ((unpackExponent b).toNat : Int) - 1075 + 1 = -1074 := by
      rw [bottom]
      rfl
    simp only [least]
    exact .subnormal _ room _
  · have notTop : (unpackExponent b).toNat ≠ 2047 := fun eq => top (BitVec.eq_of_toNat_eq eq)
    have notZero : (unpackExponent b).toNat ≠ 0 := fun eq => bottom (BitVec.eq_of_toNat_eq eq)
    have whole := toNat_one_append (unpackMantissa b)
    exact .normal _ ⟨by omega, by omega, by omega, by omega⟩ _

/-- Packing loses nothing of what a double is unpacked into. -/
theorem Unpacked.unpack_pack {u : UnpackedFloat} (h : Unpacked u) :
    (Float.Model.pack u).unpack = u := by
  cases h with
  | notANumber => rfl
  | infinity s | zero s => cases s <;> rfl
  | subnormal s small positive => exact unpack_pack_subnormal small positive
  | normal s h positive => exact Double.unpack_pack h positive

/-- The sign is not part of anything else. -/
theorem unpack_pack_neg (u : UnpackedFloat) :
    (Float.Model.pack u.neg).unpack = (Float.Model.pack u).unpack.neg := by
  have parts (s : Sign) (exponent : BitVec 11) (mantissa : BitVec 52) :
      UnpackedFloat.unpack Format.binary64 (packComponents Format.binary64 (-s) exponent mantissa)
        = (UnpackedFloat.unpack Format.binary64
            (packComponents Format.binary64 s exponent mantissa)).neg := by
    unfold UnpackedFloat.unpack
    simp only [unpackExponent_packComponents, unpackMantissa_packComponents,
      unpackSign_packComponents, ofBitVec_toBitVec]
    split_ifs <;> rfl
  cases u with
  | notANumber => rfl
  | infinity s => exact parts s _ _
  | zero s => exact parts s _ _
  | finite s m e positive =>
      change UnpackedFloat.unpack Format.binary64 (UnpackedFloat.pack Format.binary64 _)
        = (UnpackedFloat.unpack Format.binary64 (UnpackedFloat.pack Format.binary64 _)).neg
      simp only [UnpackedFloat.neg, UnpackedFloat.pack]
      split_ifs
      · exact parts s _ _
      · exact parts s _ _
      · exact parts s _ _

end Double

end Trendline
