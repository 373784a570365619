import Trendline.Proofs.Double.Order
import Trendline.Proofs.Double.Packing
import Trendline.Proofs.Scalar.Negation

/-!
Doubles with the opposite sign. Every operation treats them alike, and rounds them alike; only the
zero that two numbers cancel to has the same sign both times.
-/

namespace Trendline

namespace Double

open Float.Model Float.Model.UnpackedFloat

/-- The same but for the sign of a zero. -/
inductive Alike : UnpackedFloat → UnpackedFloat → Prop
  | refl (u : UnpackedFloat) : Alike u u
  | zero (s t : Sign) : Alike (.zero s) (.zero t)

namespace Alike

variable {u u' v v' w : UnpackedFloat} {f : Format}

theorem symm (h : Alike u v) : Alike v u := by
  cases h with
  | refl => exact .refl u
  | zero s t => exact .zero t s

theorem trans (h : Alike u v) (h' : Alike v w) : Alike u w := by
  cases h with
  | refl => exact h'
  | zero s t =>
      cases h' with
      | refl => exact .zero s t
      | zero _ t' => exact .zero s t'

theorem neg (h : Alike u v) : Alike u.neg v.neg := by
  cases h with
  | refl => exact .refl _
  | zero s t => exact .zero _ _

theorem pack (h : Alike u v) : Alike (Float.Model.pack u).unpack (Float.Model.pack v).unpack := by
  have stays (s : Sign) : (Float.Model.pack (.zero s)).unpack = .zero s := by
    cases s <;> rfl
  cases h with
  | refl => exact .refl _
  | zero s t =>
      rw [stays, stays]
      exact .zero s t

theorem add (h : Alike u u') (h' : Alike v v') :
    Alike (UnpackedFloat.add f u v) (UnpackedFloat.add f u' v') := by
  have zeros (s s' t t' : Sign) : Alike (UnpackedFloat.add f (.zero s) (.zero s'))
      (UnpackedFloat.add f (.zero t) (.zero t')) := by
    cases s <;> cases s' <;> cases t <;> cases t' <;> exact .zero _ _
  cases h with
  | refl =>
      cases h' with
      | refl => exact .refl _
      | zero s t =>
          cases u with
          | zero s' => exact zeros s' s s' t
          | notANumber | infinity | finite => exact .refl _
  | zero s t =>
      cases h' with
      | refl =>
          cases v with
          | zero s' => exact zeros s s' t s'
          | notANumber | infinity | finite => exact .refl _
      | zero s' t' => exact zeros s s' t t'

theorem mul_left (h : Alike u u') :
    Alike (UnpackedFloat.mul f u v) (UnpackedFloat.mul f u' v) := by
  cases h with
  | refl => exact .refl _
  | zero s t =>
      cases v with
      | notANumber | infinity => exact .refl _
      | zero | finite => exact .zero _ _

theorem mul_right (h : Alike v v') :
    Alike (UnpackedFloat.mul f u v) (UnpackedFloat.mul f u v') := by
  cases h with
  | refl => exact .refl _
  | zero s t =>
      cases u with
      | notANumber | infinity => exact .refl _
      | zero | finite => exact .zero _ _

theorem div_left (h : Alike u u') :
    Alike (UnpackedFloat.div f u v) (UnpackedFloat.div f u' v) := by
  cases h with
  | refl => exact .refl _
  | zero s t =>
      cases v with
      | notANumber | zero => exact .refl _
      | infinity | finite => exact .zero _ _

theorem compare_eq (h : Alike u u') (h' : Alike v v') : u.compare v = u'.compare v' := by
  have left (s t : Sign) (v : UnpackedFloat) :
      (UnpackedFloat.zero s).compare v = (UnpackedFloat.zero t).compare v := by
    cases v with
    | notANumber | zero => rfl
    | infinity s' | finite s' => cases s' <;> rfl
  have right (u : UnpackedFloat) (s t : Sign) :
      u.compare (.zero s) = u.compare (.zero t) := by
    cases u with
    | notANumber | zero => rfl
    | infinity s' | finite s' => cases s' <;> rfl
  cases h with
  | refl =>
      cases h' with
      | refl => rfl
      | zero s t => exact right u s t
  | zero s t =>
      cases h' with
      | refl => exact left s t v
      | zero s' t' => rfl

theorem abs_eq (h : Alike u v) : u.abs = v.abs := by
  cases h with
  | refl | zero => rfl

theorem isFinite_eq (h : Alike u v) : u.isFinite = v.isFinite := by
  cases h with
  | refl | zero => rfl

theorem square_eq (h : Alike u v) : UnpackedFloat.mul f u u = UnpackedFloat.mul f v v := by
  cases h with
  | refl => rfl
  | zero s t => cases s <;> cases t <;> rfl

end Alike

/-! Turning the sign -/

theorem sign_neg_neg (s : Sign) : - -s = s := by
  cases s <;> rfl

theorem sign_neg_beq_neg (s t : Sign) : (-s == -t) = (s == t) := by
  cases s <;> cases t <;> rfl

theorem sign_neg_mul (s t : Sign) : -s * t = -(s * t) := by
  cases s <;> cases t <;> rfl

theorem sign_mul_neg (s t : Sign) : s * -t = -(s * t) := by
  cases s <;> cases t <;> rfl

theorem sign_neg_div (s t : Sign) : -s / t = -(s / t) := by
  cases s <;> cases t <;> rfl

theorem apply_neg (s : Sign) (n : Int) : (-s).apply n = -s.apply n := by
  cases s with
  | negative => exact (Int.neg_neg n).symm
  | positive => rfl

variable {f : Format}

theorem neg_neg (u : UnpackedFloat) : u.neg.neg = u := by
  cases u with
  | notANumber => rfl
  | infinity s | zero s | finite s => simp only [UnpackedFloat.neg, sign_neg_neg]

theorem roundWithAccuracy_neg (s : Sign) (m : Nat) (e : Int) (accuracy : Accuracy) :
    roundWithAccuracy f (-s) m e accuracy = (roundWithAccuracy f s m e accuracy).neg := by
  unfold roundWithAccuracy
  dsimp only
  split_ifs <;> rfl

theorem round_neg (s : Sign) (m : Nat) (e : Int) :
    UnpackedFloat.round f (-s) m e = (UnpackedFloat.round f s m e).neg :=
  roundWithAccuracy_neg s _ _ _

/-- What cancels is a positive zero on either side. -/
theorem alike_normalize_neg (n : Int) (e : Int) :
    Alike (UnpackedFloat.normalize f (-n) e .positive)
      (UnpackedFloat.normalize f n e .positive).neg := by
  unfold UnpackedFloat.normalize
  rcases Int.lt_trichotomy n 0 with less | rfl | greater
  · rw [Int.compare_eq_gt.mpr (Int.neg_pos.mpr less), Int.compare_eq_lt.mpr less]
    dsimp only
    rw [← round_neg]
    exact .refl _
  · exact .zero _ _
  · rw [Int.compare_eq_lt.mpr (Int.neg_neg_of_pos greater), Int.compare_eq_gt.mpr greater]
    dsimp only
    rw [← round_neg, Int.neg_neg]
    exact .refl _

theorem alike_add_neg (u v : UnpackedFloat) :
    Alike (UnpackedFloat.add f u.neg v.neg) (UnpackedFloat.add f u v).neg := by
  cases u with
  | notANumber => exact .refl _
  | infinity s =>
      cases v with
      | infinity t =>
          simp only [UnpackedFloat.neg, UnpackedFloat.add, sign_neg_beq_neg]
          split_ifs <;> exact .refl _
      | notANumber | zero | finite => exact .refl _
  | zero s =>
      cases v with
      | zero t =>
          simp only [UnpackedFloat.neg, UnpackedFloat.add, sign_neg_beq_neg]
          split_ifs <;> exact .zero _ _
      | notANumber | infinity | finite => exact .refl _
  | finite s m e =>
      cases v with
      | finite t n e' =>
          simp only [UnpackedFloat.neg, UnpackedFloat.add, apply_neg, ← Int.neg_add]
          exact alike_normalize_neg _ _
      | notANumber | infinity | zero => exact .refl _

theorem sub_eq_add_neg (u v : UnpackedFloat) :
    UnpackedFloat.sub f u v = UnpackedFloat.add f u v.neg := by
  cases u with
  | notANumber => rfl
  | infinity | zero => cases v <;> rfl
  | finite s m e =>
      cases v with
      | finite t n e' =>
          simp only [UnpackedFloat.neg, UnpackedFloat.sub, UnpackedFloat.add, apply_neg,
            Int.sub_eq_add_neg]
      | notANumber | infinity | zero => rfl

theorem mul_neg_left (u v : UnpackedFloat) :
    UnpackedFloat.mul f u.neg v = (UnpackedFloat.mul f u v).neg := by
  cases u <;> cases v <;>
    simp only [UnpackedFloat.neg, UnpackedFloat.mul, sign_neg_mul, roundWithAccuracy_neg]

theorem mul_neg_right (u v : UnpackedFloat) :
    UnpackedFloat.mul f u v.neg = (UnpackedFloat.mul f u v).neg := by
  cases u <;> cases v <;>
    simp only [UnpackedFloat.neg, UnpackedFloat.mul, sign_mul_neg, roundWithAccuracy_neg]

theorem div_neg_left (u v : UnpackedFloat) :
    UnpackedFloat.div f u.neg v = (UnpackedFloat.div f u v).neg := by
  cases u <;> cases v <;>
    simp only [UnpackedFloat.neg, UnpackedFloat.div, sign_neg_div, roundWithAccuracy_neg]

theorem compare_neg (u v : UnpackedFloat) : u.neg.compare v.neg = v.compare u := by
  have turned (m n : Nat) (e d : Int) :
      ((compare e d).then (compare m n)).swap = (compare d e).then (compare n m) := by
    rw [Ordering.swap_then, Int.compare_swap, Nat.compare_swap]
  rcases u with s | _ | s | ⟨s, m, e⟩ <;> rcases v with t | _ | t | ⟨t, n, d⟩ <;> try cases s
  all_goals try cases t
  case finite.finite.negative.negative => exact congrArg some (turned n m d e).symm
  case finite.finite.positive.positive => exact congrArg some (turned m n e d)
  all_goals rfl

theorem square_neg (u : UnpackedFloat) :
    UnpackedFloat.mul f u.neg u.neg = UnpackedFloat.mul f u u := by
  rw [mul_neg_left, mul_neg_right, neg_neg]

theorem abs_neg (u : UnpackedFloat) : u.neg.abs = u.abs := by
  cases u <;> rfl

theorem isFinite_neg (u : UnpackedFloat) : u.neg.isFinite = u.isFinite := by
  cases u <;> rfl

/-- A place names a number, up to the sign of a zero. -/
theorem alike_of_placeOf {u v : UnpackedFloat} (h : placeOf u = placeOf v)
    (number : placeOf u ≠ none) : Alike u v := by
  rcases u with (_ | _) | _ | s | ⟨_ | _, m, e, hm⟩ <;>
    rcases v with (_ | _) | _ | t | ⟨_ | _, n, d, hn⟩
  case zero.zero => exact .zero s t
  all_goals simp [placeOf] at h number
  case finite.negative.finite.negative | finite.positive.finite.positive =>
    obtain ⟨rfl, same⟩ := h
    obtain rfl : m = n := by omega
    exact .refl _
  all_goals exact .refl _

theorem isNumber_eq_false_iff {x : Float} :
    Scalar.isNumber x = false ↔ x.toModel.unpack = .notANumber := by
  have self (u : UnpackedFloat) :
      (u.compare u).any Ordering.isLE = false ↔ u = .notANumber := by
    cases u with
    | notANumber => exact ⟨fun _ => rfl, fun _ => rfl⟩
    | zero s => simp [UnpackedFloat.compare]
    | infinity s | finite s => cases s <;> simp [UnpackedFloat.compare]
  rw [← self, ← Bool.not_eq_true, ← Bool.not_eq_true, ← le_iff_compare]
  exact not_congr decide_eq_true_iff

theorem same_iff {x y : Float} : Scalar.Same x y ↔ Alike x.toModel.unpack y.toModel.unpack := by
  constructor
  · rintro (⟨xy, yx⟩ | ⟨hx, hy⟩)
    · obtain ⟨a, ha, b, hb, ab⟩ := le_iff.mp xy
      obtain ⟨b', hb', a', ha', ba⟩ := le_iff.mp yx
      cases ha.symm.trans ha'
      cases hb.symm.trans hb'
      have same : place x = place y := by rw [ha, hb, le_antisymm ab ba]
      exact alike_of_placeOf same (Option.ne_none_iff_exists'.mpr ⟨a, ha⟩)
    · rw [isNumber_eq_false_iff.mp hx, isNumber_eq_false_iff.mp hy]
      exact .refl _
  · intro h
    by_cases number : x ≤ x
    · rw [le_iff_compare] at number
      refine .inl ⟨le_iff_compare.mpr ?_, le_iff_compare.mpr ?_⟩
      · rwa [Alike.compare_eq (.refl _) h.symm]
      · rwa [Alike.compare_eq h.symm (.refl _)]
    · have none : Scalar.isNumber x = false := decide_eq_false number
      refine .inr ⟨none, ?_⟩
      rw [isNumber_eq_false_iff] at none ⊢
      rw [none] at h
      generalize y.toModel.unpack = v at h
      cases h
      rfl

/-! Opposite doubles -/

variable {x x' y y' : Float}

theorem unpack_neg (x : Float) : (-x).toModel.unpack = x.toModel.unpack.neg := by
  change (Float.Model.pack x.toModel.unpack.neg).unpack = _
  rw [unpack_pack_neg, (unpacked x.toModel).unpack_pack]

theorem opposite_iff :
    Scalar.Opposite x x' ↔ Alike x'.toModel.unpack x.toModel.unpack.neg := by
  rw [Scalar.Opposite, same_iff, unpack_neg]

/-- The packed results of operations are opposite if the results are. -/
theorem opposite_pack {u u' : UnpackedFloat} (h : Alike u' u.neg) :
    Scalar.Opposite (Float.ofModel (Float.Model.pack u)) (Float.ofModel (Float.Model.pack u')) := by
  rw [opposite_iff]
  change Alike (Float.Model.pack u').unpack (Float.Model.pack u).unpack.neg
  rw [← unpack_pack_neg]
  exact h.pack

theorem alike_add {u u' v v' : UnpackedFloat} (hu : Alike u' u.neg) (hv : Alike v' v.neg) :
    Alike (UnpackedFloat.add f u' v') (UnpackedFloat.add f u v).neg :=
  (hu.add hv).trans (alike_add_neg u v)

theorem alike_sub {u u' v v' : UnpackedFloat} (hu : Alike u' u.neg) (hv : Alike v' v.neg) :
    Alike (UnpackedFloat.sub f u' v') (UnpackedFloat.sub f u v).neg := by
  rw [sub_eq_add_neg, sub_eq_add_neg]
  exact alike_add hu hv.neg

end Double

open Double in
instance : LawfulNeg Float where
  opposite_zero := opposite_iff.mpr (.zero .positive .negative)
  opposite_add hx hy := opposite_pack (alike_add (opposite_iff.mp hx) (opposite_iff.mp hy))
  opposite_sub hx hy := opposite_pack (alike_sub (opposite_iff.mp hx) (opposite_iff.mp hy))
  opposite_add_sub y hx := by
    apply opposite_pack
    rw [sub_eq_add_neg]
    exact alike_add (opposite_iff.mp hx) (.refl _)
  opposite_sub_add y hx := by
    apply opposite_pack
    rw [sub_eq_add_neg]
    exact alike_add (opposite_iff.mp hx) (by rw [Double.neg_neg]; exact .refl _)
  opposite_mul_left y hx := by
    apply opposite_pack
    rw [← mul_neg_left]
    exact (opposite_iff.mp hx).mul_left
  opposite_mul_right x _ _ hy := by
    apply opposite_pack
    rw [← mul_neg_right]
    exact (opposite_iff.mp hy).mul_right
  opposite_div y hx := by
    apply opposite_pack
    rw [← div_neg_left]
    exact (opposite_iff.mp hx).div_left
  square_eq hx := congrArg (fun u => Float.ofModel (Float.Model.pack u))
    ((opposite_iff.mp hx).square_eq.trans (square_neg _))
  abs_eq hx := congrArg (fun u => Float.ofModel (Float.Model.pack u))
    ((opposite_iff.mp hx).abs_eq.trans (abs_neg _))
  lt_iff hx hy := by
    rw [lt_iff_compare, lt_iff_compare,
      (opposite_iff.mp hy).compare_eq (opposite_iff.mp hx), compare_neg]
  le_iff hx hy := by
    rw [le_iff_compare, le_iff_compare,
      (opposite_iff.mp hy).compare_eq (opposite_iff.mp hx), compare_neg]
  isFinite_eq hx := (opposite_iff.mp hx).isFinite_eq.trans (isFinite_neg _)

end Trendline
