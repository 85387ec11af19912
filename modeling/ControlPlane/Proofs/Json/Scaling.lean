import ControlPlane.Json.Number
import Mathlib.Algebra.Group.Nat.Defs

/-!
# Scaling without overflow

A number is scaled by a power of ten, and the product of the two doubles may be infinite. It is not
where the exact product is some powers of two below the largest double (`scale_isSome`). How large a
double is at most is told by its exponent alone (`IsBelow`): a product is rounded up to the next power
of two at most.
-/

namespace ControlPlane

namespace Json

open Float.Model (Format UnpackedFloat totalExponent)
open Float.Model.UnpackedFloat

/-! ## Rounding -/

/-- Whether an unpacked double is zero, or is finite and below `2 ^ t` with any mantissa of 53 bits. -/
def UnpackedBelow (t : Int) : UnpackedFloat → Prop
  | .zero _ => True
  | .finite _ _ e _ => e + 53 ≤ t
  | .infinity _ | .notANumber => False

theorem mantissa_shiftRight (em : ExtendedMantissa) (n : Nat) :
    (em >>> n).mantissa = em.mantissa / 2 ^ n := by
  show (n.repeat ExtendedMantissa.shiftRightOne em).mantissa = _
  induction n with
  | zero => simp [Nat.repeat]
  | succ n ih =>
    rw [Nat.repeat, ExtendedMantissa.shiftRightOne, ih, Nat.div_div_eq_div_mul, Nat.pow_succ]

theorem mantissa_ofMantissaAndAccuracy (m : Nat) (accuracy : Accuracy) :
    (ExtendedMantissa.ofMantissaAndAccuracy m accuracy).mantissa = m := by
  unfold ExtendedMantissa.ofMantissaAndAccuracy
  split <;> rfl

theorem roundedMantissa_le (em : ExtendedMantissa) : em.roundedMantissa ≤ em.mantissa + 1 := by
  unfold ExtendedMantissa.roundedMantissa
  generalize em.accuracy = accuracy
  unfold Accuracy.roundToNearestEven
  split <;> omega

/-- A mantissa that is shifted and rounded up has one bit more at most. -/
theorem log2_le_of_le_div {m n r : Nat} (h : r ≤ m / 2 ^ n + 1) : r.log2 ≤ m.log2 + 1 - n := by
  have hm : m < 2 ^ (m.log2 + 1) := Nat.lt_log2_self
  have hr : r ≤ 2 ^ (m.log2 + 1 - n) := by
    by_cases hn : n ≤ m.log2 + 1
    · have hlt : m / 2 ^ n < 2 ^ (m.log2 + 1 - n) := by
        rw [Nat.div_lt_iff_lt_mul (Nat.two_pow_pos n), ← Nat.pow_add, Nat.sub_add_cancel hn]
        exact hm
      omega
    · have hzero : m / 2 ^ n = 0 :=
        Nat.div_eq_of_lt (Nat.lt_of_lt_of_le hm (Nat.pow_le_pow_right (by decide) (by omega)))
      have hpos := Nat.two_pow_pos (m.log2 + 1 - n)
      omega
  by_cases hzero : r = 0
  · subst hzero
    exact Nat.zero_le _
  · refine Nat.le_of_lt_succ ((Nat.log2_lt hzero).mpr (Nat.lt_of_le_of_lt hr ?_))
    exact Nat.pow_lt_pow_right (by decide) (Nat.lt_succ_self _)

theorem targetExponent_eq (e : Int) : Format.binary64.targetExponent e = max (e - 53) (-1074) := rfl

theorem shiftToTargetExponent_eq (m : Nat) (e : Int) (accuracy : Accuracy) :
    ∃ n : Nat, n = (max (totalExponent m e - 53) (-1074) - e).toNat ∧
      (shiftToTargetExponent .binary64 m e accuracy).1.mantissa = m / 2 ^ n ∧
      (shiftToTargetExponent .binary64 m e accuracy).2 = e + n := by
  refine ⟨_, rfl, ?_, rfl⟩
  unfold shiftToTargetExponent shiftToExponent
  dsimp only
  rw [mantissa_shiftRight, mantissa_ofMantissaAndAccuracy, targetExponent_eq]

theorem unpackedBelow_dite {t e : Int} {s : Sign} {m : Nat} (h : e + 53 ≤ t) :
    UnpackedBelow t (if hm : m = 0 then .zero s else .finite s m e (Nat.pos_of_ne_zero hm)) := by
  by_cases hm : m = 0
  · rw [dif_pos hm]
    trivial
  · rw [dif_neg hm]
    exact h

/-- Rounding goes up to the next power of two at most. -/
theorem unpackedBelow_round {s : Sign} {m : Nat} {e t : Int} {accuracy : Accuracy}
    (ht : totalExponent m e < t) (he : e + 53 ≤ t) (hleast : -1021 ≤ t) :
    UnpackedBelow t (roundWithAccuracy .binary64 s m e accuracy) := by
  -- the mantissa is shifted, rounded, and shifted again if that has given it one bit more
  obtain ⟨n, hn, hm₁, he₁⟩ := shiftToTargetExponent_eq m e accuracy
  unfold roundWithAccuracy
  generalize shiftToTargetExponent .binary64 m e accuracy = first at *
  obtain ⟨n', hn', -, he₂⟩ := shiftToTargetExponent_eq first.1.roundedMantissa first.2 .exact
  have hround := roundedMantissa_le first.1
  rw [hm₁] at hround
  have hlog := log2_le_of_le_div hround
  have hle : (shiftToTargetExponent .binary64 first.1.roundedMantissa first.2 .exact).2 + 53 ≤ t := by
    rw [he₂, he₁]
    unfold totalExponent at *
    omega
  exact unpackedBelow_dite hle

/-! ## Packing -/

/-- What a double is unpacked to. -/
inductive Unpacked (b : BitVec Format.binary64.numBits) : UnpackedFloat → Prop where
  | infinity {s : Sign} (hall : unpackExponent b = -1#_) : Unpacked b (.infinity s)
  | notANumber (hall : unpackExponent b = -1#_) : Unpacked b .notANumber
  | zero {s : Sign} : Unpacked b (.zero s)
  | finite {s : Sign} {m : Nat} {e : Int} {hm : 0 < m} (hmantissa : m < 2 ^ 53)
    (hexponent : e + 53 ≤ max ((unpackExponent b).toNat - 1022 : Int) (-1021)) :
    Unpacked b (.finite s m e hm)

theorem unpacked (b : BitVec Format.binary64.numBits) : Unpacked b (unpack .binary64 b) := by
  have hbias : ((Format.binary64.exponentBias : Nat) : Int) = 1023 := rfl
  have hbits : ((Format.binary64.mantissaBitsWithoutImplicit : Nat) : Int) = 52 := rfl
  have hlt := (unpackMantissa b).isLt
  unfold unpack
  dsimp only
  rw [hbias, hbits]
  by_cases hall : unpackExponent b = -1#_
  · rw [if_pos hall]
    by_cases hzero : unpackMantissa b = 0#_
    · rw [if_pos hzero]
      exact .infinity hall
    · rw [if_neg hzero]
      exact .notANumber hall
  · rw [if_neg hall]
    by_cases hnone : unpackExponent b = 0#_
    · rw [if_pos hnone]
      by_cases hzero : unpackMantissa b = 0#_
      · rw [dif_pos hzero]
        exact .zero
      · rw [dif_neg hzero]
        have hexponent : (unpackExponent b).toNat = 0 := by
          rw [hnone]
          rfl
        exact .finite (Nat.lt_trans hlt (by decide)) (by omega)
    · rw [if_neg hnone]
      exact .finite (1#1 ++ unpackMantissa b).isLt (by omega)

theorem unpackedBelow_unpack {t : Int} (hleast : -1021 ≤ t) (ht : t ≤ 1024)
    {b : BitVec Format.binary64.numBits} (h : (unpackExponent b).toNat ≤ t + 1022) :
    UnpackedBelow t (unpack .binary64 b) := by
  have hnot : ¬ unpackExponent b = -1#_ := by
    intro hall
    have htop : (unpackExponent b).toNat = 2047 := by
      rw [hall]
      rfl
    omega
  have hunpacked := unpacked b
  generalize unpack .binary64 b = u at hunpacked
  cases hunpacked with
  | infinity hall | notANumber hall => exact absurd hall hnot
  | zero => trivial
  | finite _ hexponent =>
    show _ + _ ≤ t
    omega

/-- What is below the largest power of two stays finite when it is packed. -/
theorem unpackedBelow_pack {t : Int} {u : UnpackedFloat} (h : UnpackedBelow t u)
    (hleast : -1021 ≤ t) (ht : t ≤ 1024) :
    UnpackedBelow t (unpack .binary64 (pack .binary64 u)) := by
  refine unpackedBelow_unpack hleast ht ?_
  have hzero : ((0#11).toNat : Int) ≤ t + 1022 := by
    simp only [BitVec.toNat_ofNat]
    omega
  cases u with
  | zero s =>
    unfold pack packedZero
    rw [unpackExponent_packComponents]
    exact hzero
  | finite s m e hm =>
    have hle : e + 53 ≤ t := h
    have hbias : ((Format.binary64.exponentBias : Nat) : Int) = 1023 := rfl
    unfold pack
    dsimp only
    rw [hbias]
    split
    · omega
    · split
      · rw [unpackExponent_packComponents, BitVec.toNat_ofNat]
        omega
      · rw [unpackExponent_packComponents]
        exact hzero
  | infinity | notANumber => cases h

theorem mantissa_lt_of_unpack {b : BitVec Format.binary64.numBits} {s : Sign} {m : Nat} {e : Int}
    {hm : 0 < m} (h : unpack .binary64 b = .finite s m e hm) : m < 2 ^ 53 := by
  have hunpacked := unpacked b
  rw [h] at hunpacked
  cases hunpacked with
  | finite hmantissa => exact hmantissa

/-! ## Doubles -/

/-- Whether a double is finite, and below `2 ^ t` by its exponent. -/
def IsBelow (t : Int) (x : Float) : Prop := UnpackedBelow t x.toModel.unpack

instance (t : Int) : (u : UnpackedFloat) → Decidable (UnpackedBelow t u)
  | .zero _ => .isTrue trivial
  | .finite _ _ e _ => inferInstanceAs (Decidable (e + 53 ≤ t))
  | .infinity _ | .notANumber => .isFalse id

instance (t : Int) (x : Float) : Decidable (IsBelow t x) :=
  inferInstanceAs (Decidable (UnpackedBelow t x.toModel.unpack))

theorem IsBelow.isInf {t : Int} {x : Float} (h : IsBelow t x) : x.isInf = false := by
  unfold IsBelow at h
  show x.toModel.unpack.isInf = false
  generalize x.toModel.unpack = u at h ⊢
  cases u with
  | zero | finite | notANumber => rfl
  | infinity => cases h

theorem isBelow_ofModel {t : Int} {u : UnpackedFloat} (h : UnpackedBelow t u) (hleast : -1021 ≤ t)
    (ht : t ≤ 1024) : IsBelow t (.ofModel (.pack u)) :=
  unpackedBelow_pack h hleast ht

theorem log2_mul_lt {m n : Nat} (hm : m < 2 ^ 53) (hn : n < 2 ^ 53) : (m * n).log2 < 106 := by
  by_cases hzero : m * n = 0
  · rw [hzero]
    decide
  · rw [Nat.log2_lt hzero]
    have hlt : m * n < 2 ^ 53 * 2 ^ 53 := Nat.mul_lt_mul'' hm hn
    rwa [← Nat.pow_add] at hlt

theorem isBelow_mul {a b : Int} {x y : Float} (hx : IsBelow a x) (hy : IsBelow b y)
    (hleast : -1022 ≤ a + b) (hmost : a + b ≤ 1023) : IsBelow (a + b + 1) (x * y) := by
  refine isBelow_ofModel ?_ (by omega) (by omega)
  unfold IsBelow Float.Model.unpack at hx hy
  unfold Float.Model.unpack
  have hmx := @mantissa_lt_of_unpack x.toModel.toBits.toBitVec
  have hmy := @mantissa_lt_of_unpack y.toModel.toBits.toBitVec
  generalize unpack .binary64 x.toModel.toBits.toBitVec = u at hx hmx ⊢
  generalize unpack .binary64 y.toModel.toBits.toBitVec = v at hy hmy ⊢
  cases u with
  | infinity | notANumber => cases hx
  | zero =>
    cases v with
    | infinity | notANumber => cases hy
    | zero | finite => trivial
  | finite s m e =>
    cases v with
    | infinity | notANumber => cases hy
    | zero => trivial
    | finite s' m' e' =>
      have hlog := log2_mul_lt (hmx rfl) (hmy rfl)
      unfold UnpackedBelow at hx hy
      refine unpackedBelow_round ?_ ?_ (by omega)
      · unfold totalExponent
        omega
      · omega

theorem log2_shiftLeft {n : Nat} (hn : n ≠ 0) (k : Nat) : (n <<< k).log2 = n.log2 + k := by
  rw [Nat.shiftLeft_eq]
  refine (Nat.log2_eq_iff (Nat.mul_ne_zero hn (Nat.ne_of_gt (Nat.two_pow_pos k)))).mpr ⟨?_, ?_⟩
  · rw [Nat.pow_add]
    exact Nat.mul_le_mul_right _ (Nat.log2_self_le hn)
  · rw [Nat.add_right_comm, Nat.pow_add]
    exact Nat.mul_lt_mul_of_pos_right Nat.lt_log2_self (Nat.two_pow_pos k)

theorem isBelow_toFloat (n : UInt64) : IsBelow (n.toNat.log2 + 2) n.toFloat := by
  have hlt : n.toNat.log2 < 64 := by
    by_cases hzero : n.toNat = 0
    · rw [hzero]
      decide
    · exact (Nat.log2_lt hzero).mpr n.toNat_lt
  refine isBelow_ofModel ?_ (by omega) (by omega)
  show UnpackedBelow _ (UnpackedFloat.normalize .binary64 n.toNat 0 .positive)
  generalize n.toNat = n at hlt
  unfold UnpackedFloat.normalize
  split
  · next h => exact absurd (Int.compare_eq_lt.mp h) (by omega)
  · trivial
  · next h =>
    have hpos := Int.compare_eq_gt.mp h
    unfold UnpackedFloat.round decreaseExponent
    dsimp only
    rw [targetExponent_eq, Int.toNat_natCast]
    refine unpackedBelow_round ?_ ?_ (by omega)
    · unfold totalExponent
      rw [log2_shiftLeft (by omega)]
      omega
    · unfold totalExponent
      omega

/-- A whole number is rounded to the next power of two at most. -/
theorem unpackedBelow_ofScientific (m : Nat) :
    UnpackedBelow (m.log2 + 2) (ofScientific .binary64 m 0) := by
  by_cases hzero : m = 0
  · subst hzero
    trivial
  · have hbits : (2 : Int) ^ Format.binary64.exponentBits = 2048 := rfl
    have hmantissa : Format.binary64.mantissaBits = 53 := rfl
    unfold ofScientific
    rw [dif_neg hzero, hbits, if_neg (by decide), if_neg (by omega), if_pos (by decide)]
    unfold mul
    dsimp only
    have hten : 10 ^ Int.toNat 0 = 1 := rfl
    have hlog := log2_shiftLeft hzero 53
    rw [hmantissa, hten, Nat.mul_one]
    generalize m <<< 53 = shifted at hlog
    refine unpackedBelow_round ?_ (by omega) (by omega)
    unfold totalExponent
    omega

theorem log2_powerOfTen_le {n k : Nat} (hn : n ≤ k) : (10 ^ n : Nat).log2 ≤ (10 ^ k).log2 := by
  have hpos : (10 : Nat) ^ n ≠ 0 := Nat.ne_of_gt (Nat.pow_pos (by decide))
  refine Nat.le_of_lt_succ ((Nat.log2_lt hpos).mpr ?_)
  exact Nat.lt_of_le_of_lt (Nat.pow_le_pow_right (by decide) hn) Nat.lt_log2_self

theorem isBelow_powerOfTen {n : Nat} (hn : n ≤ 308) :
    IsBelow ((10 ^ n : Nat).log2 + 2) (powerOfTen n) ∧ (10 ^ n : Nat).log2 ≤ 1023 := by
  by_cases hlast : n = 308
  · -- the bound is beyond the largest power of two, but the double is not
    subst hlast
    decide +kernel
  · have hle : n ≤ 307 := by omega
    have hlog : (10 ^ n : Nat).log2 ≤ 1019 := Nat.le_trans (log2_powerOfTen_le hle) (by decide +kernel)
    refine ⟨?_, by omega⟩
    unfold powerOfTen Float.ofScientific
    split
    · next hsmall =>
      -- the smallest powers are multiplied with one
      have hlt : 10 ^ n < 10 ^ 16 := Nat.lt_trans hsmall.1 (by decide)
      have hall : ∀ n < 16, IsBelow ((10 ^ n : Nat).log2 + 2)
          ((10 ^ n : Nat).toUInt64.toFloat * Float.exactlyRepresentablePowersOfTen[0]) := by
        decide +kernel
      exact hall n ((Nat.pow_lt_pow_iff_right (by decide)).mp hlt)
    · exact isBelow_ofModel (unpackedBelow_ofScientific _) (by omega) (by omega)

/-! ## Scaling -/

theorem log2_add_lt {m n k : Nat} (hm : m ≠ 0) (hn : n ≠ 0) (h : m * n < 2 ^ k) :
    m.log2 + n.log2 < k := by
  have hle : 2 ^ (m.log2 + n.log2) ≤ m * n := by
    rw [Nat.pow_add]
    exact Nat.mul_le_mul (Nat.log2_self_le hm) (Nat.log2_self_le hn)
  exact (Nat.pow_lt_pow_iff_right (by decide)).mp (Nat.lt_of_le_of_lt hle h)

/-- What is scaled down is never too large. -/
theorem scale_of_neg {e : Int} (he : e < 0) (x : Float) : (scale x e).isSome = true := by
  fun_induction scale x e with
  | case1 | case2 | case3 | case4 => omega
  | case5 | case6 => rfl
  | case7 x e _ _ _ ih => exact ih (by omega)

/-- What is scaled up is not too large if the exact product is a little below the largest double. -/
theorem scale_isSome {n : UInt64} {e k : Nat} (he : e ≤ 308) (h : n.toNat * 10 ^ e < 2 ^ k)
    (hk : k ≤ 1020) : (scale n.toFloat e).isSome = true := by
  obtain ⟨hten, hlog⟩ := isBelow_powerOfTen he
  have hbelow : ∃ a : Int, IsBelow a n.toFloat ∧ -1022 ≤ a ∧ a + ((10 ^ e : Nat).log2 + 2) ≤ 1023 := by
    by_cases hn : n = 0
    · subst hn
      exact ⟨-2, by decide +kernel, by omega, by omega⟩
    · have hn : n.toNat ≠ 0 := fun hzero => hn (UInt64.toNat_inj.mp hzero)
      have hlt := log2_add_lt hn (Nat.ne_of_gt (Nat.pow_pos (by decide))) h
      exact ⟨_, isBelow_toFloat n, by omega, by omega⟩
  obtain ⟨a, hvalue, hleast, hmost⟩ := hbelow
  have hinf := (isBelow_mul hvalue hten (by omega) hmost).isInf
  rw [scale, if_pos (by omega), if_pos (by omega)]
  dsimp only
  rw [Int.toNat_natCast, hinf]
  rfl

end Json

end ControlPlane
