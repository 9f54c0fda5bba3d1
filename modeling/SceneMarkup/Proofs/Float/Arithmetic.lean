/-
  SceneMarkup/Proofs/Float/Arithmetic.lean --- arithmetic that does not leave the numbers.

  WHAT THIS FILE IS FOR.  A product or quotient is not a number only for some operands
  that are zero or infinite.  The powers of ten of the range of floats are neither
  (`isProper_powerOfTen`), so a number that is scaled by one of them remains a number.
  The arithmetic is that of the unpacked floats, and packing a result loses neither.
-/
import Mathlib.Algebra.Group.Int.Defs
import Mathlib.Algebra.Group.Nat.Defs
import SceneMarkup.Proofs.Float.Order

set_option autoImplicit false

namespace SceneMarkup

open Float.Model (Format UnpackedFloat totalExponent)
open Float.Model.UnpackedFloat

/-! ## Packing -/

/-- An unpacked float that is neither zero nor infinite. -/
def isProper : UnpackedFloat → Bool
  | .finite .. => true
  | _ => false

section Packing

variable {s : Sign} {m : ℕ} {e : ℤ}

theorem isNaN_unpack (b : BitVec Format.binary64.numBits) :
    (UnpackedFloat.unpack Format.binary64 b).isNaN = true ↔
      unpackExponent b = -1#_ ∧ unpackMantissa b ≠ 0#_ := by
  unfold UnpackedFloat.unpack
  dsimp only
  by_cases hexponent : unpackExponent b = -1#_
  · rw [if_pos hexponent]
    by_cases hmantissa : unpackMantissa b = 0#_
    · rw [if_pos hmantissa]
      exact iff_of_false Bool.false_ne_true fun h => h.2 hmantissa
    · rw [if_neg hmantissa]
      exact iff_of_true rfl ⟨hexponent, hmantissa⟩
  · rw [if_neg hexponent]
    refine iff_of_false ?_ fun h => hexponent h.1
    by_cases hzero : unpackExponent b = 0#_
    · rw [if_pos hzero]
      by_cases hmantissa : unpackMantissa b = 0#_
      · rw [dif_pos hmantissa]
        exact Bool.false_ne_true
      · rw [dif_neg hmantissa]
        exact Bool.false_ne_true
    · rw [if_neg hzero]
      exact Bool.false_ne_true

theorem isProper_unpack (b : BitVec Format.binary64.numBits) :
    isProper (UnpackedFloat.unpack Format.binary64 b) = true ↔
      unpackExponent b ≠ -1#_ ∧ ¬ (unpackExponent b = 0#_ ∧ unpackMantissa b = 0#_) := by
  unfold UnpackedFloat.unpack
  dsimp only
  by_cases hexponent : unpackExponent b = -1#_
  · rw [if_pos hexponent]
    refine iff_of_false ?_ fun h => h.1 hexponent
    by_cases hmantissa : unpackMantissa b = 0#_
    · rw [if_pos hmantissa]
      exact Bool.false_ne_true
    · rw [if_neg hmantissa]
      exact Bool.false_ne_true
  · rw [if_neg hexponent]
    by_cases hzero : unpackExponent b = 0#_
    · rw [if_pos hzero]
      by_cases hmantissa : unpackMantissa b = 0#_
      · rw [dif_pos hmantissa]
        exact iff_of_false Bool.false_ne_true fun h => h.2 ⟨hzero, hmantissa⟩
      · rw [dif_neg hmantissa]
        exact iff_of_true rfl ⟨hexponent, fun h => hmantissa h.2⟩
    · rw [if_neg hzero]
      exact iff_of_true rfl ⟨hexponent, fun h => hzero h.1⟩

theorem ofNat_exponent_eq_iff {biased : ℕ} (h : biased < 2048) (n : ℕ) (hn : n < 2048) :
    BitVec.ofNat 11 biased = BitVec.ofNat 11 n ↔ biased = n := by
  rw [← BitVec.toNat_inj, BitVec.toNat_ofNat, BitVec.toNat_ofNat, Nat.mod_eq_of_lt h,
    Nat.mod_eq_of_lt hn]

/-- Packing makes nothing a number that was none, and the other way around. -/
theorem isNaN_unpack_pack (u : UnpackedFloat) : (Float.Model.pack u).unpack.isNaN = u.isNaN := by
  show (UnpackedFloat.unpack Format.binary64 (UnpackedFloat.pack Format.binary64 u)).isNaN = _
  rw [Bool.eq_iff_iff, isNaN_unpack]
  fun_cases UnpackedFloat.pack Format.binary64 u with
  | case1 => exact iff_of_true (by decide) rfl
  | case2 s =>
      refine iff_of_false ?_ Bool.false_ne_true
      simp [packedInfinity]
  | case3 s =>
      refine iff_of_false ?_ Bool.false_ne_true
      simp [packedZero]
  | case4 s m e hm biased hlarge =>
      refine iff_of_false ?_ Bool.false_ne_true
      simp [packedInfinity]
  | case5 s m e hm actual biased hlarge hnormal =>
      have hbiased : biased < 2047 := by
        change ¬ 2048 ≤ biased + 1 at hlarge
        omega
      rw [unpackExponent_packComponents]
      refine iff_of_false (fun h => ?_) Bool.false_ne_true
      have := (ofNat_exponent_eq_iff (by omega) 2047 (by omega)).1 h.1
      omega
  | case6 s m e hm actual biased hlarge hsubnormal =>
      refine iff_of_false ?_ Bool.false_ne_true
      simp

/-- A mantissa of full length with an exponent in the range of normal floats is packed as it is. -/
theorem isProper_unpack_pack {s : Sign} {m : ℕ} {e : ℤ} (hm : 0 < m) (hlog : m.log2 = 52)
    (hlow : -1074 ≤ e) (hhigh : e ≤ 971) :
    isProper (Float.Model.pack (.finite s m e hm)).unpack = true := by
  show isProper (UnpackedFloat.unpack Format.binary64
    (UnpackedFloat.pack Format.binary64 (.finite s m e hm))) = true
  have hlarge : ¬ 2 ^ 11 ≤ (e + (1023 : ℕ) + (52 : ℕ)).toNat + 1 := by omega
  have hpack : UnpackedFloat.pack Format.binary64 (.finite s m e hm) =
      packComponents Format.binary64 s (BitVec.ofNat 11 (e + (1023 : ℕ) + (52 : ℕ)).toNat)
        (BitVec.ofNat 52 m) :=
    (if_neg hlarge).trans (if_pos (congrArg (· + 1) hlog))
  have hne : ∀ n, n < 2048 → (e + (1023 : ℕ) + (52 : ℕ)).toNat ≠ n →
      BitVec.ofNat 11 (e + (1023 : ℕ) + (52 : ℕ)).toNat ≠ BitVec.ofNat 11 n := by
    intro n hn hne h
    exact hne ((ofNat_exponent_eq_iff (by omega) n hn).1 h)
  rw [hpack, isProper_unpack, unpackExponent_packComponents]
  exact ⟨hne 2047 (by omega) (by omega), fun h => hne 0 (by omega) (by omega) h.1⟩

end Packing

/-! ## Rounding -/

section Rounding

variable {m : ℕ} {e : ℤ}

theorem mantissa_shiftRight (em : ExtendedMantissa) (n : ℕ) :
    (em >>> n).mantissa = em.mantissa / 2 ^ n := by
  induction n with
  | zero => exact (Nat.div_one _).symm
  | succ n ih =>
      show (em >>> n).mantissa / 2 = _
      rw [ih, Nat.div_div_eq_div_mul, Nat.pow_succ]

/-- Rounding adds at most one. -/
theorem roundedMantissa_mem (em : ExtendedMantissa) :
    em.mantissa ≤ em.roundedMantissa ∧ em.roundedMantissa ≤ em.mantissa + 1 := by
  obtain ⟨m, roundBit, stickyBit⟩ := em
  cases roundBit <;> cases stickyBit
  case true.false =>
    show m ≤ m + m % 2 ∧ m + m % 2 ≤ m + 1
    omega
  all_goals
    simp [ExtendedMantissa.roundedMantissa, ExtendedMantissa.accuracy, Accuracy.roundToNearestEven]

theorem log2_div_two_pow (h : 52 ≤ m.log2) : (m / 2 ^ (m.log2 - 52)).log2 = 52 := by
  have hm : m ≠ 0 := by
    rintro rfl
    rw [Nat.log2_zero] at h
    omega
  have hlow : 2 ^ 52 ≤ m / 2 ^ (m.log2 - 52) := by
    rw [Nat.le_div_iff_mul_le (Nat.two_pow_pos _), ← Nat.pow_add, Nat.add_sub_cancel' h]
    exact Nat.log2_self_le hm
  have hhigh : m / 2 ^ (m.log2 - 52) < 2 ^ 53 := by
    rw [Nat.div_lt_iff_lt_mul (Nat.two_pow_pos _), ← Nat.pow_add,
      show 53 + (m.log2 - 52) = m.log2 + 1 by omega]
    exact Nat.lt_log2_self
  exact (Nat.log2_eq_iff (by omega)).2 ⟨hlow, hhigh⟩

theorem mantissa_ofMantissaAndAccuracy (m : ℕ) (accuracy : Accuracy) :
    (ExtendedMantissa.ofMantissaAndAccuracy m accuracy).mantissa = m := by
  cases accuracy with
  | exact => rfl
  | inexact side => cases side <;> rfl

/-- A mantissa of at least 53 bits is cut to 53 bits, unless its exponent is too small for that. -/
theorem shiftToTargetExponent_of_le (hm : 52 ≤ m.log2) (he : -1074 ≤ e + (m.log2 - 52 : ℕ))
    (accuracy : Accuracy) :
    (shiftToTargetExponent Format.binary64 m e accuracy).1.mantissa = m / 2 ^ (m.log2 - 52) ∧
      (shiftToTargetExponent Format.binary64 m e accuracy).2 = e + (m.log2 - 52 : ℕ) := by
  have htarget : Format.binary64.targetExponent (totalExponent m e) = e + (m.log2 - 52 : ℕ) := by
    show max ((m.log2 : ℤ) + 1 + e - (53 : ℕ)) (-1074) = _
    omega
  have hshift : (e + ((m.log2 - 52 : ℕ) : ℤ) - e).toNat = m.log2 - 52 := by omega
  rw [shiftToTargetExponent, htarget, shiftToExponent]
  dsimp only
  rw [hshift, mantissa_shiftRight, mantissa_ofMantissaAndAccuracy]
  exact ⟨rfl, rfl⟩

/-- Rounding up may add a bit to a mantissa of 53 bits, and no more. -/
theorem log2_roundedMantissa {em : ExtendedMantissa} (h : em.mantissa.log2 = 52) :
    em.roundedMantissa.log2 = 52 ∨ em.roundedMantissa.log2 = 53 := by
  obtain ⟨hge, hle⟩ := roundedMantissa_mem em
  have hne : em.mantissa ≠ 0 := by
    intro hzero
    rw [hzero, Nat.log2_zero] at h
    omega
  rw [Nat.log2_eq_iff hne] at h
  rw [Nat.log2_eq_iff (by omega), Nat.log2_eq_iff (by omega)]
  omega

/-- Rounding a mantissa of at least 53 bits gives one of 53 bits. -/
theorem roundWithAccuracy_of_le (s : Sign) (hm : 52 ≤ m.log2)
    (he : -1074 ≤ e + (m.log2 - 52 : ℕ)) (accuracy : Accuracy) :
    ∃ (m' : ℕ) (e' : ℤ) (hm' : 0 < m'),
      roundWithAccuracy Format.binary64 s m e accuracy = .finite s m' e' hm' ∧
        m'.log2 = 52 ∧ e + (m.log2 - 52 : ℕ) ≤ e' ∧ e' ≤ e + (m.log2 - 52 : ℕ) + 1 := by
  obtain ⟨hfirst, hexponent⟩ := shiftToTargetExponent_of_le hm he accuracy
  rw [roundWithAccuracy]
  generalize shiftToTargetExponent Format.binary64 m e accuracy = first at hfirst hexponent ⊢
  obtain ⟨em, e₁⟩ := first
  dsimp only at hfirst hexponent ⊢
  have hlog : em.roundedMantissa.log2 = 52 ∨ em.roundedMantissa.log2 = 53 :=
    log2_roundedMantissa (hfirst ▸ log2_div_two_pow hm)
  generalize em.roundedMantissa = r at hlog ⊢
  obtain ⟨hsecond, hexponent'⟩ := shiftToTargetExponent_of_le (m := r) (e := e₁)
    (by omega) (by omega) .exact
  generalize shiftToTargetExponent Format.binary64 r e₁ .exact = second at hsecond hexponent' ⊢
  obtain ⟨em', e₂⟩ := second
  dsimp only at hsecond hexponent' ⊢
  have hlog' : em'.mantissa.log2 = 52 := hsecond ▸ log2_div_two_pow (by omega)
  have hne : em'.mantissa ≠ 0 := by
    intro hzero
    rw [hzero, Nat.log2_zero] at hlog'
    omega
  exact ⟨em'.mantissa, e₂, Nat.pos_of_ne_zero hne, dif_neg hne, hlog', by omega, by omega⟩

end Rounding

/-! ## Operations -/

theorem isNaN_roundWithAccuracy (s : Sign) (m : ℕ) (e : ℤ) (accuracy : Accuracy) :
    (roundWithAccuracy Format.binary64 s m e accuracy).isNaN = false := by
  rw [roundWithAccuracy]
  generalize shiftToTargetExponent Format.binary64 m e accuracy = first
  obtain ⟨em, e₁⟩ := first
  dsimp only
  generalize shiftToTargetExponent Format.binary64 em.roundedMantissa e₁ .exact = second
  obtain ⟨em', e₂⟩ := second
  dsimp only
  by_cases hzero : em'.mantissa = 0
  · rw [dif_pos hzero]
    rfl
  · rw [dif_neg hzero]
    rfl

theorem isNaN_mul {a b : UnpackedFloat} (ha : a.isNaN = false) (hb : isProper b = true) :
    (UnpackedFloat.mul Format.binary64 a b).isNaN = false := by
  cases b with
  | finite t n f hn =>
      cases a with
      | notANumber => cases ha
      | infinity s => rfl
      | zero s => rfl
      | finite s m e hm => exact isNaN_roundWithAccuracy _ _ _ _
  | _ => cases hb

theorem isNaN_div {a b : UnpackedFloat} (ha : a.isNaN = false) (hb : isProper b = true) :
    (UnpackedFloat.div Format.binary64 a b).isNaN = false := by
  cases b with
  | finite t n f hn =>
      cases a with
      | notANumber => cases ha
      | infinity s => rfl
      | zero s => rfl
      | finite s m e hm => exact isNaN_roundWithAccuracy _ _ _ _
  | _ => cases hb

theorem isNaN_ofInt (i : ℤ) : (UnpackedFloat.ofInt Format.binary64 i).isNaN = false := by
  unfold UnpackedFloat.ofInt UnpackedFloat.normalize
  split
  · exact isNaN_roundWithAccuracy _ _ _ _
  · rfl
  · exact isNaN_roundWithAccuracy _ _ _ _

theorem isNaN_ofScientific (m : ℕ) (e : ℤ) :
    (UnpackedFloat.ofScientific Format.binary64 m e).isNaN = false := by
  fun_cases UnpackedFloat.ofScientific Format.binary64 m e with
  | case1 => rfl
  | case2 => rfl
  | case3 => rfl
  | case4 => exact isNaN_mul rfl rfl
  | case5 => exact isNaN_div rfl rfl

/-! ## Floats -/

section Floats

variable {x y : Float}

theorem isNumber_mul (hx : IsNumber x) (hy : isProper y.toModel.unpack = true) :
    IsNumber (x * y) :=
  (isNaN_unpack_pack _).trans (isNaN_mul hx hy)

theorem isNumber_div (hx : IsNumber x) (hy : isProper y.toModel.unpack = true) :
    IsNumber (x / y) :=
  (isNaN_unpack_pack _).trans (isNaN_div hx hy)

theorem isNumber_neg (hx : IsNumber x) : IsNumber (-x) := by
  have hneg : x.toModel.unpack.neg.isNaN = x.toModel.unpack.isNaN := by
    cases x.toModel.unpack <;> rfl
  exact (isNaN_unpack_pack _).trans (hneg.trans hx)

theorem isProper_exactPowerOfTen : ∀ e : Fin 23,
    isProper (getElem Float.exactlyRepresentablePowersOfTen e.1 e.2).toModel.unpack = true := by
  decide +kernel

theorem isNumber_ofScientific (m : ℕ) (down : Bool) (e : ℕ) :
    IsNumber (Float.ofScientific m down e) := by
  unfold Float.ofScientific
  split
  · rename_i hfast
    have hm : IsNumber m.toUInt64.toFloat := (isNaN_unpack_pack _).trans (isNaN_ofInt _)
    have hpower := isProper_exactPowerOfTen ⟨e, by omega⟩
    dsimp only
    split
    · exact isNumber_div hm hpower
    · exact isNumber_mul hm hpower
  · exact (isNaN_unpack_pack _).trans (isNaN_ofScientific _ _)

theorem isNumber_ofNat (n : ℕ) : IsNumber (Float.ofNat n) := isNumber_ofScientific n false 0

theorem isNumber_ofInt (i : ℤ) : IsNumber (Float.ofInt i) := by
  cases i with
  | ofNat n => exact isNumber_ofNat n
  | negSucc n => exact isNumber_neg (isNumber_ofNat (n + 1))

theorem isProper_smallPowerOfTen : ∀ e : Fin 23,
    isProper (Float.ofScientific 1 false e).toModel.unpack = true := by
  decide +kernel

theorem isProper_largestPowerOfTen :
    isProper (Float.ofScientific 1 false 308).toModel.unpack = true := by
  decide +kernel

theorem ofScientific_powerOfTen {e : ℕ} (hlow : 23 ≤ e) (hhigh : e ≤ 307) :
    Float.ofScientific 1 false e = Float.ofModel (Float.Model.pack
      (roundWithAccuracy Format.binary64 .positive (2 ^ 53 * 10 ^ e) (-53) .exact)) := by
  have hslow : ¬ (1 < 2 ^ 53 ∧ e ≤ 22) := by omega
  have hlarge : ¬ (Int.ofNat e > 2 ^ Format.binary64.exponentBits) := by
    show ¬ (e : ℤ) > 2048
    omega
  have hsmall : ¬ (Int.ofNat e < -((2 ^ Format.binary64.exponentBits : ℤ) + Nat.log2 1)) := by
    show ¬ (e : ℤ) < -((2048 : ℤ) + Nat.log2 1)
    omega
  have hsign : 0 ≤ Int.ofNat e := Int.natCast_nonneg e
  rw [Float.ofScientific, dif_neg hslow]
  show Float.ofModel (Float.Model.pack
    (UnpackedFloat.ofScientific Format.binary64 1 (Int.ofNat e))) = _
  rw [UnpackedFloat.ofScientific, dif_neg Nat.one_ne_zero, if_neg hlarge, if_neg hsmall,
    if_pos hsign]
  rfl

theorem log2_two_pow_mul {n : ℕ} (hn : n ≠ 0) (k : ℕ) : (2 ^ k * n).log2 = k + n.log2 := by
  rw [Nat.log2_eq_iff (Nat.mul_ne_zero (Nat.two_pow_pos k).ne' hn), Nat.add_assoc, Nat.pow_add,
    Nat.pow_add]
  exact ⟨Nat.mul_le_mul_left _ (Nat.log2_self_le hn),
    Nat.mul_lt_mul_of_pos_left Nat.lt_log2_self (Nat.two_pow_pos k)⟩

theorem log2_powerOfTen_lt {e n k : ℕ} (h : e ≤ n) (hn : 10 ^ n < 2 ^ k) : (10 ^ e).log2 < k := by
  rw [Nat.log2_lt (Nat.pow_pos (by omega)).ne']
  exact Nat.lt_of_le_of_lt (Nat.pow_le_pow_right (by omega) h) hn

/-- A power of ten that has to be rounded is not rounded out of the range of floats. -/
theorem isProper_roundedPowerOfTen {e : ℕ} (hlow : 23 ≤ e) (hhigh : e ≤ 307) :
    isProper (Float.ofScientific 1 false e).toModel.unpack = true := by
  have hlog : (2 ^ 53 * 10 ^ e).log2 = 53 + (10 ^ e).log2 :=
    log2_two_pow_mul (Nat.pow_pos (by omega)).ne' 53
  have hbound : (10 ^ e).log2 < 1022 := log2_powerOfTen_lt hhigh (by decide +kernel)
  obtain ⟨m, e', hm, heq, hcut, hge, hle⟩ := roundWithAccuracy_of_le (m := 2 ^ 53 * 10 ^ e)
    (e := -53) .positive (by omega) (by omega) .exact
  rw [ofScientific_powerOfTen hlow hhigh]
  show isProper (Float.Model.pack _).unpack = true
  rw [heq]
  exact isProper_unpack_pack hm hcut (by omega) (by omega)

/-- The powers of ten in the range of floats are neither zero nor infinite. -/
theorem isProper_powerOfTen {e : ℕ} (h : e ≤ 308) :
    isProper (Float.ofScientific 1 false e).toModel.unpack = true := by
  rcases Nat.lt_or_ge e 23 with hsmall | hlow
  · exact isProper_smallPowerOfTen ⟨e, hsmall⟩
  · rcases Nat.lt_or_ge e 308 with hhigh | hlarge
    · exact isProper_roundedPowerOfTen hlow (by omega)
    · obtain rfl : e = 308 := by omega
      exact isProper_largestPowerOfTen

end Floats

end SceneMarkup
