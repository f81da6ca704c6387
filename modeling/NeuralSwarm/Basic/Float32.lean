import Mathlib
import NeuralSwarm.Basic.Scalar

/-!
# Numbers among the single precision floats

Which operations of `Float32` return a NaN, and the order of the others.  Results are followed
through unpacking, rounding and packing: an operation on floats that are at least zero returns such
a float again, except for products of zero and infinity and quotients of two zeros or two
infinities.
-/

namespace Binary32

open Float.Model (Format UnpackedFloat totalExponent)
open Float.Model.UnpackedFloat

/-! ## Packing -/

/-- A float of a sign: neither a NaN nor of the other sign. -/
def HasSign (sign : Sign) : UnpackedFloat → Prop
  | .infinity s | .zero s | .finite s .. => s = sign
  | .notANumber => False

/-- What is packed with an exponent that is not all ones is read back as zero or finite. -/
theorem hasSign_unpack_packComponents {spec : Format} {sign : Sign}
    {exponent : BitVec spec.exponentBits} {mantissa : BitVec spec.mantissaBitsWithoutImplicit}
    (h : exponent ≠ -1#_ ∨ mantissa = 0#_) :
    HasSign sign (unpack spec (packComponents spec sign exponent mantissa)) := by
  simp only [unpack, unpackMantissa_packComponents, unpackExponent_packComponents,
    unpackSign_packComponents, Sign.ofBitVec_toBitVec]
  split_ifs
  · rfl
  · simp_all
  · rfl
  · rfl
  · rfl

/-- Packing may round a float to zero or overflow it, but keeps its sign. -/
theorem hasSign_unpack_pack {sign : Sign} {x : UnpackedFloat} (h : HasSign sign x) :
    HasSign sign (unpack .binary32 (pack .binary32 x)) := by
  cases x with
  | notANumber => exact h.elim
  | infinity s =>
    cases h
    exact hasSign_unpack_packComponents (.inr rfl)
  | zero s =>
    cases h
    exact hasSign_unpack_packComponents (.inr rfl)
  | finite s m e hm =>
    cases h
    simp only [pack]
    split_ifs with hlarge hnormal
    · exact hasSign_unpack_packComponents (.inr rfl)
    · refine hasSign_unpack_packComponents (.inl fun hones => hlarge ?_)
      have hbits := congrArg BitVec.toNat hones
      simp only [BitVec.toNat_ofNat, BitVec.neg_one_eq_allOnes, BitVec.toNat_allOnes] at hbits
      omega
    · refine hasSign_unpack_packComponents (.inl ?_)
      decide

/-! ## Operations on floats of positive sign -/

variable {spec : Format} {x y : UnpackedFloat}

theorem hasSign_roundWithAccuracy (sign : Sign) (m : ℕ) (e : ℤ) (accuracy : Accuracy) :
    HasSign sign (roundWithAccuracy spec sign m e accuracy) := by
  unfold roundWithAccuracy
  dsimp only
  split_ifs <;> rfl

theorem hasSign_round (sign : Sign) (m : ℕ) (e : ℤ) : HasSign sign (round spec sign m e) :=
  hasSign_roundWithAccuracy ..

/-- Zero or finite and positive. -/
def IsFinite : UnpackedFloat → Prop
  | .zero _ => True
  | .finite s .. => s = .positive
  | _ => False

/-- Finite and positive. -/
def IsPositive : UnpackedFloat → Prop
  | .finite s .. => s = .positive
  | _ => False

/-- Neither a NaN nor below zero; a zero may have either sign. -/
def IsNonneg : UnpackedFloat → Prop
  | .infinity s | .finite s .. => s = .positive
  | .zero _ => True
  | .notANumber => False

/-- Not a NaN. -/
def IsNumber : UnpackedFloat → Prop
  | .notANumber => False
  | _ => True

theorem IsFinite.isNonneg (h : IsFinite x) : IsNonneg x := by
  cases x with
  | infinity | notANumber => exact h.elim
  | zero | finite => exact h

theorem IsPositive.isFinite (h : IsPositive x) : IsFinite x := by
  cases x with
  | infinity | notANumber | zero => exact h.elim
  | finite => exact h

theorem IsNonneg.isNumber (h : IsNonneg x) : IsNumber x := by
  cases x with
  | notANumber => exact h.elim
  | infinity | zero | finite => trivial

theorem HasSign.isNonneg (h : HasSign .positive x) : IsNonneg x := by
  cases x with
  | notANumber => exact h.elim
  | zero => trivial
  | infinity | finite => exact h

theorem isNonneg_unpack_pack : ∀ {x : UnpackedFloat}, IsNonneg x →
    IsNonneg (unpack .binary32 (pack .binary32 x))
  | .infinity .positive, _ =>
    (hasSign_unpack_pack (show HasSign .positive (.infinity .positive) from rfl)).isNonneg
  | .finite .positive .., _ => HasSign.isNonneg (hasSign_unpack_pack rfl)
  | .zero .positive, _ => trivial
  | .zero .negative, _ => trivial

theorem isNonneg_normalize {m : ℤ} (hm : 0 ≤ m) (e : ℤ) :
    IsNonneg (UnpackedFloat.normalize spec m e .positive) := by
  unfold UnpackedFloat.normalize
  split
  · rename_i hlt
    exact absurd (Int.compare_eq_lt.1 hlt) (not_lt.2 hm)
  · trivial
  · exact (hasSign_round ..).isNonneg

theorem IsNonneg.add : ∀ {x y : UnpackedFloat}, IsNonneg x → IsNonneg y → IsNonneg (add spec x y)
  | .infinity _, .infinity _, rfl, rfl => rfl
  | .infinity _, .zero _, h, _ | .infinity _, .finite .., h, _ => h
  | .zero _, .infinity _, _, h | .finite .., .infinity _, _, h => h
  | .zero s, .zero t, _, _ => by cases s <;> cases t <;> exact trivial
  | .zero _, .finite .., _, h | .finite .., .zero _, h, _ => h
  | .finite .., .finite .., rfl, rfl =>
    isNonneg_normalize (Int.add_nonneg (Int.natCast_nonneg _) (Int.natCast_nonneg _)) _

/-- A product is a number unless one factor is zero and the other infinite. -/
theorem IsNonneg.mul : ∀ {x y : UnpackedFloat}, IsNonneg x → IsNonneg y →
    IsPositive x ∨ IsPositive y ∨ IsFinite x ∧ IsFinite y → IsNonneg (mul spec x y)
  | .infinity _, .infinity _, rfl, rfl, _ => rfl
  | .infinity _, .finite .., rfl, rfl, _ | .finite .., .infinity _, rfl, rfl, _ => rfl
  | .infinity _, .zero _, _, _, h | .zero _, .infinity _, _, _, h => by
    rcases h with h | h | h
    · exact h.elim
    · exact h.elim
    · first | exact h.1.elim | exact h.2.elim
  | .zero _, .zero _, _, _, _ | .zero _, .finite .., _, _, _ | .finite .., .zero _, _, _, _ =>
    trivial
  | .finite .., .finite .., rfl, rfl, _ => (hasSign_roundWithAccuracy ..).isNonneg

theorem IsFinite.div : ∀ {x y : UnpackedFloat}, IsFinite x → IsPositive y →
    IsNonneg (div spec x y)
  | .zero _, .finite .., _, _ => trivial
  | .finite .., .finite .., rfl, rfl => (hasSign_roundWithAccuracy ..).isNonneg

/-! ## Rounding that neither vanishes nor overflows -/

theorem mantissa_shiftRight (em : ExtendedMantissa) (n : ℕ) :
    (em >>> n).mantissa = em.mantissa / 2 ^ n := by
  show (n.repeat ExtendedMantissa.shiftRightOne em).mantissa = _
  induction n with
  | zero => simp [Nat.repeat]
  | succ n ih =>
    rw [Nat.repeat, ExtendedMantissa.shiftRightOne, ih, Nat.div_div_eq_div_mul, pow_succ]

theorem roundedMantissa_mem (em : ExtendedMantissa) :
    em.mantissa ≤ em.roundedMantissa ∧ em.roundedMantissa ≤ em.mantissa + 1 := by
  obtain ⟨m, roundBit, stickyBit⟩ := em
  cases roundBit <;> cases stickyBit <;>
    simp only [ExtendedMantissa.roundedMantissa, ExtendedMantissa.accuracy,
      Accuracy.roundToNearestEven] <;> omega

theorem targetExponent_eq (m : ℕ) (e : ℤ) :
    Format.binary32.targetExponent (totalExponent m e) = max (m.log2 + e - 23) (-149) := by
  simp only [Format.targetExponent, totalExponent, Format.mantissaBits, Format.minExponent]
  omega

/-- A shift of an exact mantissa drops the bits below its target exponent. -/
theorem shiftToTargetExponent_eq {m k : ℕ} {e : ℤ}
    (hk : (max (m.log2 + e - 23) (-149) - e).toNat = k) :
    shiftToTargetExponent .binary32 m e .exact =
      (ExtendedMantissa.ofMantissaAndAccuracy m .exact >>> k, e + k) := by
  rw [shiftToTargetExponent, shiftToExponent, targetExponent_eq, hk]

/-- Rounding shifts, rounds, and shifts once more to take back a carry. -/
theorem roundWithAccuracy_eq {m r k l : ℕ} {e : ℤ} (sign : Sign)
    (hk : (max (m.log2 + e - 23) (-149) - e).toNat = k)
    (hr : (ExtendedMantissa.ofMantissaAndAccuracy m .exact >>> k).roundedMantissa = r)
    (hl : (max (r.log2 + (e + k) - 23) (-149) - (e + k)).toNat = l) (hne : 0 < r / 2 ^ l) :
    roundWithAccuracy .binary32 sign m e .exact = .finite sign (r / 2 ^ l) (e + k + l) hne := by
  have hmantissa : (ExtendedMantissa.ofMantissaAndAccuracy r .exact >>> l).mantissa =
      r / 2 ^ l := mantissa_shiftRight ..
  simp only [roundWithAccuracy, shiftToTargetExponent_eq hk, hr, shiftToTargetExponent_eq hl,
    hmantissa, hne.ne', dif_neg, not_false_eq_true]

/-- A mantissa that has its target exponent is not rounded. -/
theorem roundWithAccuracy_of_target {m : ℕ} {e : ℤ} (hm : 0 < m)
    (he : max (m.log2 + e - 23) (-149) = e) (sign : Sign) :
    roundWithAccuracy .binary32 sign m e .exact = .finite sign m e hm := by
  have hround : (ExtendedMantissa.ofMantissaAndAccuracy m .exact >>> 0).roundedMantissa = m := rfl
  have hagain : (max ((m.log2 : ℤ) + (e + (0 : ℕ)) - 23) (-149) - (e + (0 : ℕ))).toNat = 0 := by
    omega
  rw [roundWithAccuracy_eq sign (by omega) hround hagain (by simpa using hm)]
  simp

/-- A mantissa of more than 24 bits is rounded to 24 bits; a carry costs one more exponent. -/
theorem roundWithAccuracy_of_lt {m : ℕ} {e : ℤ} (hm : 2 ^ 24 ≤ m) (he : -149 ≤ e) (sign : Sign) :
    ∃ m' e' h', roundWithAccuracy .binary32 sign m e .exact = .finite sign m' e' h' ∧
      m' < 2 ^ 24 ∧ -149 ≤ e' ∧ e' ≤ m.log2 + e - 22 := by
  have hne : m ≠ 0 := by omega
  have hlog : 24 ≤ m.log2 := (Nat.le_log2 hne).2 hm
  have hk : (max ((m.log2 : ℤ) + e - 23) (-149) - e).toNat = m.log2 - 23 := by omega
  obtain ⟨r, hr⟩ : ∃ r, (ExtendedMantissa.ofMantissaAndAccuracy m .exact >>>
      (m.log2 - 23)).roundedMantissa = r := ⟨_, rfl⟩
  have hbounds := roundedMantissa_mem
    (ExtendedMantissa.ofMantissaAndAccuracy m .exact >>> (m.log2 - 23))
  have hmantissa : (ExtendedMantissa.ofMantissaAndAccuracy m .exact).mantissa = m := rfl
  rw [mantissa_shiftRight, hmantissa, hr] at hbounds
  have hpow : 2 ^ m.log2 = 2 ^ 23 * 2 ^ (m.log2 - 23) := by
    rw [← pow_add]
    congr 1
    omega
  have hlow : 2 ^ 23 ≤ m / 2 ^ (m.log2 - 23) := by
    rw [Nat.le_div_iff_mul_le (Nat.two_pow_pos _), ← hpow]
    exact Nat.log2_self_le hne
  have hhigh : m / 2 ^ (m.log2 - 23) < 2 ^ 24 := by
    rw [Nat.div_lt_iff_lt_mul (Nat.two_pow_pos _)]
    have hlt : m < 2 ^ (m.log2 + 1) := Nat.lt_log2_self
    rw [pow_succ, hpow] at hlt
    omega
  have hrne : r ≠ 0 := by omega
  have hlower : 23 ≤ r.log2 := (Nat.le_log2 hrne).2 (by omega)
  rcases Nat.lt_or_ge r (2 ^ 24) with hsmall | hcarry
  · have hlogr : r.log2 < 24 := (Nat.log2_lt hrne).2 hsmall
    have hl : (max ((r.log2 : ℤ) + (e + (m.log2 - 23 : ℕ)) - 23) (-149) -
        (e + (m.log2 - 23 : ℕ))).toNat = 0 := by omega
    refine ⟨_, _, _, roundWithAccuracy_eq sign hk hr hl (by simp; omega), ?_, ?_, ?_⟩
    · simpa using hsmall
    · omega
    · omega
  · obtain rfl : r = 2 ^ 24 := by omega
    have hl : (max (((2 ^ 24 : ℕ).log2 : ℤ) + (e + (m.log2 - 23 : ℕ)) - 23) (-149) -
        (e + (m.log2 - 23 : ℕ))).toNat = 1 := by
      rw [Nat.log2_two_pow]
      omega
    refine ⟨_, _, _, roundWithAccuracy_eq sign hk hr hl (by decide), by decide, ?_, ?_⟩
    · omega
    · omega

/-- What is packed with an exponent in range and some bit set is read back as finite. -/
theorem isPositive_unpack_packComponents {exponent : BitVec 8} {mantissa : BitVec 23}
    (hones : exponent ≠ -1#_) (hzero : exponent ≠ 0#_ ∨ mantissa ≠ 0#_) :
    IsPositive (unpack .binary32 (packComponents .binary32 .positive exponent mantissa)) := by
  simp only [unpack, unpackMantissa_packComponents, unpackExponent_packComponents,
    unpackSign_packComponents, Sign.ofBitVec_toBitVec, if_neg hones]
  split_ifs with hexponent hmantissa
  · rcases hzero with h | h
    · exact absurd hexponent h
    · exact absurd hmantissa h
  · rfl
  · rfl

/-- The exponent of a float in range is neither all zeros nor all ones. -/
theorem exists_biasedExponent {e : ℤ} (hlow : -149 ≤ e) (hhigh : e ≤ 104) :
    ∃ biased, (e + Format.binary32.exponentBias + (23 : ℕ)).toNat = biased ∧ biased < 255 ∧
      ((BitVec.ofNat 8 biased).toNat : ℤ) - (Format.binary32.exponentBias + (23 : ℕ)) = e ∧
      BitVec.ofNat 8 biased ≠ -1#_ ∧ BitVec.ofNat 8 biased ≠ 0#_ := by
  have hbias : Format.binary32.exponentBias = 127 := rfl
  obtain ⟨biased, hbiased⟩ : ∃ biased, (e + (127 : ℕ) + (23 : ℕ)).toNat = biased := ⟨_, rfl⟩
  have hexponent : (BitVec.ofNat 8 biased).toNat = biased := by
    rw [BitVec.toNat_ofNat, Nat.mod_eq_of_lt (by omega)]
  refine ⟨biased, hbiased, by omega, ?_, fun hones => ?_, fun hzero => ?_⟩
  · rw [hexponent, hbias]
    omega
  · rw [hones] at hexponent
    have hall : (-1#8).toNat = 255 := rfl
    omega
  · rw [hzero] at hexponent
    have hnone : (0#8).toNat = 0 := rfl
    omega

theorem isPositive_unpack_pack_finite {m : ℕ} {e : ℤ} (h : 0 < m) (hm : m < 2 ^ 24)
    (hlow : -149 ≤ e) (hhigh : e ≤ 104) :
    IsPositive (unpack .binary32 (pack .binary32 (.finite .positive m e h))) := by
  obtain ⟨biased, hbiased, hlt, -, hones, hzero⟩ := exists_biasedExponent hlow hhigh
  simp only [pack, hbiased]
  rw [if_neg (by omega)]
  split_ifs with hnormal
  · exact isPositive_unpack_packComponents hones (.inl hzero)
  · refine isPositive_unpack_packComponents (by decide) (.inr fun hnone => ?_)
    have hlog : m.log2 < 23 := by
      have := (Nat.log2_lt h.ne').2 hm
      simp only [Format.mantissaBits] at hnormal
      omega
    have hmantissa : (BitVec.ofNat 23 m).toNat = m := by
      rw [BitVec.toNat_ofNat, Nat.mod_eq_of_lt ((Nat.log2_lt h.ne').1 hlog)]
    rw [hnone] at hmantissa
    exact h.ne hmantissa

theorem log2_shiftLeft {m : ℕ} (hm : m ≠ 0) (k : ℕ) : (m <<< k).log2 = m.log2 + k := by
  have hne : m * 2 ^ k ≠ 0 := Nat.mul_ne_zero hm (Nat.two_pow_pos k).ne'
  rw [Nat.shiftLeft_eq, Nat.log2_eq_iff hne, pow_add, Nat.add_right_comm, pow_add]
  exact ⟨Nat.mul_le_mul_right _ (Nat.log2_self_le hm),
    Nat.mul_lt_mul_of_pos_right Nat.lt_log2_self (Nat.two_pow_pos k)⟩

/-- A short mantissa is shifted to the left until it has its target exponent. -/
theorem round_of_le {m : ℕ} {e target : ℤ} (hm : 0 < m)
    (htarget : max ((m.log2 : ℤ) + e - 23) (-149) = target) (hle : target ≤ e) (sign : Sign) :
    ∃ h, round .binary32 sign m e = .finite sign (m <<< (e - target).toNat) target h := by
  have hpos : 0 < m <<< (e - target).toNat := by
    rw [Nat.shiftLeft_eq]
    exact Nat.mul_pos hm (Nat.two_pow_pos _)
  have hexponent : e - ((e - target).toNat : ℤ) = target := by omega
  have hexact : max (((m <<< (e - target).toNat).log2 : ℤ) + target - 23) (-149) = target := by
    rw [log2_shiftLeft hm.ne']
    omega
  refine ⟨hpos, ?_⟩
  simp only [UnpackedFloat.round, decreaseExponent, targetExponent_eq, htarget, hexponent]
  exact roundWithAccuracy_of_target hpos hexact sign

theorem isPositive_unpack_pack_roundWithAccuracy {m : ℕ} {e : ℤ} (hm : 2 ^ 24 ≤ m)
    (hlow : -149 ≤ e) (hhigh : (m.log2 : ℤ) + e ≤ 126) :
    IsPositive (unpack .binary32 (pack .binary32
      (roundWithAccuracy .binary32 .positive m e .exact))) := by
  obtain ⟨m', e', h', heq, hm', hlow', hhigh'⟩ := roundWithAccuracy_of_lt hm hlow .positive
  rw [heq]
  exact isPositive_unpack_pack_finite h' hm' hlow' (by omega)

/-- Rounding to a magnitude between the smallest float and the largest leaves a positive float. -/
theorem isPositive_unpack_pack_round {m : ℕ} {e : ℤ} (hm : 0 < m) (hlow : -149 ≤ e)
    (hhigh : (m.log2 : ℤ) + e ≤ 126) :
    IsPositive (unpack .binary32 (pack .binary32 (round .binary32 .positive m e))) := by
  obtain ⟨target, htarget⟩ : ∃ target, max ((m.log2 : ℤ) + e - 23) (-149) = target := ⟨_, rfl⟩
  rcases le_or_gt target e with hle | hlt
  · obtain ⟨hpos, heq⟩ := round_of_le hm htarget hle .positive
    rw [heq]
    refine isPositive_unpack_pack_finite hpos ?_ (by omega) (by omega)
    rw [← Nat.log2_lt hpos.ne', log2_shiftLeft hm.ne']
    omega
  · have hshift : (e - target).toNat = 0 := by omega
    have hlarge : 2 ^ 24 ≤ m := by
      rw [← Nat.le_log2 hm.ne']
      omega
    simp only [UnpackedFloat.round, decreaseExponent, targetExponent_eq, htarget, hshift,
      Nat.shiftLeft_zero, Int.natCast_zero, Int.sub_zero]
    exact isPositive_unpack_pack_roundWithAccuracy hlarge hlow hhigh

/-- Packing drops the leading bit of a normal mantissa and unpacking puts it back. -/
theorem toNat_implicitBit_append {m : ℕ} (hm : 2 ^ 23 ≤ m) (hm' : m < 2 ^ 24) :
    (1#1 ++ BitVec.ofNat 23 m).toNat = m := by
  have hlow : (BitVec.ofNat 23 m).toNat = m - 2 ^ 23 := by
    rw [BitVec.toNat_ofNat, show m = m - 2 ^ 23 + 2 ^ 23 by omega, Nat.add_mod_right,
      Nat.mod_eq_of_lt (by omega)]
    omega
  rw [BitVec.toNat_append, hlow, ← Nat.shiftLeft_add_eq_or_of_lt (by omega)]
  simp only [BitVec.toNat_ofNat, Nat.shiftLeft_eq]
  omega

/-- A normal float in range survives packing. -/
theorem unpack_pack_normal {m : ℕ} {e : ℤ} (h : 0 < m) (hm : 2 ^ 23 ≤ m) (hm' : m < 2 ^ 24)
    (hlow : -149 ≤ e) (hhigh : e ≤ 104) (sign : Sign) :
    unpack .binary32 (pack .binary32 (.finite sign m e h)) = .finite sign m e h := by
  obtain ⟨biased, hbiased, hlt, hexponent, hones, hzero⟩ := exists_biasedExponent hlow hhigh
  have hlog : m.log2 + 1 = Format.binary32.mantissaBits := by
    have hlt := (Nat.log2_lt h.ne').2 hm'
    have hle := (Nat.le_log2 h.ne').2 hm
    simp only [Format.mantissaBits]
    omega
  simp only [pack, hbiased]
  rw [if_neg (by omega), if_pos hlog]
  simp only [unpack, unpackMantissa_packComponents, unpackExponent_packComponents,
    unpackSign_packComponents, Sign.ofBitVec_toBitVec, if_neg hones, if_neg hzero]
  congr 1
  exact toNat_implicitBit_append hm hm'

/-- A float that is read from its bits has at most 24 of them and no tiny exponent. -/
theorem bounds_of_unpack {b : BitVec 32} {s : Sign} {m : ℕ} {e : ℤ} {h : 0 < m}
    (heq : unpack .binary32 b = .finite s m e h) : m < 2 ^ 24 ∧ -149 ≤ e := by
  have hbias : Format.binary32.exponentBias = 127 := rfl
  simp only [unpack, hbias] at heq
  split_ifs at heq with hones hmantissa hzero
  · cases heq
    have hlt : (@unpackMantissa .binary32 b).toNat < 2 ^ 23 := BitVec.isLt _
    rw [hzero]
    exact ⟨by omega, by decide⟩
  · cases heq
    have hne : (@unpackExponent .binary32 b).toNat ≠ 0 := fun h0 =>
      hzero (BitVec.eq_of_toNat_eq h0)
    exact ⟨BitVec.isLt _, by omega⟩

/-! ## The order -/

/-- The position of a number among the floats, by class, then exponent, then mantissa. -/
def rank : UnpackedFloat → ℤ ×ₗ ℤ ×ₗ ℤ
  | .infinity .negative => toLex (-2, toLex (0, 0))
  | .finite .negative m e _ => toLex (-1, toLex (-e, -m))
  | .notANumber | .zero _ => toLex (0, toLex (0, 0))
  | .finite .positive m e _ => toLex (1, toLex (e, m))
  | .infinity .positive => toLex (2, toLex (0, 0))

theorem compare_natCast (m n : ℕ) : compare (m : ℤ) n = compare m n := by
  rcases lt_trichotomy m n with h | h | h
  · rw [Nat.compare_eq_lt.2 h, Int.compare_eq_lt.2 (by omega)]
  · rw [Nat.compare_eq_eq.2 h, Int.compare_eq_eq.2 (by omega)]
  · rw [Nat.compare_eq_gt.2 h, Int.compare_eq_gt.2 (by omega)]

theorem compare_neg (a b : ℤ) : compare (-a) (-b) = (compare a b).swap := by
  rcases lt_trichotomy a b with h | h | h
  · rw [Int.compare_eq_lt.2 h, Int.compare_eq_gt.2 (by omega)]; rfl
  · rw [Int.compare_eq_eq.2 h, Int.compare_eq_eq.2 (by omega)]; rfl
  · rw [Int.compare_eq_gt.2 h, Int.compare_eq_lt.2 (by omega)]; rfl

theorem compare_eq {x y : UnpackedFloat} (hx : IsNumber x) (hy : IsNumber y) :
    x.compare y = some (compare (rank x) (rank y)) := by
  rcases x with (_ | _) | _ | (_ | _) | ⟨_ | _, m, e, h⟩ <;>
  rcases y with (_ | _) | _ | (_ | _) | ⟨_ | _, m', e', h'⟩ <;>
    first | rfl | exact hx.elim | exact hy.elim | skip
  · show some _ = some ((compare (-e) (-e')).then (compare (-m : ℤ) (-m')))
    rw [compare_neg, compare_neg, compare_natCast, Ordering.swap_then]
  · show some _ = some ((compare e e').then (compare (m : ℤ) (m')))
    rw [compare_natCast]

/-! ## The operations of `Float32` -/

/-- The float as the model of IEEE 754 sees it. -/
abbrev unpacked (x : Float32) : UnpackedFloat := x.toModel.unpack

theorem unpacked_one : unpacked 1.0 = .finite .positive (2 ^ 23) (-23) (by decide) := rfl

theorem unpacked_half : unpacked 0.5 = .finite .positive (2 ^ 23) (-24) (by decide) := rfl

theorem unpacked_sub (x y : Float32) : unpacked (x - y) =
    unpack .binary32 (pack .binary32 (sub .binary32 (unpacked x) (unpacked y))) := rfl

theorem unpacked_mul (x y : Float32) : unpacked (x * y) =
    unpack .binary32 (pack .binary32 (mul .binary32 (unpacked x) (unpacked y))) := rfl

theorem ofNat_of_lt {n : ℕ} (h : n < 2 ^ 23) :
    Float32.ofNat n = n.toUInt64.toFloat32 * Float32.ofBits 0x3F800000 := by
  have hsmall : n < 2 ^ 23 ∧ 0 ≤ 10 := ⟨h, by decide⟩
  show Float32.ofScientific n false 0 = _
  simp only [Float32.ofScientific, hsmall]
  rfl

theorem ofNat_of_le {n : ℕ} (h : 2 ^ 23 ≤ n) :
    Float32.ofNat n = .ofModel (.ofScientific n 0) := by
  have hlarge : ¬ (n < 2 ^ 23 ∧ 0 ≤ 10) := by omega
  show Float32.ofScientific n false 0 = _
  simp only [Float32.ofScientific, hlarge, dif_neg, not_false_eq_true]
  rfl

theorem unpacked_ofUInt64 (n : UInt64) : unpacked n.toFloat32 =
    unpack .binary32 (pack .binary32 (UnpackedFloat.normalize .binary32 n.toNat 0 .positive)) := rfl

theorem normalize_of_pos {m : ℤ} (hm : 0 < m) (e : ℤ) :
    UnpackedFloat.normalize spec m e .positive = UnpackedFloat.round spec .positive m.toNat e := by
  rw [UnpackedFloat.normalize, Int.compare_eq_gt.2 hm]

/-- A natural number below `2 ^ 23` is a float. -/
theorem unpacked_toUInt64_of_lt {n : ℕ} (h0 : 0 < n) (h : n < 2 ^ 23) :
    ∃ m hm, 2 ^ 23 ≤ m ∧ m < 2 ^ 24 ∧
      unpacked n.toUInt64.toFloat32 = .finite .positive m ((n.log2 : ℤ) - 23) hm := by
  have hlog : n.log2 < 23 := (Nat.log2_lt h0.ne').2 h
  have hn : n.toUInt64.toNat = n := Nat.mod_eq_of_lt (by omega)
  have htarget : max ((n.log2 : ℤ) + 0 - 23) (-149) = (n.log2 : ℤ) - 23 := by omega
  obtain ⟨hpos, heq⟩ := round_of_le h0 htarget (by omega) .positive
  have hshift := log2_shiftLeft h0.ne' (0 - ((n.log2 : ℤ) - 23)).toNat
  have hlow := (Nat.le_log2 hpos.ne' (k := 23)).1 (by omega)
  have hhigh := (Nat.log2_lt hpos.ne' (k := 24)).1 (by omega)
  refine ⟨_, hpos, hlow, hhigh, ?_⟩
  rw [unpacked_ofUInt64, hn, normalize_of_pos (by omega), Int.toNat_natCast, heq]
  exact unpack_pack_normal hpos hlow hhigh (by omega) (by omega) _

theorem unpacked_ofScientific {n : ℕ} (h : 0 < n) : unpacked (.ofModel (.ofScientific n 0)) =
    unpack .binary32 (pack .binary32
      (roundWithAccuracy .binary32 .positive (n <<< 24) (-24) .exact)) := by
  have hsmall : ¬ (0 : ℤ) > 2 ^ Format.binary32.exponentBits := by decide
  have hlarge : ¬ (0 : ℤ) < -((2 ^ Format.binary32.exponentBits : ℤ) + n.log2) := by omega
  have heq : UnpackedFloat.ofScientific .binary32 n 0 =
      roundWithAccuracy .binary32 .positive (n <<< 24 * 1) (-24 + 0) .exact := by
    rw [UnpackedFloat.ofScientific, dif_neg h.ne', if_neg hsmall, if_neg hlarge, if_pos le_rfl]
    rfl
  show unpack .binary32 (pack .binary32 (UnpackedFloat.ofScientific .binary32 n 0)) = _
  rw [heq, Nat.mul_one, Int.add_zero]

/-- `as f32` of a positive number of at most 64 bits. -/
theorem isPositive_ofNat {n : ℕ} (h0 : 0 < n) (h : n < 2 ^ 64) :
    IsPositive (unpacked (.ofNat n)) := by
  have hlog : n.log2 < 64 := (Nat.log2_lt h0.ne').2 h
  rcases Nat.lt_or_ge n (2 ^ 23) with hsmall | hlarge
  · obtain ⟨m, hm, hlow, hhigh, heq⟩ := unpacked_toUInt64_of_lt h0 hsmall
    have hone : unpacked (.ofBits 0x3F800000) = .finite .positive (2 ^ 23) (-23) (by decide) := rfl
    rw [ofNat_of_lt hsmall, unpacked_mul, heq, hone]
    have hlogm : m.log2 < 24 := (Nat.log2_lt hm.ne').2 hhigh
    have hlogm' : (m * 2 ^ 23).log2 = m.log2 + 23 := by
      rw [← Nat.shiftLeft_eq, log2_shiftLeft hm.ne']
    exact isPositive_unpack_pack_roundWithAccuracy (by omega) (by omega) (by omega)
  · have hlog' : (n <<< 24).log2 = n.log2 + 24 := log2_shiftLeft h0.ne' 24
    have hmul : 2 ^ 24 ≤ n <<< 24 := by
      rw [Nat.shiftLeft_eq]
      omega
    rw [ofNat_of_le hlarge, unpacked_ofScientific h0]
    exact isPositive_unpack_pack_roundWithAccuracy hmul (by omega) (by omega)

theorem lt_iff_compare {x y : Float32} :
    x < y ↔ (unpacked x).compare (unpacked y) = some .lt := by
  refine decide_eq_true_iff.trans ?_
  show (unpacked x).lt (unpacked y) = true ↔ _
  rw [UnpackedFloat.lt, beq_iff_eq]

theorem le_iff_compare {x y : Float32} :
    x ≤ y ↔ ∃ o, (unpacked x).compare (unpacked y) = some o ∧ o.isLE = true := by
  refine decide_eq_true_iff.trans ?_
  show (unpacked x).le (unpacked y) = true ↔ _
  rw [UnpackedFloat.le, Option.any_eq_true]

theorem lt_iff {x y : Float32} (hx : IsNumber (unpacked x)) (hy : IsNumber (unpacked y)) :
    x < y ↔ rank (unpacked x) < rank (unpacked y) := by
  rw [lt_iff_compare, compare_eq hx hy, Option.some.injEq, compare_lt_iff_lt]

theorem le_iff {x y : Float32} (hx : IsNumber (unpacked x)) (hy : IsNumber (unpacked y)) :
    x ≤ y ↔ rank (unpacked x) ≤ rank (unpacked y) := by
  rw [le_iff_compare, compare_eq hx hy]
  simp [← compare_le_iff_le, Ordering.isLE_iff_ne_gt]

/-- Two numbers can always be compared. -/
theorem partialCmp_eq {x y : Float32} (hx : IsNumber (unpacked x)) (hy : IsNumber (unpacked y)) :
    Scalar.partialCmp x y = some (compare (rank (unpacked x)) (rank (unpacked y))) := by
  unfold Scalar.partialCmp
  have hxy : x < y ↔ _ := lt_iff hx hy
  have hyx : y < x ↔ _ := lt_iff hy hx
  have hle : x ≤ y ↔ _ := le_iff hx hy
  rcases lt_trichotomy (rank (unpacked x)) (rank (unpacked y)) with h | h | h
  · rw [if_pos (hxy.2 h), compare_lt_iff_lt.2 h]
  · rw [if_neg (hxy.not.2 h.not_lt), if_neg (hyx.not.2 h.not_gt), if_pos (hle.2 h.le),
      compare_eq_iff_eq.2 h]
  · rw [if_neg (hxy.not.2 h.not_gt), if_pos (hyx.2 h), compare_gt_iff_gt.2 h]

theorem isNonneg_of_not_lt {x : Float32} (h : x ≤ x) (hlt : ¬ x < 0.0) :
    IsNonneg (unpacked x) := by
  have hzero : unpacked 0.0 = .zero .positive := rfl
  rw [lt_iff_compare, hzero] at hlt
  rw [le_iff_compare] at h
  rcases hx : unpacked x with (_ | _) | _ | (_ | _) | ⟨_ | _, m, e, hm⟩ <;> rw [hx] at h hlt
  · exact absurd rfl hlt
  · rfl
  · simp [UnpackedFloat.compare] at h
  · trivial
  · trivial
  · exact absurd rfl hlt
  · rfl

/-- The maximum with zero is a number even for a NaN. -/
theorem isNonneg_max (x : Float32) : IsNonneg (unpacked (Scalar.max x 0.0)) := by
  unfold Scalar.max
  split_ifs with hx hlt
  · trivial
  · exact isNonneg_of_not_lt hx hlt
  · trivial

/-- Clamping to the unit interval takes away an infinity. -/
theorem isFinite_clamp {x : Float32} (h : IsNonneg (unpacked x)) :
    IsFinite (unpacked (Scalar.clamp x 0.0 1.0)) := by
  unfold Scalar.clamp
  dsimp only
  split_ifs with h1 h2 h2
  · rfl
  · trivial
  · rfl
  · rw [lt_iff_compare, unpacked_one] at h2
    rcases hx : unpacked x with (_ | _) | _ | (_ | _) | ⟨_ | _, m, e, hm⟩ <;> rw [hx] at h h2
    · cases h
    · exact h2 rfl
    · exact h
    · trivial
    · trivial
    · cases h
    · rfl

/-- One less a number below one does not vanish. -/
theorem isPositive_unpack_pack_one_sub {m : ℕ} {e : ℤ} (h : 0 < m) (hm : m < 2 ^ 24)
    (hlow : -149 ≤ e) (hhigh : e ≤ -24) :
    IsPositive (unpack .binary32 (pack .binary32 (sub .binary32
      (.finite .positive (2 ^ 23) (-23) (by decide)) (.finite .positive m e h)))) := by
  have hmin : min (-23) e = e := by omega
  obtain ⟨k, hk⟩ : ∃ k, (-23 - e).toNat = k := ⟨_, rfl⟩
  have hpow : 2 ^ 24 ≤ 2 ^ 23 * 2 ^ k := by
    rw [← pow_add]
    exact Nat.pow_le_pow_right (by decide) (by omega)
  have hpos : 0 < 2 ^ 23 * 2 ^ k - m := by omega
  have hlog : (2 ^ 23 * 2 ^ k - m).log2 ≤ 23 + k := by
    have hsucc : 2 ^ (23 + k + 1) = 2 * (2 ^ 23 * 2 ^ k) := by rw [pow_succ', pow_add]
    rw [← Nat.lt_succ_iff, Nat.log2_lt hpos.ne']
    omega
  have hsub : sub .binary32 (.finite .positive (2 ^ 23) (-23) (by decide))
      (.finite .positive m e h) =
        UnpackedFloat.round .binary32 .positive (2 ^ 23 * 2 ^ k - m) e := by
    simp only [sub, decreaseExponent, hmin, hk, sub_self, Int.toNat_zero, Nat.shiftLeft_eq,
      Sign.apply]
    rw [normalize_of_pos (by omega)]
    congr 1
    omega
  rw [hsub]
  exact isPositive_unpack_pack_round hpos hlow (by omega)

theorem isPositive_one_sub {p : Float32} (h : IsNonneg (unpacked p)) (hle : ¬ 0.5 < p) :
    IsPositive (unpacked (1.0 - p)) := by
  rw [lt_iff_compare, unpacked_half] at hle
  rw [unpacked_sub, unpacked_one]
  rcases hp : unpacked p with (_ | _) | _ | (_ | _) | ⟨_ | _, m, e, hm⟩ <;> rw [hp] at h hle
  · cases h
  · exact absurd rfl hle
  · exact h.elim
  · rfl
  · rfl
  · cases h
  · obtain ⟨hm', hlow⟩ := bounds_of_unpack hp
    refine isPositive_unpack_pack_one_sub hm hm' hlow (Int.not_lt.1 fun hlt => hle ?_)
    show some ((compare (-24) e).then (compare (2 ^ 23) m)) = some .lt
    rw [Int.compare_eq_lt.2 hlt]
    rfl

/-! ## Nonnegative floats -/

section Nonneg

variable {x y : Float32}

theorem isNonneg_add (hx : IsNonneg (unpacked x)) (hy : IsNonneg (unpacked y)) :
    IsNonneg (unpacked (x + y)) := isNonneg_unpack_pack (hx.add hy)

theorem isNonneg_mul (hx : IsNonneg (unpacked x)) (hy : IsNonneg (unpacked y))
    (h : IsPositive (unpacked x) ∨ IsPositive (unpacked y) ∨
      IsFinite (unpacked x) ∧ IsFinite (unpacked y)) :
    IsNonneg (unpacked (x * y)) := isNonneg_unpack_pack (hx.mul hy h)

theorem isNonneg_div (hx : IsFinite (unpacked x)) (hy : IsPositive (unpacked y)) :
    IsNonneg (unpacked (x / y)) := isNonneg_unpack_pack (hx.div hy)

theorem isFinite_ofNat {n : ℕ} (h : n < 2 ^ 64) : IsFinite (unpacked (.ofNat n)) := by
  rcases Nat.eq_zero_or_pos n with rfl | h0
  · trivial
  · exact (isPositive_ofNat h0 h).isFinite

/-- The minimum with one half is at most one half, whatever the other argument is. -/
theorem isPositive_one_sub_min (hx : IsNonneg (unpacked x)) :
    IsPositive (unpacked (1.0 - Scalar.min x 0.5)) := by
  unfold Scalar.min
  split_ifs with hself hlt
  · rfl
  · exact isPositive_one_sub hx hlt
  · rfl

end Nonneg

end Binary32
