import Mathlib
import ScatteringData.Proofs.Double.Value

/-!
# Rounding to doubles

The result of an operation is computed as an integral significand with two residual bits, which tell
on which side of the middle of two neighbours the exact number is. It is rounded to 53 bits, packed,
and infinite only beyond the greatest double. So a finite result is next to the exact one.
-/

namespace ScatteringData

namespace Double

open Float.Model Float.Model.UnpackedFloat

/-! ## Residual bits -/

def Describes (em : ExtendedMantissa) (x : ℚ) : Prop :=
  match em.roundBit, em.stickyBit with
  | false, false => x = em.mantissa
  | false, true => em.mantissa < x ∧ x < em.mantissa + 1 / 2
  | true, false => x = em.mantissa + 1 / 2
  | true, true => em.mantissa + 1 / 2 < x ∧ x < em.mantissa + 1

variable {em : ExtendedMantissa} {x : ℚ}

theorem Describes.bounds (h : Describes em x) : em.mantissa ≤ x ∧ x < em.mantissa + 1 := by
  obtain ⟨m, r, s⟩ := em
  cases r <;> cases s <;> simp only [Describes] at h <;> constructor <;> linarith

theorem Describes.shiftRightOne (h : Describes em x) : Describes em.shiftRightOne (x / 2) := by
  obtain ⟨m, r, s⟩ := em
  have hhalf : (m : ℚ) = 2 * (m / 2 : ℕ) + (m % 2 : ℕ) := by
    exact_mod_cast (Nat.div_add_mod m 2).symm
  have hbound := h.bounds
  rcases Nat.mod_two_eq_zero_or_one m with hm | hm <;> cases r <;> cases s <;>
    simp only [Describes, ExtendedMantissa.shiftRightOne, hm] at h hhalf hbound ⊢ <;>
    push_cast at hhalf <;> simp <;> first | (constructor <;> linarith) | linarith

theorem Describes.shiftRight (h : Describes em x) (n : ℕ) : Describes (em >>> n) (x / 2 ^ n) := by
  change Describes (n.repeat ExtendedMantissa.shiftRightOne em) _
  induction n with
  | zero => simpa [Nat.repeat] using h
  | succ n ih =>
    rw [pow_succ, ← div_div]
    exact ih.shiftRightOne

theorem Describes.rounded (h : Describes em x) : |em.roundedMantissa - x| ≤ 1 / 2 := by
  obtain ⟨m, r, s⟩ := em
  rw [abs_le]
  cases r <;> cases s <;>
    simp only [Describes, ExtendedMantissa.roundedMantissa, ExtendedMantissa.accuracy,
      Accuracy.roundToNearestEven] at h ⊢
  · subst h; norm_num
  · constructor <;> linarith
  · have : m % 2 = 0 ∨ m % 2 = 1 := Nat.mod_two_eq_zero_or_one m
    rcases this with h2 | h2 <;> rw [h2] <;> push_cast <;> constructor <;> linarith
  · push_cast; constructor <;> linarith

theorem describes_exact (m : ℕ) : Describes (.ofMantissaAndAccuracy m .exact) m := rfl

theorem describes_inexact (q : ℕ) {r b : ℕ} (hr : 0 < r) (hb : r < b) :
    Describes (.ofMantissaAndAccuracy q (.inexact (compare (2 * r) b))) (q + r / b) := by
  have hr0 : (0 : ℚ) < r := by exact_mod_cast hr
  have hlt : (r : ℚ) < b := by exact_mod_cast hb
  have hpos : (0 : ℚ) < b := hr0.trans hlt
  rcases lt_trichotomy (2 * r) b with h | h | h
  · have h' : (2 : ℚ) * r < b := by exact_mod_cast h
    have hhalf : (r : ℚ) / b < 1 / 2 := by
      rw [div_lt_div_iff₀ hpos (by norm_num)]
      linarith
    rw [compare_lt_iff_lt.mpr h]
    constructor
    · exact lt_add_of_pos_right _ (div_pos hr0 hpos)
    · simpa [ExtendedMantissa.ofMantissaAndAccuracy] using hhalf
  · have h' : (2 : ℚ) * r = b := by exact_mod_cast h
    have hhalf : (r : ℚ) / b = 1 / 2 := by
      rw [div_eq_div_iff hpos.ne' (by norm_num)]
      linarith
    rw [compare_eq_iff_eq.mpr h]
    simp [Describes, ExtendedMantissa.ofMantissaAndAccuracy, hhalf]
  · have h' : (b : ℚ) < 2 * r := by exact_mod_cast h
    have hhalf : (1 : ℚ) / 2 < r / b := by
      rw [div_lt_div_iff₀ (by norm_num) hpos]
      linarith
    rw [compare_gt_iff_gt.mpr h]
    constructor
    · simpa [ExtendedMantissa.ofMantissaAndAccuracy] using hhalf
    · simpa [ExtendedMantissa.ofMantissaAndAccuracy] using (div_lt_one hpos).mpr hlt

theorem describes_fraction (a : ℕ) {b : ℕ} (hb : 0 < b) :
    Describes (.ofMantissaAndAccuracy (a / b) (accuracyOfFraction (a % b) b)) ((a : ℚ) / b) := by
  have hpos : (0 : ℚ) < b := by exact_mod_cast hb
  have hdiv : (a : ℚ) / b = (a / b : ℕ) + (a % b : ℕ) / b := by
    have : (a : ℚ) = b * (a / b : ℕ) + (a % b : ℕ) := by exact_mod_cast (Nat.div_add_mod a b).symm
    rw [div_eq_iff hpos.ne', add_mul, div_mul_cancel₀ _ hpos.ne', mul_comm]
    exact this
  rw [hdiv]
  unfold accuracyOfFraction
  by_cases hr : a % b = 0
  · simp [hr, Describes, ExtendedMantissa.ofMantissaAndAccuracy]
  · rw [if_neg hr]
    exact describes_inexact _ (Nat.pos_of_ne_zero hr) (Nat.mod_lt a hb)

/-! ## Rounding to 53 bits -/

def target (m : ℕ) (e : ℤ) : ℤ := Format.binary64.targetExponent (totalExponent m e)

theorem target_eq (m : ℕ) (e : ℤ) : target m e = max (m.log2 + e - 52) (-1074) := by
  simp only [target, Format.targetExponent, totalExponent, Format.mantissaBits, Format.minExponent]
  norm_num
  omega

def greatest : ℚ := (2 ^ 53 - 1) * 2 ^ (971 : ℤ)

structure Rounding (x : ℚ) (e : ℤ) (M : ℕ) (E : ℤ) : Prop where
  lt_top : M < 2 ^ 53
  min_le : -1074 ≤ E
  full : E = -1074 ∨ 2 ^ 52 ≤ M
  close : |(M : ℚ) * 2 ^ E - x * 2 ^ e| ≤ max (x * 2 ^ e / 2 ^ 53) (2 ^ (-1075 : ℤ))
  half : |(M : ℚ) * 2 ^ E - x * 2 ^ e| ≤ 1 / 2 * 2 ^ E
  nearest : ∀ (n : ℕ) (d : ℤ), Fitting n d →
    |(M : ℚ) * 2 ^ E - x * 2 ^ e| ≤ |(n : ℚ) * 2 ^ d - x * 2 ^ e|
  below : x * 2 ^ e ≤ greatest → E ≤ 971

theorem lt_two_pow_log2 (m : ℕ) : m + 1 ≤ 2 ^ (m.log2 + 1) := Nat.lt_log2_self

theorem shiftToTargetExponent_eq {m : ℕ} {e : ℤ} (a : Accuracy) (he : e ≤ target m e) :
    shiftToTargetExponent Format.binary64 m e a =
      (ExtendedMantissa.ofMantissaAndAccuracy m a >>> (target m e - e).toNat, target m e) := by
  change (_, e + ((target m e - e).toNat : ℤ)) = _
  rw [Int.toNat_of_nonneg (by omega), add_sub_cancel]
  rfl

/-- The significand before it is rounded: it has at most 53 bits in front of the point, and 53 unless
the exponent is the least one. -/
theorem scaled_bounds {m : ℕ} {e : ℤ} (he : e ≤ target m e) (hx : m ≤ x ∧ x < m + 1) :
    x / 2 ^ (target m e - e).toNat < 2 ^ 53 ∧
      (target m e = -1074 ∨ 2 ^ 52 ≤ x / 2 ^ (target m e - e).toNat) := by
  have htarget := target_eq m e
  generalize hk : (target m e - e).toNat = k
  have hpow : (0 : ℚ) < 2 ^ k := by positivity
  constructor
  · rw [div_lt_iff₀ hpow, ← pow_add]
    calc x < m + 1 := hx.2
      _ ≤ 2 ^ (m.log2 + 1) := by exact_mod_cast lt_two_pow_log2 m
      _ ≤ 2 ^ (53 + k) := by
          apply pow_le_pow_right₀ (by norm_num)
          omega
  · by_cases hmin : target m e = -1074
    · exact Or.inl hmin
    · right
      have hlog : m.log2 = 52 + k := by omega
      have hm : m ≠ 0 := by
        rintro rfl
        rw [Nat.log2_zero] at hlog
        omega
      rw [le_div_iff₀ hpow, ← pow_add, ← hlog]
      calc (2 : ℚ) ^ m.log2 ≤ m := by exact_mod_cast Nat.log2_self_le hm
        _ ≤ x := hx.1

theorem not_le_greatest {b y : ℚ} {n t : ℤ} (hn : n ≤ t) (hb : b ≤ y) (hb0 : 0 ≤ b)
    (hlarge : greatest < b * 2 ^ n) : ¬ y * 2 ^ t ≤ greatest := by
  have hpow : (2 : ℚ) ^ n ≤ 2 ^ t := zpow_le_zpow_right₀ (by norm_num) hn
  have hle : b * 2 ^ n ≤ y * 2 ^ t := mul_le_mul hb hpow (by positivity) (hb0.trans hb)
  exact not_le.mpr (hlarge.trans_le hle)

theorem natCast_nearest {y : ℚ} {R : ℕ} (hR : |(R : ℚ) - y| ≤ 1 / 2) (k : ℕ) :
    |(R : ℚ) - y| ≤ |(k : ℚ) - y| := by
  by_cases hk : k = R
  · rw [hk]
  · have hapart : (1 : ℚ) ≤ |(k : ℚ) - R| := by
      have hone : (1 : ℤ) ≤ |(k : ℤ) - R| := Int.one_le_abs (by omega)
      exact_mod_cast hone
    have htriangle : |(k : ℚ) - R| ≤ |(k : ℚ) - y| + |(R : ℚ) - y| := by
      rw [abs_sub_comm (R : ℚ) y]
      exact abs_sub_le _ _ _
    linarith

section
variable {y : ℚ} {e t : ℤ} {R : ℕ} (hy : y * 2 ^ t = x * 2 ^ e) (hfull : t = -1074 ∨ 2 ^ 52 ≤ y)
  (hR : |(R : ℚ) - y| ≤ 1 / 2)
include hy hfull hR

omit hfull in
theorem half_of_near : |(R : ℚ) * 2 ^ t - x * 2 ^ e| ≤ 1 / 2 * 2 ^ t := by
  have hpow : (0 : ℚ) < 2 ^ t := by positivity
  rw [← hy, ← sub_mul, abs_mul, abs_of_pos hpow]
  exact mul_le_mul_of_nonneg_right hR hpow.le

theorem close_of_near : |(R : ℚ) * 2 ^ t - x * 2 ^ e| ≤ max (x * 2 ^ e / 2 ^ 53) (2 ^ (-1075 : ℤ)) := by
  have hpow : (0 : ℚ) < 2 ^ t := by positivity
  refine (half_of_near hy hR).trans ?_
  rcases hfull with hfull | hfull
  · apply le_max_of_le_right
    rw [hfull, show (-1075 : ℤ) = -1 + -1074 by norm_num, zpow_add₀ (by norm_num)]
    norm_num
  · apply le_max_of_le_left
    rw [← hy, mul_div_right_comm]
    apply mul_le_mul_of_nonneg_right _ hpow.le
    linarith

/-- The doubles of a greater exponent are integers at this one, and those of a smaller exponent stand
below a number with 53 bits. -/
theorem nearest_of_near {n : ℕ} {d : ℤ} (hn : Fitting n d) :
    |(R : ℚ) * 2 ^ t - x * 2 ^ e| ≤ |(n : ℚ) * 2 ^ d - x * 2 ^ e| := by
  have hpow : (0 : ℚ) < 2 ^ t := by positivity
  have hscaled : ∀ k : ℕ, |(R : ℚ) * 2 ^ t - x * 2 ^ e| ≤ |(k : ℚ) * 2 ^ t - x * 2 ^ e| := by
    intro k
    rw [← hy, ← sub_mul, ← sub_mul, abs_mul, abs_mul]
    exact mul_le_mul_of_nonneg_right (natCast_nearest hR k) (abs_nonneg _)
  by_cases hd : t ≤ d
  · obtain ⟨k, hk⟩ := Int.eq_ofNat_of_zero_le (show 0 ≤ d - t by omega)
    have hsame : (n : ℚ) * 2 ^ d = (n * 2 ^ k : ℕ) * 2 ^ t := by
      rw [show d = k + t by omega, zpow_add₀ (by norm_num), zpow_natCast]
      push_cast
      ring
    rw [hsame]
    exact hscaled (n * 2 ^ k)
  · have hmin := hn.min_le
    have hy52 : 2 ^ 52 ≤ y := hfull.resolve_left (by omega)
    have hbelow : (n : ℚ) * 2 ^ d ≤ 2 ^ 52 * 2 ^ t := by
      have htop : (n : ℚ) ≤ 2 ^ 53 := by exact_mod_cast hn.lt_top.le
      have hstep : (2 : ℚ) ^ (d + 1) ≤ 2 ^ t := zpow_le_zpow_right₀ (by norm_num) (by omega)
      calc (n : ℚ) * 2 ^ d ≤ 2 ^ 53 * 2 ^ d := mul_le_mul_of_nonneg_right htop (by positivity)
        _ = 2 ^ 52 * 2 ^ (d + 1) := by rw [zpow_add₀ (by norm_num)]; ring
        _ ≤ 2 ^ 52 * 2 ^ t := mul_le_mul_of_nonneg_left hstep (by norm_num)
    have hle : (2 : ℚ) ^ 52 * 2 ^ t ≤ x * 2 ^ e := by
      rw [← hy]
      exact mul_le_mul_of_nonneg_right hy52 hpow.le
    have hbit := hscaled (2 ^ 52)
    rw [Nat.cast_pow, Nat.cast_ofNat, abs_of_nonpos (sub_nonpos.mpr hle)] at hbit
    rw [abs_of_nonpos (sub_nonpos.mpr (hbelow.trans hle))]
    linarith

theorem Rounding.of_near (hlt : y < 2 ^ 53) (hmin : -1074 ≤ t) :
    (R < 2 ^ 53 ∧ Rounding x e R t) ∨ (R = 2 ^ 53 ∧ Rounding x e (2 ^ 52) (t + 1)) := by
  obtain ⟨hlo, hhi⟩ := abs_le.mp hR
  have hclose := close_of_near hy hfull hR
  have hhalf := half_of_near hy hR
  have hnearest := fun (n : ℕ) (d : ℤ) (hn : Fitting n d) => nearest_of_near hy hfull hR hn
  by_cases hsmall : R < 2 ^ 53
  · left
    refine ⟨hsmall, hsmall, hmin, ?_, hclose, hhalf, hnearest, ?_⟩
    · rcases hfull with hfull | hfull
      · exact Or.inl hfull
      · right
        have hR52 : (2 ^ 52 : ℚ) < R + 1 := by linarith
        have : 2 ^ 52 < R + 1 := by exact_mod_cast hR52
        omega
    · intro hle
      by_contra hlarge
      have hy52 : 2 ^ 52 ≤ y := hfull.resolve_left (by omega)
      refine not_le_greatest (show 971 + 1 ≤ t by omega) hy52 (by norm_num) ?_ (hy ▸ hle)
      rw [greatest, zpow_add₀ (by norm_num), zpow_one]
      have hunit : (0 : ℚ) < 2 ^ (971 : ℤ) := by positivity
      generalize (2 : ℚ) ^ (971 : ℤ) = unit at hunit
      linarith
  · -- a significand of 54 bits is a power of two, which is carried into the exponent
    right
    have hRq : (R : ℚ) < 2 ^ 53 + 1 := by linarith
    have hR' : R < 2 ^ 53 + 1 := by exact_mod_cast hRq
    have hRtop : R = 2 ^ 53 := by omega
    have hsame : ((2 ^ 52 : ℕ) : ℚ) * 2 ^ (t + 1) = R * 2 ^ t := by
      rw [hRtop, zpow_add₀ (by norm_num)]
      push_cast
      ring
    refine ⟨hRtop, by norm_num, by omega, Or.inr le_rfl, ?_, ?_, ?_, ?_⟩
    · rw [hsame]
      exact hclose
    · rw [hsame]
      refine hhalf.trans (mul_le_mul_of_nonneg_left ?_ (by norm_num))
      exact zpow_le_zpow_right₀ (by norm_num) (by omega)
    · rw [hsame]
      exact hnearest
    · intro hle
      by_contra hlarge
      have hytop : (2 ^ 53 - 1 / 2 : ℚ) ≤ y := by
        rw [hRtop] at hhi
        push_cast at hhi
        linarith
      refine not_le_greatest (show 971 ≤ t by omega) hytop (by norm_num) ?_ (hy ▸ hle)
      exact mul_lt_mul_of_pos_right (by norm_num) (by positivity)

end

theorem shift_small {m : ℕ} {t : ℤ} (hm : m < 2 ^ 53) (ht : -1074 ≤ t) :
    (shiftToTargetExponent Format.binary64 m t .exact).1.mantissa = m ∧
      (shiftToTargetExponent Format.binary64 m t .exact).2 = t := by
  have hlog : m.log2 ≤ 52 := by
    by_cases h0 : m = 0
    · simp [h0]
    · have := (Nat.log2_lt h0).mpr hm
      omega
  have hshift : (target m t - t).toNat = 0 := by
    rw [target_eq]
    omega
  unfold target at hshift
  simp only [shiftToTargetExponent, shiftToExponent, hshift]
  exact ⟨rfl, by simp⟩

theorem shift_carry {t : ℤ} (ht : -1074 ≤ t) :
    (shiftToTargetExponent Format.binary64 (2 ^ 53) t .exact).1.mantissa = 2 ^ 52 ∧
      (shiftToTargetExponent Format.binary64 (2 ^ 53) t .exact).2 = t + 1 := by
  have hshift : (target (2 ^ 53) t - t).toNat = 1 := by
    rw [target_eq, Nat.log2_two_pow]
    omega
  unfold target at hshift
  simp only [shiftToTargetExponent, shiftToExponent, hshift]
  exact ⟨rfl, rfl⟩

/-- Rounding gives a zero, or a significand and an exponent next to the number. -/
theorem roundWithAccuracy_eq {s : Sign} {m : ℕ} {e : ℤ} {a : Accuracy} (he : e ≤ target m e)
    (hx : Describes (.ofMantissaAndAccuracy m a) x) :
    ∃ M E, Rounding x e M E ∧ roundWithAccuracy Format.binary64 s m e a =
      if h : M = 0 then .zero s else .finite s M E (Nat.pos_of_ne_zero h) := by
  have hmantissa : (ExtendedMantissa.ofMantissaAndAccuracy m a).mantissa = m := by
    cases a with
    | exact => rfl
    | inexact o => cases o <;> rfl
  have hbounds := hx.bounds
  rw [hmantissa] at hbounds
  obtain ⟨hlt, hfull⟩ := scaled_bounds he hbounds
  have hnear := (hx.shiftRight (target m e - e).toNat).rounded
  have hmin : -1074 ≤ target m e := by
    rw [target_eq]
    omega
  have hscaled : x / 2 ^ (target m e - e).toNat * 2 ^ target m e = x * 2 ^ e := by
    have hsplit : target m e = ((target m e - e).toNat : ℤ) + e := by omega
    rw [hsplit, zpow_add₀ (by norm_num), zpow_natCast, ← hsplit]
    field_simp
  unfold roundWithAccuracy
  rw [shiftToTargetExponent_eq a he]
  dsimp only
  rcases Rounding.of_near hscaled hfull hnear hlt hmin with ⟨hsmall, hround⟩ | ⟨hcarry, hround⟩
  · obtain ⟨h1, h2⟩ := shift_small hsmall hmin
    refine ⟨_, _, hround, ?_⟩
    simp only [h1, h2]
  · obtain ⟨h1, h2⟩ := shift_carry hmin
    refine ⟨_, _, hround, ?_⟩
    rw [hcarry]
    simp only [h1, h2]

/-! ## Packing -/

def packed (u : UnpackedFloat) : Float := .ofModel (Float.Model.pack u)

theorem toNat_implicit (m : BitVec 52) : (1#1 ++ m).toNat = 2 ^ 52 + m.toNat := by
  rw [BitVec.toNat_append, ← Nat.shiftLeft_add_eq_or_of_lt m.isLt]
  rfl

theorem unpack_packComponents (s : Sign) (e : BitVec 11) (m : BitVec 52) :
    UnpackedFloat.unpack Format.binary64 (packComponents Format.binary64 s e m) =
      if e = 2047#11 then if m = 0#_ then .infinity s else .notANumber
      else if e = 0#_ then
        if h : m = 0#_ then .zero s
        else .finite s m.toNat (-1074) (by simpa [BitVec.toNat_pos, BitVec.pos_iff_ne_zero])
      else .finite s (2 ^ 52 + m.toNat) (e.toNat - 1075) (by positivity) := by
  have hsign : unpackSign (packComponents Format.binary64 s e m) = s.toBitVec := by
    change (s.toBitVec ++ e ++ m).extractLsb' 63 1 = s.toBitVec
    rw [BitVec.extractLsb'_append_eq_of_le (by decide),
      BitVec.extractLsb'_append_eq_of_le (by decide)]
    cases s <;> rfl
  have hofBits : Sign.ofBitVec s.toBitVec = s := by cases s <;> rfl
  have hbias : (Format.binary64.exponentBias : ℤ) + Format.binary64.mantissaBitsWithoutImplicit = 1075 := rfl
  have hminus : (-1#11) = 2047#11 := by decide
  unfold UnpackedFloat.unpack
  simp only [unpackExponent_packComponents, unpackMantissa_packComponents, hsign, hofBits, hbias,
    toNat_implicit, hminus]
  by_cases hones : e = 2047#11
  · rw [if_pos hones, if_pos hones]
  · rw [if_neg hones, if_neg hones]
    by_cases hzero : e = 0#11
    · rw [if_pos hzero, if_pos hzero]
      subst hzero
      rfl
    · rw [if_neg hzero, if_neg hzero]

variable {s : Sign} {m : ℕ} {e : ℤ}

theorem unpack_packed_zero : (packed (.zero s)).toModel.unpack = .zero s := by
  cases s <;> rfl

theorem unpack_packed_infinity : (packed (.infinity s)).toModel.unpack = .infinity s := by
  cases s <;> rfl

theorem ofNat_ne {w a b : ℕ} (ha : a < 2 ^ w) (hb : b < 2 ^ w) (h : a ≠ b) :
    BitVec.ofNat w a ≠ BitVec.ofNat w b := by
  intro heq
  have := congrArg BitVec.toNat heq
  rw [BitVec.toNat_ofNat, BitVec.toNat_ofNat, Nat.mod_eq_of_lt ha, Nat.mod_eq_of_lt hb] at this
  exact h this

theorem unpack_packed (h : Fitting m e) (hm : 0 < m) :
    (packed (.finite s m e hm)).toModel.unpack = .finite s m e hm := by
  have hbiased : (e + Format.binary64.exponentBias + Format.binary64.mantissaBitsWithoutImplicit).toNat =
      (e + 1075).toNat := by
    change (e + 1023 + 52).toNat = _
    congr 1
    omega
  have hbits : (2 : ℕ) ^ Format.binary64.exponentBits = 2048 := rfl
  obtain ⟨htop, hmin, hmax, hfull⟩ := h
  change UnpackedFloat.unpack Format.binary64 (UnpackedFloat.pack Format.binary64 _) = _
  unfold UnpackedFloat.pack
  simp only [hbiased, hbits]
  rw [if_neg (by omega)]
  by_cases hnormal : 2 ^ 52 ≤ m
  · -- a normal number has the leading bit that is not stored
    have hlog : m.log2 = 52 := (Nat.log2_eq_iff (by omega)).mpr ⟨hnormal, htop⟩
    rw [if_pos (by rw [hlog]; rfl), unpack_packComponents]
    have he : (BitVec.ofNat 11 (e + 1075).toNat).toNat = (e + 1075).toNat := by
      rw [BitVec.toNat_ofNat]
      omega
    rw [if_neg (ofNat_ne (by omega) (by decide) (by omega)),
      if_neg (ofNat_ne (by omega) (by decide) (by omega))]
    have hm' : 2 ^ 52 + (BitVec.ofNat 52 m).toNat = m := by
      rw [BitVec.toNat_ofNat]
      omega
    simp only [he, hm']
    congr 1
    omega
  · have hlog : m.log2 < 52 := by
      rw [Nat.log2_lt (by omega)]
      omega
    rw [if_neg (by change m.log2 + 1 ≠ 53; omega), unpack_packComponents]
    have hm' : (BitVec.ofNat 52 m).toNat = m := by
      rw [BitVec.toNat_ofNat]
      omega
    rw [if_neg (by decide), if_pos rfl, dif_neg (ofNat_ne (by omega) (by decide) (by omega))]
    obtain rfl : e = -1074 := hfull.resolve_right hnormal
    simp only [hm']

theorem unpack_packed_large (he : 971 < e) (hm : 0 < m) :
    (packed (.finite s m e hm)).toModel.unpack = .infinity s := by
  have hlarge : (2 : ℕ) ^ Format.binary64.exponentBits ≤
      (e + Format.binary64.exponentBias + Format.binary64.mantissaBitsWithoutImplicit).toNat + 1 := by
    change 2048 ≤ (e + 1023 + 52).toNat + 1
    omega
  rw [← unpack_packed_infinity]
  unfold packed Float.Model.pack UnpackedFloat.pack
  simp only [if_pos hlarge]

end Double

end ScatteringData
