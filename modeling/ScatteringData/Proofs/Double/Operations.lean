import Mathlib
import ScatteringData.Proofs.Double.Rounding

/-!
# Operations on doubles

A product, a quotient, a sum and a difference of finite doubles are finite unless the exact result is beyond
the greatest double, and then at most half a unit of the last place away from it. The absolute value is
exact.
-/

namespace ScatteringData

namespace Double

open Float.Model Float.Model.UnpackedFloat

variable {x : ℚ} {s : Sign} {m : ℕ} {e : ℤ}

/-! ## Unpacked numbers -/

theorem value_of_unpack_finite {f : Float} {hm : 0 < m} (h : f.toModel.unpack = .finite s m e hm) :
    value f = s.apply 1 * (m * 2 ^ e) := by
  rw [value, binary?, h]
  cases s <;> simp [Binary.value, Sign.apply]

theorem value_of_unpack_zero {f : Float} (h : f.toModel.unpack = .zero s) : value f = 0 := by
  rw [value, binary?, h]
  simp [Binary.value]

theorem isFinite_of_unpack_finite {f : Float} {hm : 0 < m} (h : f.toModel.unpack = .finite s m e hm) :
    f.isFinite = true := by
  change f.toModel.unpack.isFinite = true
  rw [h]
  rfl

theorem isFinite_of_unpack_zero {f : Float} (h : f.toModel.unpack = .zero s) : f.isFinite = true := by
  change f.toModel.unpack.isFinite = true
  rw [h]
  rfl

theorem exists_unpack {f : Float} (hf : f.isFinite = true) :
    (∃ s, f.toModel.unpack = .zero s) ∨
      ∃ s m e hm, f.toModel.unpack = .finite s m e hm ∧ Fitting m e := by
  change f.toModel.unpack.isFinite = true at hf
  cases hu : f.toModel.unpack with
  | infinity s => simp [hu, UnpackedFloat.isFinite] at hf
  | notANumber => simp [hu, UnpackedFloat.isFinite] at hf
  | zero s => exact Or.inl ⟨s, rfl⟩
  | finite s m e hm => exact Or.inr ⟨s, m, e, hm, rfl, unpack_fitting hu⟩

theorem apply_mul (s t : Sign) : (s * t).apply 1 = s.apply 1 * t.apply 1 := by
  cases s <;> cases t <;> rfl

theorem apply_div (s t : Sign) : (s / t).apply 1 = s.apply 1 * t.apply 1 := by
  cases s <;> cases t <;> rfl

theorem apply_neg (s : Sign) (k : ℤ) : (-s).apply k = -s.apply k := by
  cases s <;> simp [Sign.apply]

theorem apply_natCast (s : Sign) (k : ℕ) : ((s.apply k : ℤ) : ℚ) = s.apply 1 * k := by
  cases s <;> simp [Sign.apply]

theorem abs_apply_one (s : Sign) : |((s.apply 1 : ℤ) : ℚ)| = 1 := by
  cases s <;> simp [Sign.apply]

/-! ## Rounded results -/

/-- A double is next to an exact number: finite up to the greatest double, and then at most half a
unit of its last place away, with no finite double nearer. -/
structure IsRounded (f : Float) (v : ℚ) : Prop where
  finite : |v| ≤ greatest → f.isFinite = true
  close : f.isFinite = true → |value f - v| ≤ max (|v| / 2 ^ 53) (2 ^ (-1075 : ℤ))
  nearest : f.isFinite = true → ∀ g : Float, g.isFinite = true → |value f - v| ≤ |value g - v|

theorem isRounded_exact {f : Float} {v : ℚ} (hf : f.isFinite = true) (hv : value f = v) :
    IsRounded f v := by
  have hzero : |value f - v| = 0 := by rw [hv, sub_self, abs_zero]
  refine ⟨fun _ => hf, fun _ => ?_, fun _ g _ => ?_⟩
  · rw [hzero]
    positivity
  · rw [hzero]
    exact abs_nonneg _

theorem IsRounded.close_half {f : Float} {v : ℚ} (h : IsRounded f v) (hf : f.isFinite = true) :
    |value f - v| ≤ max |v| 1 / 2 := by
  have htiny : (2 : ℚ) ^ (-1075 : ℤ) ≤ 2 ^ (-1 : ℤ) :=
    zpow_le_zpow_right₀ (by norm_num) (by norm_num)
  have hpow : |v| / 2 ^ 53 ≤ |v| / 2 :=
    div_le_div_of_nonneg_left (abs_nonneg v) (by norm_num) (by norm_num)
  rw [zpow_neg_one, ← one_div] at htiny
  refine (h.close hf).trans (max_le ?_ ?_)
  · linarith [le_max_left |v| 1]
  · linarith [le_max_right |v| 1]

theorem IsRounded.abs_exact_le {f : Float} {v : ℚ} (h : IsRounded f v) (hf : f.isFinite = true) :
    |v| ≤ 2 * |value f| + 1 := by
  have htriangle := abs_sub_abs_le_abs_sub v (value f)
  rw [abs_sub_comm] at htriangle
  linarith [h.close_half hf, max_le_add_of_nonneg (abs_nonneg v) zero_le_one]

theorem isRounded_zero (s : Sign) : IsRounded (packed (.zero s)) 0 := by
  exact isRounded_exact (isFinite_of_unpack_zero unpack_packed_zero)
    (value_of_unpack_zero unpack_packed_zero)

theorem exists_abs_value {f : Float} (hf : f.isFinite = true) :
    ∃ m e, Fitting m e ∧ |value f| = m * 2 ^ e := by
  rcases exists_unpack hf with ⟨s, hu⟩ | ⟨s, m, e, hm, hu, hfit⟩
  · refine ⟨0, -1074, ⟨by norm_num, le_rfl, by norm_num, Or.inl rfl⟩, ?_⟩
    rw [value_of_unpack_zero hu, abs_zero, Nat.cast_zero, zero_mul]
  · refine ⟨m, e, hfit, ?_⟩
    rw [value_of_unpack_finite hu, abs_mul, abs_apply_one, one_mul, abs_of_pos (by positivity)]

/-- No double of either sign is nearer to a number that is not negative than what it is rounded to. -/
theorem Rounding.nearest_value {M : ℕ} {E : ℤ} (h : Rounding x e M E) (hx : 0 ≤ x * 2 ^ e) (s : Sign)
    {g : Float} (hg : g.isFinite = true) :
    |(M : ℚ) * 2 ^ E - x * 2 ^ e| ≤ |value g - s.apply 1 * (x * 2 ^ e)| := by
  obtain ⟨n, d, hfit, hvalue⟩ := exists_abs_value hg
  calc |(M : ℚ) * 2 ^ E - x * 2 ^ e| ≤ |(|value g|) - x * 2 ^ e| := by
        rw [hvalue]
        exact h.nearest n d hfit
    _ = |(|value g|) - (|(s.apply 1 : ℚ) * (x * 2 ^ e)|)| := by
        rw [abs_mul, abs_apply_one, one_mul, abs_of_nonneg hx]
    _ ≤ |value g - s.apply 1 * (x * 2 ^ e)| := abs_abs_sub_abs_le _ _

theorem isRounded_round {a : Accuracy} (he : e ≤ target m e)
    (hx : Describes (.ofMantissaAndAccuracy m a) x) :
    IsRounded (packed (roundWithAccuracy Format.binary64 s m e a))
      (s.apply 1 * (x * 2 ^ e)) := by
  obtain ⟨M, E, hround, heq⟩ := roundWithAccuracy_eq (s := s) he hx
  have hx0 : 0 ≤ x * 2 ^ e := by
    have hm : (0 : ℚ) ≤ (ExtendedMantissa.ofMantissaAndAccuracy m a).mantissa := by positivity
    have := hm.trans hx.bounds.1
    positivity
  have habs : |(s.apply 1 : ℚ) * (x * 2 ^ e)| = x * 2 ^ e := by
    rw [abs_mul, abs_apply_one, one_mul, abs_of_nonneg hx0]
  have hclose := hround.close
  have hnearest := fun (g : Float) (hg : g.isFinite = true) => hround.nearest_value hx0 s hg
  rw [heq]
  by_cases hM : M = 0
  · rw [dif_pos hM]
    rw [hM, Nat.cast_zero, zero_mul, zero_sub, abs_neg, abs_of_nonneg hx0] at hclose
    simp only [hM, Nat.cast_zero, zero_mul, zero_sub, abs_neg, abs_of_nonneg hx0] at hnearest
    refine ⟨fun _ => isFinite_of_unpack_zero unpack_packed_zero, fun _ => ?_, fun _ => ?_⟩
    all_goals rw [value_of_unpack_zero unpack_packed_zero, zero_sub, abs_neg, habs]
    · exact hclose
    · exact hnearest
  · rw [dif_neg hM]
    have hpos := Nat.pos_of_ne_zero hM
    by_cases hE : E ≤ 971
    · have hunpack := unpack_packed (s := s) ⟨hround.lt_top, hround.min_le, hE, hround.full⟩ hpos
      have herror : |value (packed (.finite s M E hpos)) - s.apply 1 * (x * 2 ^ e)| =
          |(M : ℚ) * 2 ^ E - x * 2 ^ e| := by
        rw [value_of_unpack_finite hunpack, ← mul_sub, abs_mul, abs_apply_one, one_mul]
      refine ⟨fun _ => isFinite_of_unpack_finite hunpack, fun _ => ?_, fun _ => ?_⟩
      · rw [herror, habs]
        exact hclose
      · rw [herror]
        exact hnearest
    · -- an exponent that is too great is packed as infinity
      have hunpack := unpack_packed_large (s := s) (not_le.mp hE) hpos
      have hinfinite : (packed (.finite s M E hpos)).isFinite ≠ true := by
        change (packed _).toModel.unpack.isFinite ≠ true
        rw [hunpack]
        exact Bool.false_ne_true
      refine ⟨fun hle => ?_, fun hfinite => absurd hfinite hinfinite,
        fun hfinite => absurd hfinite hinfinite⟩
      rw [habs] at hle
      exact absurd (hround.below hle) hE

/-! ## Exponents -/

theorem shiftLeft_mul (m k : ℕ) (e : ℤ) : ((m <<< k : ℕ) : ℚ) * 2 ^ (e - k) = m * 2 ^ e := by
  rw [Nat.shiftLeft_eq, zpow_sub₀ (by norm_num), zpow_natCast]
  push_cast
  field_simp

theorem log2_shiftLeft (hm : 0 < m) (k : ℕ) : (m <<< k).log2 = m.log2 + k := by
  rw [Nat.shiftLeft_eq, Nat.log2_eq_iff (by positivity)]
  constructor
  · rw [pow_add]
    exact Nat.mul_le_mul_right _ (Nat.log2_self_le hm.ne')
  · rw [show m.log2 + k + 1 = m.log2 + 1 + k by omega, pow_add]
    exact Nat.mul_lt_mul_of_pos_right (lt_two_pow_log2 m) (by positivity)

theorem Fitting.mul_le_target {n : ℕ} {d : ℤ} (hm : Fitting m e) (hn : Fitting n d) (hm0 : 0 < m)
    (hn0 : 0 < n) : e + d ≤ target (m * n) (e + d) := by
  rw [target_eq]
  have hlog : ∀ {k l : ℕ}, 2 ^ 52 ≤ k → 0 < l → 52 ≤ (k * l).log2 := by
    intro k l hk hl
    rw [Nat.le_log2 (by positivity)]
    exact hk.trans (Nat.le_mul_of_pos_right k hl)
  rcases hm.full with h1 | h1
  · rcases hn.full with h2 | h2
    · omega
    · have := hlog h2 hm0
      rw [mul_comm] at this
      omega
  · have := hlog h1 hn0
    omega

def quotientExponent (m : ℕ) (e : ℤ) (n : ℕ) (d : ℤ) : ℤ :=
  min (e - d) (Format.binary64.targetExponent (totalExponent m e - totalExponent n d))

def quotientShift (m : ℕ) (e : ℤ) (n : ℕ) (d : ℤ) : ℕ := (e - d - quotientExponent m e n d).toNat

theorem quotient_le_target {n : ℕ} {d : ℤ} (hm : 0 < m) (hn : 0 < n) :
    quotientExponent m e n d ≤
      target (m <<< quotientShift m e n d / n) (quotientExponent m e n d) := by
  have hexp : quotientExponent m e n d = min (e - d) (max (m.log2 + e - (n.log2 + d) - 53) (-1074)) := by
    simp only [quotientExponent, Format.targetExponent, totalExponent, Format.mantissaBits,
      Format.minExponent]
    norm_num
    omega
  have hshift : quotientShift m e n d = (e - d - quotientExponent m e n d).toNat := rfl
  rw [target_eq]
  generalize quotientExponent m e n d = t at *
  by_cases hmin : t ≤ -1074
  · omega
  · have hlog : 52 ≤ (m <<< quotientShift m e n d / n).log2 := by
      have hbits : 53 + n.log2 ≤ m.log2 + quotientShift m e n d := by omega
      have hle : 2 ^ 52 ≤ m <<< quotientShift m e n d / n := by
        rw [Nat.le_div_iff_mul_le hn, Nat.shiftLeft_eq]
        calc 2 ^ 52 * n ≤ 2 ^ 52 * 2 ^ (n.log2 + 1) := by
              apply Nat.mul_le_mul_left
              exact (Nat.le_succ n).trans (lt_two_pow_log2 n)
          _ = 2 ^ (53 + n.log2) := by ring
          _ ≤ 2 ^ (m.log2 + quotientShift m e n d) := Nat.pow_le_pow_right (by norm_num) hbits
          _ ≤ m * 2 ^ quotientShift m e n d := by
              rw [pow_add]
              exact Nat.mul_le_mul_right _ (Nat.log2_self_le hm.ne')
      exact (Nat.le_log2 (by omega)).mpr hle
    omega

theorem quotientShift_add (m : ℕ) (e : ℤ) (n : ℕ) (d : ℤ) :
    quotientShift m e n d + quotientExponent m e n d = e - d := by
  have : quotientExponent m e n d ≤ e - d := min_le_left _ _
  have hshift : quotientShift m e n d = (e - d - quotientExponent m e n d).toNat := rfl
  omega

/-! ## The operations -/

theorem isRounded_shift (hm : 0 < m) :
    IsRounded (packed (UnpackedFloat.round Format.binary64 s m e)) (s.apply 1 * (m * 2 ^ e)) := by
  have htarget := target_eq m e
  have hshifted := target_eq (m <<< (e - target m e).toNat) (e - (e - target m e).toNat)
  rw [log2_shiftLeft hm] at hshifted
  have hround := isRounded_round (s := s) (m := m <<< (e - target m e).toNat)
    (e := e - (e - target m e).toNat) (by omega) (describes_exact _)
  rw [shiftLeft_mul] at hround
  exact hround

theorem isRounded_normalize (a e : ℤ) :
    IsRounded (packed (normalize Format.binary64 a e .positive)) (a * 2 ^ e) := by
  unfold UnpackedFloat.normalize
  rcases lt_trichotomy a 0 with h | h | h
  · have hround := isRounded_shift (s := .negative) (e := e) (show 0 < (-a).toNat by omega)
    have hcast : ((-a).toNat : ℚ) = -a := by
      exact_mod_cast congrArg (Int.cast (R := ℚ)) (Int.toNat_of_nonneg (show 0 ≤ -a by omega))
    rw [compare_lt_iff_lt.mpr h]
    rw [hcast] at hround
    simpa [Sign.apply] using hround
  · subst h
    rw [compare_eq_iff_eq.mpr rfl, Int.cast_zero, zero_mul]
    exact isRounded_zero .positive
  · have hround := isRounded_shift (s := .positive) (e := e) (show 0 < a.toNat by omega)
    have hcast : (a.toNat : ℚ) = a := by
      exact_mod_cast congrArg (Int.cast (R := ℚ)) (Int.toNat_of_nonneg h.le)
    rw [compare_gt_iff_gt.mpr h]
    rw [hcast] at hround
    simpa [Sign.apply] using hround

theorem Fitting.isRounded (h : Fitting m e) (hm : 0 < m) :
    IsRounded (packed (.finite s m e hm)) (s.apply 1 * (m * 2 ^ e)) := by
  exact isRounded_exact (isFinite_of_unpack_finite (unpack_packed h hm))
    (value_of_unpack_finite (unpack_packed h hm))

theorem isRounded_sum (s t : Sign) (m n : ℕ) (e d : ℤ) :
    IsRounded (packed (normalize Format.binary64
        (s.apply (m <<< (e - min e d).toNat : ℕ) + t.apply (n <<< (d - min e d).toNat : ℕ)) (min e d)
        .positive))
      (s.apply 1 * (m * 2 ^ e) + t.apply 1 * (n * 2 ^ d)) := by
  have hround := isRounded_normalize
    (s.apply (m <<< (e - min e d).toNat : ℕ) + t.apply (n <<< (d - min e d).toNat : ℕ)) (min e d)
  have hshift : ∀ (k : ℕ) (c : ℤ), min e d ≤ c →
      ((k <<< (c - min e d).toNat : ℕ) : ℚ) * 2 ^ min e d = k * 2 ^ c := by
    intro k c hc
    rw [← shiftLeft_mul k (c - min e d).toNat c]
    congr 2
    omega
  rwa [Int.cast_add, apply_natCast, apply_natCast, add_mul, mul_assoc, mul_assoc,
    hshift m e (min_le_left _ _), hshift n d (min_le_right _ _)] at hround

section
variable {f g : Float} (hf : f.isFinite = true) (hg : g.isFinite = true)
include hf hg

theorem isRounded_mul : IsRounded (f * g) (value f * value g) := by
  change IsRounded (packed (UnpackedFloat.mul Format.binary64 f.toModel.unpack g.toModel.unpack)) _
  rcases exists_unpack hf with ⟨s, hu⟩ | ⟨s, m, e, hm, hu, hfit⟩
  · rw [value_of_unpack_zero hu, zero_mul, hu]
    rcases exists_unpack hg with ⟨t, hv⟩ | ⟨t, n, d, hn, hv, -⟩
    · rw [hv]
      exact isRounded_zero _
    · rw [hv]
      exact isRounded_zero _
  · rcases exists_unpack hg with ⟨t, hv⟩ | ⟨t, n, d, hn, hv, hfit'⟩
    · rw [value_of_unpack_zero hv, mul_zero, hu, hv]
      exact isRounded_zero _
    · rw [value_of_unpack_finite hu, value_of_unpack_finite hv, hu, hv]
      have hround := isRounded_round (s := s * t) (hfit.mul_le_target hfit' hm hn)
        (describes_exact (m * n))
      have hvalue : ((s * t).apply 1 : ℚ) * ((m * n : ℕ) * 2 ^ (e + d)) =
          s.apply 1 * (m * 2 ^ e) * (t.apply 1 * (n * 2 ^ d)) := by
        rw [apply_mul, zpow_add₀ (by norm_num)]
        push_cast
        ring
      rwa [hvalue] at hround

theorem isRounded_div (h0 : value g ≠ 0) : IsRounded (f / g) (value f / value g) := by
  change IsRounded (packed (UnpackedFloat.div Format.binary64 f.toModel.unpack g.toModel.unpack)) _
  rcases exists_unpack hg with ⟨t, hv⟩ | ⟨t, n, d, hn, hv, -⟩
  · exact absurd (value_of_unpack_zero hv) h0
  · rcases exists_unpack hf with ⟨s, hu⟩ | ⟨s, m, e, hm, hu, -⟩
    · rw [value_of_unpack_zero hu, zero_div, hu, hv]
      exact isRounded_zero _
    · rw [value_of_unpack_finite hu, value_of_unpack_finite hv, hu, hv]
      have hround := isRounded_round (s := s / t) (quotient_le_target hm hn)
        (describes_fraction (m <<< quotientShift m e n d) hn)
      have hvalue : ((s / t).apply 1 : ℚ) * (((m <<< quotientShift m e n d : ℕ) : ℚ) / n *
          2 ^ quotientExponent m e n d) = s.apply 1 * (m * 2 ^ e) / (t.apply 1 * (n * 2 ^ d)) := by
        have hpow : (2 : ℚ) ^ quotientShift m e n d * 2 ^ quotientExponent m e n d = 2 ^ e / 2 ^ d := by
          rw [← zpow_natCast, ← zpow_add₀ (by norm_num), quotientShift_add, zpow_sub₀ (by norm_num)]
        have hsign : (((s / t).apply 1 : ℤ) : ℚ) = s.apply 1 / t.apply 1 := by
          have hinv : (t.apply 1 : ℚ) = 1 / t.apply 1 := by cases t <;> norm_num [Sign.apply]
          rw [apply_div, Int.cast_mul, div_eq_mul_one_div, ← hinv]
        rw [Nat.shiftLeft_eq, hsign]
        push_cast
        calc _ = (s.apply 1 / t.apply 1 : ℚ) * (m / n) *
              (2 ^ quotientShift m e n d * 2 ^ quotientExponent m e n d) := by ring
          _ = _ := by
              rw [hpow]
              ring
      rwa [hvalue] at hround

theorem isRounded_add : IsRounded (f + g) (value f + value g) := by
  change IsRounded (packed (UnpackedFloat.add Format.binary64 f.toModel.unpack g.toModel.unpack)) _
  rcases exists_unpack hf with ⟨s, hu⟩ | ⟨s, m, e, hm, hu, hfit⟩
  · rw [value_of_unpack_zero hu, zero_add, hu]
    rcases exists_unpack hg with ⟨t, hv⟩ | ⟨t, n, d, hn, hv, hfit⟩
    · rw [value_of_unpack_zero hv, hv]
      change IsRounded (packed (if s == t then .zero s else .zero .positive)) 0
      split <;> exact isRounded_zero _
    · rw [value_of_unpack_finite hv, hv]
      exact hfit.isRounded hn
  · rcases exists_unpack hg with ⟨t, hv⟩ | ⟨t, n, d, hn, hv, -⟩
    · rw [value_of_unpack_zero hv, add_zero, value_of_unpack_finite hu, hu, hv]
      exact hfit.isRounded hm
    · rw [value_of_unpack_finite hu, value_of_unpack_finite hv, hu, hv]
      exact isRounded_sum s t m n e d

theorem isRounded_sub : IsRounded (f - g) (value f - value g) := by
  change IsRounded (packed (UnpackedFloat.sub Format.binary64 f.toModel.unpack g.toModel.unpack)) _
  rcases exists_unpack hf with ⟨s, hu⟩ | ⟨s, m, e, hm, hu, hfit⟩
  · rw [value_of_unpack_zero hu, zero_sub, hu]
    rcases exists_unpack hg with ⟨t, hv⟩ | ⟨t, n, d, hn, hv, hfit⟩
    · rw [value_of_unpack_zero hv, neg_zero, hv]
      change IsRounded (packed (if s == -t then .zero s else .zero .positive)) 0
      split <;> exact isRounded_zero _
    · have hround := hfit.isRounded (s := -t) hn
      rw [apply_neg, Int.cast_neg, neg_mul] at hround
      rw [value_of_unpack_finite hv, hv]
      exact hround
  · rcases exists_unpack hg with ⟨t, hv⟩ | ⟨t, n, d, hn, hv, -⟩
    · rw [value_of_unpack_zero hv, sub_zero, value_of_unpack_finite hu, hu, hv]
      exact hfit.isRounded hm
    · have hround := isRounded_sum s (-t) m n e d
      simp only [apply_neg, Int.cast_neg, neg_mul, ← sub_eq_add_neg] at hround
      rw [value_of_unpack_finite hu, value_of_unpack_finite hv, hu, hv]
      exact hround

end

theorem isFinite_of_add {f g : Float} (h : (f + g).isFinite = true) : f.isFinite = true := by
  change (packed (UnpackedFloat.add Format.binary64 f.toModel.unpack
    g.toModel.unpack)).toModel.unpack.isFinite = true at h
  change f.toModel.unpack.isFinite = true
  have hnan : (packed .notANumber).toModel.unpack.isFinite = false := by decide +kernel
  cases hu : f.toModel.unpack with
  | zero s => rfl
  | finite s m e hm => rfl
  | notANumber =>
    rw [hu, UnpackedFloat.add, hnan] at h
    cases h
  | infinity s =>
    -- an infinity remains, unless it meets a NaN or the infinity of the other sign
    have hsum : UnpackedFloat.add Format.binary64 (.infinity s) g.toModel.unpack = .infinity s ∨
        UnpackedFloat.add Format.binary64 (.infinity s) g.toModel.unpack = .notANumber := by
      cases g.toModel.unpack with
      | infinity t =>
        rw [UnpackedFloat.add]
        split
        · exact Or.inl rfl
        · exact Or.inr rfl
      | notANumber => exact Or.inr rfl
      | zero t => exact Or.inl rfl
      | finite t n d hn => exact Or.inl rfl
    rw [hu] at h
    rcases hsum with hsum | hsum
    · rw [hsum, unpack_packed_infinity] at h
      cases h
    · rw [hsum, hnan] at h
      cases h

theorem value_abs {f : Float} (hf : f.isFinite = true) :
    f.abs.isFinite = true ∧ value f.abs = |value f| := by
  change (packed f.toModel.unpack.abs).toModel.unpack.isFinite = true ∧
    value (packed f.toModel.unpack.abs) = _
  rcases exists_unpack hf with ⟨s, hu⟩ | ⟨s, m, e, hm, hu, hfit⟩
  · rw [value_of_unpack_zero hu, hu, abs_zero]
    exact ⟨isFinite_of_unpack_zero unpack_packed_zero, value_of_unpack_zero unpack_packed_zero⟩
  · have hpacked := unpack_packed (s := .positive) hfit hm
    have hvalue : |value f| = m * 2 ^ e := by
      rw [value_of_unpack_finite hu, abs_mul, abs_apply_one, one_mul, abs_of_pos (by positivity)]
    rw [hvalue, hu]
    refine ⟨isFinite_of_unpack_finite hpacked, ?_⟩
    rw [UnpackedFloat.abs, value_of_unpack_finite hpacked]
    simp [Sign.apply]

/-! ## The range of doubles -/

theorem zpow_least : (2 : ℚ) ^ (-1074 : ℤ) = 2 * 2 ^ (-1075 : ℤ) := by
  rw [← zpow_one_add₀ (by norm_num)]
  rfl

theorem zpow_normal : (2 : ℚ) ^ (-1022 : ℤ) = 2 ^ 53 * 2 ^ (-1075 : ℤ) := by
  rw [← zpow_natCast, ← zpow_add₀ (by norm_num)]
  rfl

variable {f g : Float}

theorem abs_value_le_greatest (hf : f.isFinite = true) : |value f| ≤ greatest := by
  rcases exists_unpack hf with ⟨s, hu⟩ | ⟨s, m, e, hm, hu, hfit⟩
  · rw [value_of_unpack_zero hu, abs_zero, greatest]
    positivity
  · have hm' : (m : ℚ) ≤ 2 ^ 53 - 1 := by
      have : m + 1 ≤ 2 ^ 53 := hfit.lt_top
      have h : (m : ℚ) + 1 ≤ 2 ^ 53 := by exact_mod_cast this
      linarith
    rw [value_of_unpack_finite hu, abs_mul, abs_apply_one, one_mul, abs_of_pos (by positivity), greatest]
    exact mul_le_mul hm' (zpow_le_zpow_right₀ (by norm_num) hfit.le_max) (by positivity) (by norm_num)

theorem exists_value_eq_mul (hf : f.isFinite = true) : ∃ z : ℤ, value f = z * 2 ^ (-1074 : ℤ) := by
  rcases exists_unpack hf with ⟨s, hu⟩ | ⟨s, m, e, hm, hu, hfit⟩
  · exact ⟨0, by rw [value_of_unpack_zero hu, Int.cast_zero, zero_mul]⟩
  · obtain ⟨k, hk⟩ := Int.eq_ofNat_of_zero_le (show 0 ≤ e - -1074 by have := hfit.min_le; omega)
    refine ⟨s.apply 1 * (m * 2 ^ k), ?_⟩
    rw [value_of_unpack_finite hu, show e = k + -1074 by omega, zpow_add₀ (by norm_num), zpow_natCast]
    generalize (2 : ℚ) ^ (-1074 : ℤ) = least
    push_cast
    ring

theorem value_eq_of_near (hf : f.isFinite = true) (hg : g.isFinite = true)
    (h : |value f - value g| < 2 ^ (-1074 : ℤ)) : value f = value g := by
  obtain ⟨y, hy⟩ := exists_value_eq_mul hf
  obtain ⟨z, hz⟩ := exists_value_eq_mul hg
  have hunit : (0 : ℚ) < 2 ^ (-1074 : ℤ) := by positivity
  rw [hy, hz] at h ⊢
  rw [← sub_mul, abs_mul, abs_of_pos hunit, mul_lt_iff_lt_one_left hunit] at h
  have hlt : |y - z| < 1 := by exact_mod_cast h
  rw [sub_eq_zero.mp (Int.abs_lt_one_iff.mp hlt)]

theorem value_le_of_lt_normal (hf : f.isFinite = true) (h : value f < 2 ^ (-1022 : ℤ)) :
    value f ≤ (2 ^ 53 - 2) * 2 ^ (-1075 : ℤ) := by
  obtain ⟨z, hz⟩ := exists_value_eq_mul hf
  rw [zpow_least] at hz
  rw [zpow_normal] at h
  have hleast : (0 : ℚ) < 2 ^ (-1075 : ℤ) := by positivity
  generalize (2 : ℚ) ^ (-1075 : ℤ) = half at *
  have hlt : (z : ℚ) < 2 ^ 52 := by
    rw [hz] at h
    nlinarith
  have hlt' : z < 2 ^ 52 := by exact_mod_cast hlt
  have hle : (z : ℚ) ≤ 2 ^ 52 - 1 := by exact_mod_cast Int.le_sub_one_of_lt hlt'
  rw [hz]
  nlinarith

theorem value_zero : value 0.0 = 0 := by decide +kernel

theorem eq_zero_of_value (hf : f.isFinite = true) (h : value f = 0) :
    f = 0.0 ∨ f = -0.0 := by
  have hbeq := (beq_iff_value hf (show Float.isFinite 0.0 = true by decide)).mpr (h.trans value_zero.symm)
  rcases (Float.beq_iff_ne_nan_and_eq.mp hbeq).2.2 with heq | ⟨heq, -⟩ | ⟨heq, -⟩
  · exact Or.inl heq
  · exact Or.inl heq
  · exact Or.inr heq

theorem isMagnitude_of_value_nonneg (hf : f.isFinite = true) (h : 0 ≤ value f) :
    isMagnitude f = true := by
  have hlt : ¬ f < 0.0 := by
    rw [lt_iff_value hf (by decide), value_zero]
    exact not_lt.mpr h
  rw [isMagnitude, hf, decide_eq_false hlt]
  rfl

theorem IsRounded.nonneg {v : ℚ} (h : IsRounded f v) (hf : f.isFinite = true) (hv : 0 ≤ v) :
    0 ≤ value f := by
  obtain ⟨z, hz⟩ := exists_value_eq_mul hf
  have hclose := h.close hf
  have hleast : (0 : ℚ) < 2 ^ (-1075 : ℤ) := by positivity
  rw [zpow_least] at hz
  rw [abs_of_nonneg hv] at hclose
  generalize (2 : ℚ) ^ (-1075 : ℤ) = half at *
  by_contra hneg
  rw [not_le] at hneg
  -- a negative double is a whole unit below zero, and so too far away
  have hz1 : (z : ℚ) ≤ -1 := by
    have hz0 : (z : ℚ) < 0 := by
      rw [hz] at hneg
      exact neg_of_mul_neg_left hneg (by linarith)
    have hz0' : z < 0 := by exact_mod_cast hz0
    exact_mod_cast Int.le_sub_one_of_lt hz0'
  have hlow : value f ≤ -(2 * half) := by
    rw [hz]
    nlinarith
  rcases le_max_iff.mp hclose with h | h
  · linarith [(abs_le.mp h).1]
  · linarith [(abs_le.mp h).1]

theorem value_sub_self (hf : f.isFinite = true) (hg : g.isFinite = true)
    (h : value f = value g) : (f - g).isFinite = true ∧ value (f - g) = 0 := by
  have hsub := isRounded_sub hf hg
  rw [h, sub_self] at hsub
  have hfinite : (f - g).isFinite = true := by
    apply hsub.finite
    rw [abs_zero, greatest]
    positivity
  refine ⟨hfinite, ?_⟩
  rw [← value_zero]
  apply value_eq_of_near hfinite (by decide)
  have hclose := hsub.close hfinite
  rw [abs_zero, zero_div, max_eq_right (by positivity)] at hclose
  rw [value_zero, zpow_least]
  linarith [show (0 : ℚ) < 2 ^ (-1075 : ℤ) by positivity]

/-! ## Temperatures in MeV -/

theorem isFinite_boltzmann : boltzmann.isFinite = true := by decide +kernel

theorem value_boltzmann : 0 < value boltzmann ∧ value boltzmann < 1 := by
  have hbinary : binary? boltzmann = some ⟨6667338066469065, -86⟩ := by decide +kernel
  rw [value, hbinary, Option.map_some, Option.getD_some, Binary.value]
  constructor <;> norm_num

theorem isMagnitude_kelvinToMev (hf : isMagnitude f = true) :
    isMagnitude (kelvinToMev f) = true := by
  have hff := isFinite_of_isMagnitude hf
  obtain ⟨hk0, hk1⟩ := value_boltzmann
  have hmul := isRounded_mul hff isFinite_boltzmann
  have hpos : 0 ≤ value f * value boltzmann := mul_nonneg (value_nonneg hf) hk0.le
  have hfinite : (kelvinToMev f).isFinite = true := by
    apply hmul.finite
    rw [abs_mul, abs_of_pos hk0]
    exact (mul_le_of_le_one_right (abs_nonneg _) hk1.le).trans (abs_value_le_greatest hff)
  exact isMagnitude_of_value_nonneg hfinite (hmul.nonneg hfinite hpos)

end Double

end ScatteringData
