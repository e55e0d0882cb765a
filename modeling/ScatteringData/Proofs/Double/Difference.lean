import Mathlib
import ScatteringData.Proofs.Double.Operations

/-!
# Differences of doubles

Rounding keeps the order of numbers and leaves alone those that are doubles. A difference of two doubles
is a double if neither of the two is more than twice the other.
-/

namespace ScatteringData.Double

open Float.Model Float.Model.UnpackedFloat

section
variable {f g : Float} {v w : ℚ} (hf : f.isFinite = true) (hg : g.isFinite = true)
include hf hg

theorem IsRounded.value_eq (h : IsRounded f v) (hv : value g = v) : value f = v := by
  have hnearest := h.nearest hf g hg
  rw [hv, sub_self, abs_zero] at hnearest
  exact sub_eq_zero.mp (abs_nonpos_iff.mp hnearest)

theorem IsRounded.le_of_lt (h : IsRounded f v) (h' : IsRounded g w) (hlt : v < w) :
    value f ≤ value g := by
  by_contra hgf
  rw [not_le] at hgf
  have hlow := sq_le_sq.mpr (h.nearest hf g hg)
  have hhigh := sq_le_sq.mpr (h'.nearest hg f hf)
  nlinarith [mul_pos (sub_pos.mpr hgf) (sub_pos.mpr hlt)]

end

/-! ## Numbers that are doubles -/

theorem exists_neg_value {f : Float} (hf : f.isFinite = true) :
    ∃ g : Float, g.isFinite = true ∧ value g = -value f := by
  rcases exists_unpack hf with ⟨s, hu⟩ | ⟨s, m, e, hm, hu, hfit⟩
  · exact ⟨f, hf, by rw [value_of_unpack_zero hu, neg_zero]⟩
  · have hunpack := unpack_packed (s := -s) hfit hm
    refine ⟨_, isFinite_of_unpack_finite hunpack, ?_⟩
    rw [value_of_unpack_finite hunpack, value_of_unpack_finite hu, apply_neg, Int.cast_neg, neg_mul]

theorem exists_value_natCast {n : ℕ} {c : ℤ} (hn : n < 2 ^ 53) (hmin : -1074 ≤ c) (hmax : c ≤ 971) :
    ∃ f : Float, f.isFinite = true ∧ value f = n * 2 ^ c := by
  by_cases h0 : n = 0
  · refine ⟨0.0, by decide, ?_⟩
    rw [value_zero, h0, Nat.cast_zero, zero_mul]
  · have hpos := Nat.pos_of_ne_zero h0
    have hlog : n.log2 < 53 := (Nat.log2_lt h0).mpr hn
    -- the significand gets all of its 53 bits, or the least exponent is reached
    obtain ⟨k, hk⟩ : ∃ k : ℕ, k = min (52 - n.log2) (c + 1074).toNat := ⟨_, rfl⟩
    have hshifted := log2_shiftLeft hpos k
    have hpos' : 0 < n <<< k := by
      rw [Nat.shiftLeft_eq]
      positivity
    have hfit : Fitting (n <<< k) (c - k) := by
      refine ⟨(Nat.log2_lt hpos'.ne').mp (by omega), by omega, by omega, ?_⟩
      by_cases hleast : c - k = -1074
      · exact Or.inl hleast
      · exact Or.inr ((Nat.le_log2 hpos'.ne').mp (by omega))
    have hunpack := unpack_packed (s := .positive) hfit hpos'
    refine ⟨_, isFinite_of_unpack_finite hunpack, ?_⟩
    rw [value_of_unpack_finite hunpack, shiftLeft_mul]
    simp [Sign.apply]

theorem exists_value {z c : ℤ} (hz : |z| < 2 ^ 53) (hmin : -1074 ≤ c) (hmax : c ≤ 971) :
    ∃ f : Float, f.isFinite = true ∧ value f = z * 2 ^ c := by
  obtain ⟨n, rfl | rfl⟩ := z.eq_nat_or_neg
  · rw [Nat.abs_cast] at hz
    exact exists_value_natCast (by exact_mod_cast hz) hmin hmax
  · rw [abs_neg, Nat.abs_cast] at hz
    obtain ⟨f, hf, hvalue⟩ := exists_value_natCast (n := n) (by exact_mod_cast hz) hmin hmax
    obtain ⟨g, hg, hneg⟩ := exists_neg_value hf
    exact ⟨g, hg, by rw [hneg, hvalue, Int.cast_neg, neg_mul, Int.cast_natCast]⟩

theorem exists_value_of_small {z : ℤ} (h : |(z : ℚ) * 2 ^ (-1074 : ℤ)| < 2 ^ 53 * 2 ^ (-1074 : ℤ)) :
    ∃ f : Float, f.isFinite = true ∧ value f = z * 2 ^ (-1074 : ℤ) := by
  have hunit : (0 : ℚ) < 2 ^ (-1074 : ℤ) := by positivity
  rw [abs_mul, abs_of_pos hunit, mul_lt_mul_iff_left₀ hunit] at h
  exact exists_value (by exact_mod_cast h) le_rfl (by norm_num)

theorem exists_half {f : Float} (hf : f.isFinite = true) :
    (∃ g : Float, g.isFinite = true ∧ value g = value f / 2) ∨
      |value f| < 2 ^ 53 * 2 ^ (-1074 : ℤ) := by
  rcases exists_unpack hf with ⟨s, hu⟩ | ⟨s, m, e, hm, hu, hfit⟩
  · exact Or.inl ⟨f, hf, by rw [value_of_unpack_zero hu, zero_div]⟩
  · have habs : |((s.apply m : ℤ))| < 2 ^ 53 := by
      have := hfit.lt_top
      cases s <;> simp [Sign.apply] <;> omega
    have hvalue : value f = (s.apply m : ℤ) * 2 ^ e := by
      rw [value_of_unpack_finite hu, apply_natCast, mul_assoc]
    by_cases hleast : e = -1074
    · right
      rw [hvalue, hleast, abs_mul, abs_of_pos (show (0 : ℚ) < 2 ^ (-1074 : ℤ) by positivity)]
      exact mul_lt_mul_of_pos_right (by exact_mod_cast habs) (by positivity)
    · left
      have hmin := hfit.min_le
      have hmax := hfit.le_max
      obtain ⟨g, hg, hhalf⟩ := exists_value (c := e - 1) habs (by omega) (by omega)
      refine ⟨g, hg, ?_⟩
      rw [hhalf, hvalue, zpow_sub_one₀ (by norm_num)]
      ring

/-! ## Exact differences -/

theorem Fitting.exists_sub {m n : ℕ} {e d : ℤ} (hm : Fitting m e) (hle : e ≤ d)
    (hsmall : |(m : ℚ) * 2 ^ e - n * 2 ^ d| ≤ m * 2 ^ e) :
    ∃ f : Float, f.isFinite = true ∧ value f = m * 2 ^ e - n * 2 ^ d := by
  obtain ⟨k, hk⟩ := Int.eq_ofNat_of_zero_le (show 0 ≤ d - e by omega)
  have hpow : (0 : ℚ) < 2 ^ e := by positivity
  have hdifference : (m : ℚ) * 2 ^ e - n * 2 ^ d = ((m - n * 2 ^ k : ℤ) : ℚ) * 2 ^ e := by
    rw [show d = k + e by omega, zpow_add₀ (by norm_num), zpow_natCast]
    push_cast
    ring
  rw [hdifference] at hsmall ⊢
  rw [abs_mul, abs_of_pos hpow, mul_le_mul_iff_left₀ hpow] at hsmall
  have hz : |(m - n * 2 ^ k : ℤ)| ≤ m := by exact_mod_cast hsmall
  have htop := hm.lt_top
  exact exists_value (by omega) hm.min_le hm.le_max

/-- Of two doubles neither of which is more than twice the other the difference is exact. -/
theorem value_sub {f g : Float} (hf : isMagnitude f = true) (hg : isMagnitude g = true)
    (hfg : value f ≤ 2 * value g) (hgf : value g ≤ 2 * value f) :
    value (f - g) = value f - value g := by
  have hff := isFinite_of_isMagnitude hf
  have hgfinite := isFinite_of_isMagnitude hg
  obtain ⟨m, e, hm, hfvalue⟩ := exists_abs_value hff
  obtain ⟨n, d, hn, hgvalue⟩ := exists_abs_value hgfinite
  rw [abs_of_nonneg (value_nonneg hf)] at hfvalue
  rw [abs_of_nonneg (value_nonneg hg)] at hgvalue
  have hf0 := value_nonneg hf
  have hg0 := value_nonneg hg
  have hbelow : |value f - value g| ≤ value f := abs_le.mpr ⟨by linarith, by linarith⟩
  have hbelow' : |value g - value f| ≤ value g := abs_le.mpr ⟨by linarith, by linarith⟩
  have hrounded := isRounded_sub hff hgfinite
  have hfinite : (f - g).isFinite = true := by
    apply hrounded.finite
    have htop := abs_value_le_greatest hff
    rw [abs_of_nonneg hf0] at htop
    exact hbelow.trans htop
  have hdouble : ∃ h : Float, h.isFinite = true ∧ value h = value f - value g := by
    rcases le_total e d with hle | hle
    · rw [hfvalue, hgvalue] at hbelow ⊢
      exact hm.exists_sub hle hbelow
    · rw [hfvalue, hgvalue] at hbelow'
      obtain ⟨h, hh, hvalue⟩ := hn.exists_sub hle hbelow'
      obtain ⟨h', hh', hneg⟩ := exists_neg_value hh
      exact ⟨h', hh', by rw [hneg, hvalue, hfvalue, hgvalue, neg_sub]⟩
  obtain ⟨h, hh, hvalue⟩ := hdouble
  exact hrounded.value_eq hfinite hh hvalue

/-! ## Absolute values -/

theorem IsRounded.abs {f : Float} {v : ℚ} (h : IsRounded f v) (hf : f.isFinite = true) :
    IsRounded f.abs |v| := by
  obtain ⟨hfinite, hvalue⟩ := value_abs hf
  have hle : |value f.abs - (|v|)| ≤ |value f - v| := by
    rw [hvalue]
    exact abs_abs_sub_abs_le _ _
  refine ⟨fun _ => hfinite, fun _ => ?_, fun _ g hg => hle.trans ?_⟩
  · rw [abs_abs]
    exact hle.trans (h.close hf)
  · rcases le_total 0 v with hv | hv
    · rw [abs_of_nonneg hv]
      exact h.nearest hf g hg
    · obtain ⟨g', hg', hneg⟩ := exists_neg_value hg
      have hmirror : |value g - (|v|)| = |value g' - v| := by
        rw [abs_of_nonpos hv, hneg, ← abs_neg]
        congr 1
        ring
      rw [hmirror]
      exact h.nearest hf g' hg'

end ScatteringData.Double
