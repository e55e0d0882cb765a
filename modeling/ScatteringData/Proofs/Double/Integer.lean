import Mathlib
import ScatteringData.Proofs.Double.Difference

/-!
# Integers as doubles

An integer becomes the double nearest to it. One of 53 bits is kept, and one becomes infinite from the
middle between the greatest double and the next power of two on.
-/

namespace ScatteringData

namespace Double

open Float.Model Float.Model.UnpackedFloat

variable {x : ℚ} {s : Sign} {m M : ℕ} {e E : ℤ}

/-! ## Where doubles become infinite -/

def overflow : ℚ := (2 ^ 53 - 1 / 2) * 2 ^ (971 : ℤ)

def leastInfinite : ℕ := 2 ^ 1024 - 2 ^ 970

theorem cast_leastInfinite : (leastInfinite : ℚ) = overflow := by
  have hsplit : (2 : ℕ) ^ 1024 = 2 ^ 54 * 2 ^ 970 := by rw [← pow_add]
  have hunit : (2 : ℚ) ^ (971 : ℤ) = 2 * 2 ^ 970 := by
    rw [← zpow_natCast, ← zpow_one_add₀ (by norm_num)]
    rfl
  rw [leastInfinite, hsplit, ← Nat.sub_one_mul, Nat.cast_mul, Nat.cast_pow, Nat.cast_ofNat, overflow,
    hunit]
  generalize (2 : ℚ) ^ 970 = unit
  norm_num
  ring

theorem lt_leastInfinite {n : ℕ} (h : n < 2 ^ 64) : n < leastInfinite :=
  h.trans (by decide +kernel)

theorem Rounding.exponent_le (h : Rounding x e M E) (hlt : x * 2 ^ e < overflow) : E ≤ 971 := by
  by_contra hE
  have hlarge : greatest < x * 2 ^ e := not_le.mp fun hle => hE (h.below hle)
  have hfull : (2 ^ 52 : ℚ) ≤ M := by exact_mod_cast h.full.resolve_left (by omega)
  have hunit : (2 : ℚ) * 2 ^ (971 : ℤ) ≤ 2 ^ E := by
    rw [← zpow_one_add₀ (by norm_num)]
    exact zpow_le_zpow_right₀ (by norm_num) (by omega)
  have htop : (2 : ℚ) ^ 52 * (2 * 2 ^ (971 : ℤ)) ≤ M * 2 ^ E :=
    mul_le_mul hfull hunit (by positivity) (by positivity)
  have hnearest := h.nearest (2 ^ 53 - 1) 971 ⟨by norm_num, by norm_num, le_rfl, Or.inr (by norm_num)⟩
  rw [Nat.cast_sub (by norm_num), Nat.cast_pow, Nat.cast_ofNat, Nat.cast_one] at hnearest
  rw [greatest] at hlarge
  rw [overflow] at hlt
  generalize (2 : ℚ) ^ (971 : ℤ) = unit at *
  rw [abs_of_nonneg (by linarith), abs_of_nonpos (by linarith)] at hnearest
  linarith

theorem Rounding.le_overflow (h : Rounding x e M E) (hE : E ≤ 971) : x * 2 ^ e ≤ overflow := by
  have hM : (M : ℚ) ≤ 2 ^ 53 - 1 := by
    have hlt : (M : ℚ) + 1 ≤ 2 ^ 53 := by exact_mod_cast h.lt_top
    linarith
  have hunit : (2 : ℚ) ^ E ≤ 2 ^ (971 : ℤ) := zpow_le_zpow_right₀ (by norm_num) hE
  have hle : (M : ℚ) * 2 ^ E ≤ (2 ^ 53 - 1) * 2 ^ (971 : ℤ) :=
    mul_le_mul hM hunit (by positivity) (by norm_num)
  obtain ⟨hlow, -⟩ := abs_le.mp h.half
  rw [overflow]
  linarith

theorem isFinite_round {a : Accuracy} (he : e ≤ target m e)
    (hx : Describes (.ofMantissaAndAccuracy m a) x) :
    (x * 2 ^ e < overflow →
      (packed (roundWithAccuracy Format.binary64 s m e a)).isFinite = true) ∧
    ((packed (roundWithAccuracy Format.binary64 s m e a)).isFinite = true →
      x * 2 ^ e ≤ overflow) := by
  obtain ⟨M, E, hround, heq⟩ := roundWithAccuracy_eq (s := s) he hx
  rw [heq]
  by_cases hM : M = 0
  · have hE : E = -1074 := hround.full.resolve_right (by omega)
    rw [dif_pos hM]
    exact ⟨fun _ => isFinite_of_unpack_zero unpack_packed_zero,
      fun _ => hround.le_overflow (by omega)⟩
  · have hpos := Nat.pos_of_ne_zero hM
    rw [dif_neg hM]
    refine ⟨fun hlt => ?_, fun hfinite => hround.le_overflow ?_⟩
    · have hE := hround.exponent_le hlt
      exact isFinite_of_unpack_finite
        (unpack_packed ⟨hround.lt_top, hround.min_le, hE, hround.full⟩ hpos)
    · by_contra hE
      change (packed _).toModel.unpack.isFinite = true at hfinite
      rw [unpack_packed_large (not_le.mp hE) hpos] at hfinite
      exact absurd hfinite Bool.false_ne_true

/-! ## Natural numbers -/

section
variable {n : ℕ}

theorem ofNat_eq_product (h : n < 2 ^ 53) : Float.ofNat n = n.toUInt64.toFloat * 1.0 := by
  change Float.ofScientific n false 0 = _
  unfold Float.ofScientific
  rw [dif_pos ⟨h, by norm_num⟩]
  rfl

theorem ofNat_eq_round (h : ¬ n < 2 ^ 53) : Float.ofNat n =
    packed (roundWithAccuracy Format.binary64 .positive (n <<< 53 * 1) (-53 + 0) .exact) := by
  have hscientific : Float.ofNat n = .ofModel (Float.Model.ofScientific n 0) := by
    change Float.ofScientific n false 0 = _
    unfold Float.ofScientific
    rw [dif_neg fun hlt => h hlt.1]
    rfl
  have hn : n ≠ 0 := by
    rintro rfl
    exact h (by norm_num)
  rw [hscientific]
  unfold Float.Model.ofScientific UnpackedFloat.ofScientific
  rw [dif_neg hn, if_neg (by norm_num), if_neg (by simp), if_pos le_rfl]
  rfl

theorem shifted_value (n : ℕ) : ((n <<< 53 * 1 : ℕ) : ℚ) * 2 ^ (-53 + 0 : ℤ) = n := by
  have hshift := shiftLeft_mul n 53 0
  rw [zpow_zero, mul_one] at hshift
  rw [mul_one]
  exact hshift

theorem shifted_le_target (hn : 0 < n) : (-53 + 0 : ℤ) ≤ target (n <<< 53 * 1) (-53 + 0) := by
  rw [target_eq, mul_one, log2_shiftLeft hn]
  omega

theorem value_ofNat_of_lt (h : n < 2 ^ 53) :
    (Float.ofNat n).isFinite = true ∧ value (Float.ofNat n) = n := by
  have hbits : n.toUInt64.toNat = n := by
    rw [Nat.toUInt64_eq, UInt64.toNat_ofNat', Nat.mod_eq_of_lt (by omega)]
  have hrounded : IsRounded n.toUInt64.toFloat n := by
    have hnormal := isRounded_normalize (n.toUInt64.toNat : ℤ) 0
    rw [hbits, zpow_zero, mul_one, Int.cast_natCast] at hnormal
    change IsRounded (packed (normalize Format.binary64 (n.toUInt64.toNat : ℤ) 0 .positive)) n
    rwa [hbits]
  have hone : value 1.0 = 1 := by decide +kernel
  obtain ⟨f, hf, hvalue⟩ := exists_value_natCast (c := 0) h (by norm_num) (by norm_num)
  rw [zpow_zero, mul_one] at hvalue
  have hle : |(n : ℚ)| ≤ greatest := hvalue ▸ abs_value_le_greatest hf
  have hfinite := hrounded.finite hle
  have hexact := hrounded.value_eq hfinite hf hvalue
  have hproduct := isRounded_mul hfinite (show Float.isFinite 1.0 = true by decide)
  rw [hexact, hone, mul_one, ← ofNat_eq_product h] at hproduct
  have hfinite' := hproduct.finite hle
  exact ⟨hfinite', hproduct.value_eq hfinite' hf hvalue⟩

theorem isRounded_ofNat (n : ℕ) : IsRounded (Float.ofNat n) n := by
  by_cases h : n < 2 ^ 53
  · obtain ⟨hfinite, hvalue⟩ := value_ofNat_of_lt h
    exact isRounded_exact hfinite hvalue
  · have hround := isRounded_round (s := .positive) (shifted_le_target (n := n) (by omega))
      (describes_exact _)
    rw [shifted_value, ← ofNat_eq_round h] at hround
    simpa [Sign.apply] using hround

theorem isFinite_leastInfinite : (Float.ofNat leastInfinite).isFinite = false := by
  decide +kernel

theorem isFinite_ofNat_iff (n : ℕ) :
    (Float.ofNat n).isFinite = true ↔ n < leastInfinite := by
  by_cases h : n < 2 ^ 53
  · exact iff_of_true (value_ofNat_of_lt h).1 (lt_leastInfinite (h.trans (by norm_num)))
  · obtain ⟨hbelow, habove⟩ := isFinite_round (s := .positive) (shifted_le_target (n := n) (by omega))
      (describes_exact _)
    rw [shifted_value, ← ofNat_eq_round h, ← cast_leastInfinite, Nat.cast_lt] at hbelow
    rw [shifted_value, ← ofNat_eq_round h, ← cast_leastInfinite, Nat.cast_le] at habove
    refine ⟨fun hfinite => (habove hfinite).lt_of_ne ?_, hbelow⟩
    intro heq
    rw [heq, isFinite_leastInfinite] at hfinite
    cases hfinite

end

/-! ## Integers -/

theorem isFinite_neg (f : Float) : (-f).isFinite = f.isFinite := by
  change (packed f.toModel.unpack.neg).toModel.unpack.isFinite = f.toModel.unpack.isFinite
  cases hu : f.toModel.unpack with
  | notANumber => rfl
  | infinity s =>
    rw [UnpackedFloat.neg, unpack_packed_infinity]
    rfl
  | zero s =>
    rw [UnpackedFloat.neg, unpack_packed_zero]
    rfl
  | finite s m e hm =>
    rw [UnpackedFloat.neg, unpack_packed (unpack_fitting hu) hm]
    rfl

theorem value_neg {f : Float} (hf : f.isFinite = true) : value (-f) = -value f := by
  change value (packed f.toModel.unpack.neg) = _
  rcases exists_unpack hf with ⟨s, hu⟩ | ⟨s, m, e, hm, hu, hfit⟩
  · rw [value_of_unpack_zero hu, hu, neg_zero]
    exact value_of_unpack_zero unpack_packed_zero
  · rw [value_of_unpack_finite hu, hu, UnpackedFloat.neg,
      value_of_unpack_finite (unpack_packed hfit hm), apply_neg, Int.cast_neg, neg_mul]

theorem IsRounded.neg {f : Float} {v : ℚ} (h : IsRounded f v) : IsRounded (-f) (-v) := by
  refine ⟨fun hle => ?_, fun hf => ?_, fun hf g hg => ?_⟩
  · rw [isFinite_neg]
    exact h.finite (abs_neg v ▸ hle)
  · rw [isFinite_neg] at hf
    rw [value_neg hf, neg_sub_neg, abs_sub_comm, abs_neg]
    exact h.close hf
  · rw [isFinite_neg] at hf
    have hnearest := h.nearest hf (-g) ((isFinite_neg g).trans hg)
    rwa [value_neg hg, ← abs_neg (-value g - v), neg_sub, sub_neg_eq_add, add_comm v,
      ← sub_neg_eq_add, ← abs_neg (value f - v), neg_sub, ← neg_sub_neg, ← value_neg hf] at hnearest

theorem isRounded_ofInt (n : ℤ) : IsRounded (Float.ofInt n) n := by
  cases n with
  | ofNat n => exact isRounded_ofNat n
  | negSucc n =>
    rw [Int.cast_negSucc]
    exact (isRounded_ofNat (n + 1)).neg

theorem isFinite_ofInt_iff (n : ℤ) :
    (Float.ofInt n).isFinite = true ↔ n.natAbs < leastInfinite := by
  cases n with
  | ofNat n => exact isFinite_ofNat_iff n
  | negSucc n =>
    change (-Float.ofNat (n + 1)).isFinite = true ↔ _
    rw [isFinite_neg]
    exact isFinite_ofNat_iff (n + 1)

theorem ofInt?_eq_none_iff (n : ℤ) : ofInt? n = none ↔ leastInfinite ≤ n.natAbs := by
  rw [← not_lt, ← isFinite_ofInt_iff, ofInt?]
  simp

theorem ofInt?_eq_some_iff {n : ℤ} {f : Float} :
    ofInt? n = some f ↔ f = Float.ofInt n ∧ n.natAbs < leastInfinite := by
  rw [← isFinite_ofInt_iff, ofInt?, Option.ite_none_right_eq_some, Option.some.injEq]
  exact ⟨fun h => ⟨h.2.symm, h.1⟩, fun h => ⟨h.2, h.1.symm⟩⟩

theorem natAbs_lt_leastInfinite {f : Float} {n : ℤ} (hf : f.isFinite = true) (h : value f = n) :
    n.natAbs < leastInfinite := by
  have hgreatest : greatest < overflow :=
    mul_lt_mul_of_pos_right (by norm_num) (by positivity)
  have hle := (abs_value_le_greatest hf).trans_lt hgreatest
  rw [h, ← cast_leastInfinite, ← Int.cast_abs, Int.abs_eq_natAbs, Int.cast_natCast] at hle
  exact_mod_cast hle

theorem IsRounded.value_eq_intCast {f : Float} {z : ℤ} (h : IsRounded f z) (hz : |z| < 2 ^ 53) :
    f.isFinite = true ∧ value f = z := by
  obtain ⟨g, hg, hvalue⟩ := exists_value (c := 0) hz (by norm_num) (by norm_num)
  rw [zpow_zero, mul_one] at hvalue
  have hfinite := h.finite (hvalue ▸ abs_value_le_greatest hg)
  exact ⟨hfinite, h.value_eq hfinite hg hvalue⟩

theorem IsRounded.sign {f : Float} {z : ℤ} (h : IsRounded f z) (hf : f.isFinite = true) :
    (0 < value f ↔ 0 < z) ∧ (value f < 0 ↔ z < 0) := by
  rcases eq_or_ne z 0 with rfl | hz
  · obtain ⟨-, hvalue⟩ := h.value_eq_intCast (by norm_num)
    rw [hvalue, Int.cast_zero]
    exact ⟨iff_of_false (lt_irrefl 0) (lt_irrefl 0), iff_of_false (lt_irrefl 0) (lt_irrefl 0)⟩
  · have hone : (1 : ℚ) ≤ |(z : ℚ)| := by exact_mod_cast Int.one_le_abs hz
    have hclose := h.close_half hf
    rw [max_eq_left hone] at hclose
    obtain ⟨hlow, hhigh⟩ := abs_le.mp hclose
    rcases lt_or_gt_of_ne hz with hneg | hpos
    · have hneg' : (z : ℚ) < 0 := by exact_mod_cast hneg
      rw [abs_of_neg hneg'] at hlow hhigh
      exact ⟨iff_of_false (by linarith) (by omega), iff_of_true (by linarith) hneg⟩
    · have hpos' : (0 : ℚ) < z := by exact_mod_cast hpos
      rw [abs_of_pos hpos'] at hlow hhigh
      exact ⟨iff_of_true (by linarith) hpos, iff_of_false (by linarith) (by omega)⟩

theorem IsRounded.eq_add {p f : Float} {k b n : ℤ} (hp : IsRounded p k) (hpf : p.isFinite = true)
    (h : IsRounded f (value p + b)) (hf : f.isFinite = true) (hn : value f = n)
    (hsmall : |n| ≤ 2 ^ 20) (hb : |b| ≤ 2 ^ 20) : n = k + b := by
  have hn' : |value f| ≤ 2 ^ 20 := by
    rw [hn]
    exact_mod_cast hsmall
  have hb' : |(b : ℚ)| ≤ 2 ^ 20 := by exact_mod_cast hb
  have hsum := h.abs_exact_le hf
  have hterm : |value p| ≤ |value p + b| + |(b : ℚ)| := by
    simpa using abs_sub (value p + b) (b : ℚ)
  have hk' : |(k : ℚ)| < 2 ^ 52 := by
    have := hp.abs_exact_le hpf
    linarith
  have hk : |k| < 2 ^ 52 := by exact_mod_cast hk'
  have hkb : |k + b| < 2 ^ 53 := by
    have := abs_add_le k b
    omega
  rw [(hp.value_eq_intCast (by omega)).2, ← Int.cast_add] at h
  have hexact := (h.value_eq_intCast hkb).2
  rw [hn] at hexact
  exact_mod_cast hexact

end Double

end ScatteringData
