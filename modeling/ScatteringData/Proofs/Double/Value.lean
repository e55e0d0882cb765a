import Mathlib
import ScatteringData.Double
import ScatteringData.Quantity

/-!
# Exact values of doubles

A finite double stands for a rational number, and two finite doubles are compared by the numbers
that they stand for. The two zeros stand for the same number; other doubles that differ do not.
-/

namespace ScatteringData

open Float.Model Float.Model.UnpackedFloat

def Binary.value (b : Binary) : ℚ := b.significand * 2 ^ b.exponent

namespace Double

def value (x : Float) : ℚ := ((binary? x).map Binary.value).getD 0

/-! ## The form in which a finite double is unpacked -/

structure Fitting (m : Nat) (e : Int) : Prop where
  lt_top : m < 2 ^ 53
  min_le : -1074 ≤ e
  le_max : e ≤ 971
  full : e = -1074 ∨ 2 ^ 52 ≤ m

theorem unpack_fitting {f : Float.Model} {s : Sign} {m : Nat} {e : Int} {hm : 0 < m}
    (h : f.unpack = .finite s m e hm) : Fitting m e := by
  have hbias : (Format.binary64.exponentBias : Int) = 1023 := rfl
  have hwidth : (Format.binary64.mantissaBitsWithoutImplicit : Int) = 52 := rfl
  have htop := (@unpackExponent Format.binary64 f.toBits.toBitVec).isLt
  have hman := (@unpackMantissa Format.binary64 f.toBits.toBitVec).isLt
  unfold Float.Model.unpack UnpackedFloat.unpack at h
  simp only [hbias, hwidth] at h
  split at h
  · split at h <;> cases h
  · rename_i hones
    split at h
    · rename_i hzero
      split at h
      · cases h
      · simp only [finite.injEq] at h
        obtain ⟨-, rfl, rfl⟩ := h
        rw [hzero]
        exact ⟨Nat.lt_of_lt_of_le hman (by decide), by decide, by decide, Or.inl (by decide)⟩
    · rename_i hzero
      simp only [finite.injEq] at h
      obtain ⟨-, rfl, rfl⟩ := h
      have h0 : (@unpackExponent Format.binary64 f.toBits.toBitVec).toNat ≠ 0 := fun h0 =>
        hzero (BitVec.eq_of_toNat_eq h0)
      have h1 : (@unpackExponent Format.binary64 f.toBits.toBitVec).toNat ≠ 2047 := fun h1 =>
        hones (BitVec.eq_of_toNat_eq h1)
      refine ⟨BitVec.isLt _, by omega, ?_, Or.inr ?_⟩
      · have : (2 : Nat) ^ Format.binary64.exponentBits = 2048 := rfl
        omega
      · rw [BitVec.toNat_append]
        exact Nat.left_le_or

theorem compare_fitting {m n : Nat} {d e : Int} (hm : Fitting m d) (hn : Fitting n e) :
    (compare d e).then (compare m n) = compare ((m : ℚ) * 2 ^ d) (n * 2 ^ e) := by
  have key : ∀ {m n : Nat} {d e : Int}, Fitting m d → Fitting n e → d < e →
      (m : ℚ) * 2 ^ d < n * 2 ^ e := by
    intro m n d e hm hn hlt
    have hfull : 2 ^ 52 ≤ n := by
      rcases hn.full with h | h
      · have := hm.min_le
        omega
      · exact h
    have h1 : (m : ℚ) < 2 ^ 53 := by exact_mod_cast hm.lt_top
    have h2 : (2 : ℚ) ^ 52 ≤ n := by exact_mod_cast hfull
    have h3 : (2 : ℚ) ^ (d + 1) ≤ 2 ^ e := zpow_le_zpow_right₀ (by norm_num) (by omega)
    calc (m : ℚ) * 2 ^ d < 2 ^ 53 * 2 ^ d := by
          exact mul_lt_mul_of_pos_right h1 (by positivity)
      _ = 2 ^ 52 * 2 ^ (d + 1) := by rw [zpow_add₀ (by norm_num)]; ring
      _ ≤ n * 2 ^ e := by
          exact mul_le_mul h2 h3 (by positivity) (by positivity)
  rcases lt_trichotomy d e with h | h | h
  · rw [compare_lt_iff_lt.mpr h, compare_lt_iff_lt.mpr (key hm hn h)]
    rfl
  · subst h
    have hpos : (0 : ℚ) < 2 ^ d := by positivity
    rw [compare_eq_iff_eq.mpr rfl]
    rcases lt_trichotomy m n with h | h | h
    · rw [compare_lt_iff_lt.mpr h, compare_lt_iff_lt.mpr]
      · rfl
      · exact mul_lt_mul_of_pos_right (by exact_mod_cast h) hpos
    · subst h
      rw [compare_eq_iff_eq.mpr rfl, compare_eq_iff_eq.mpr rfl]
      rfl
    · rw [compare_gt_iff_gt.mpr h, compare_gt_iff_gt.mpr]
      · rfl
      · exact mul_lt_mul_of_pos_right (by exact_mod_cast h) hpos
  · rw [compare_gt_iff_gt.mpr h, compare_gt_iff_gt.mpr (key hn hm h)]
    rfl

theorem compare_neg_neg (a b : ℚ) : compare (-a) (-b) = (compare a b).swap := by
  rcases lt_trichotomy a b with h | h | h
  · rw [compare_lt_iff_lt.mpr h, compare_gt_iff_gt.mpr (neg_lt_neg h)]
    rfl
  · rw [compare_eq_iff_eq.mpr h, compare_eq_iff_eq.mpr (congrArg _ h)]
    rfl
  · rw [compare_gt_iff_gt.mpr h, compare_lt_iff_lt.mpr (neg_lt_neg h)]
    rfl

/-! ## Comparing -/

section
variable {x y : Float} (hx : x.isFinite = true) (hy : y.isFinite = true)
include hx hy

/-- Two finite doubles are compared by their values. -/
theorem compare_value :
    x.toModel.unpack.compare y.toModel.unpack = some (compare (value x) (value y)) := by
  change x.toModel.unpack.isFinite = true at hx
  change y.toModel.unpack.isFinite = true at hy
  unfold value binary?
  cases hu : x.toModel.unpack with
  | infinity s => simp [hu, UnpackedFloat.isFinite] at hx
  | notANumber => simp [hu, UnpackedFloat.isFinite] at hx
  | zero s =>
    cases hv : y.toModel.unpack with
    | infinity s => simp [hv, UnpackedFloat.isFinite] at hy
    | notANumber => simp [hv, UnpackedFloat.isFinite] at hy
    | zero t => simp [UnpackedFloat.compare, Binary.value]
    | finite t n e hn =>
      have hpos : (0 : ℚ) < n * 2 ^ e := by positivity
      cases t with
      | negative => simp [UnpackedFloat.compare, Binary.value, Sign.apply, compare_gt_iff_gt.mpr, hpos]
      | positive => simp [UnpackedFloat.compare, Binary.value, Sign.apply, compare_lt_iff_lt.mpr, hpos]
  | finite s m d hm =>
    have hmpos : (0 : ℚ) < m * 2 ^ d := by positivity
    cases hv : y.toModel.unpack with
    | infinity s => simp [hv, UnpackedFloat.isFinite] at hy
    | notANumber => simp [hv, UnpackedFloat.isFinite] at hy
    | zero t =>
      cases s with
      | negative => simp [UnpackedFloat.compare, Binary.value, Sign.apply, compare_lt_iff_lt.mpr, hmpos]
      | positive => simp [UnpackedFloat.compare, Binary.value, Sign.apply, compare_gt_iff_gt.mpr, hmpos]
    | finite t n e hn =>
      have hnpos : (0 : ℚ) < n * 2 ^ e := by positivity
      -- only numbers of one sign are compared by their magnitudes
      have hform := compare_fitting (unpack_fitting hu) (unpack_fitting hv)
      cases s with
      | negative =>
        cases t with
        | negative =>
          simp only [UnpackedFloat.compare, hform, ← compare_neg_neg]
          simp [Binary.value, Sign.apply]
        | positive =>
          have : -((m : ℚ) * 2 ^ d) < n * 2 ^ e := by linarith
          simp [UnpackedFloat.compare, Binary.value, Sign.apply, compare_lt_iff_lt.mpr this]
      | positive =>
        cases t with
        | negative =>
          have : -((n : ℚ) * 2 ^ e) < m * 2 ^ d := by linarith
          simp [UnpackedFloat.compare, Binary.value, Sign.apply, compare_gt_iff_gt.mpr this]
        | positive => simp [UnpackedFloat.compare, Binary.value, Sign.apply, hform]

theorem lt_iff_value : x < y ↔ value x < value y := by
  change (decide (x.toModel < y.toModel)) = true ↔ _
  rw [decide_eq_true_iff]
  change (x.toModel.unpack.compare y.toModel.unpack == some .lt) = true ↔ _
  rw [compare_value hx hy, beq_iff_eq, Option.some.injEq, compare_lt_iff_lt]

theorem le_iff_value : x ≤ y ↔ value x ≤ value y := by
  change (decide (x.toModel ≤ y.toModel)) = true ↔ _
  rw [decide_eq_true_iff]
  change (x.toModel.unpack.compare y.toModel.unpack).any (·.isLE) = true ↔ _
  rw [compare_value hx hy, Option.any_some, ← compare_le_iff_le]
  cases compare (value x) (value y) <;> simp

theorem beq_iff_value : (x == y) = true ↔ value x = value y := by
  change (x.toModel.unpack.compare y.toModel.unpack == some .eq) = true ↔ _
  rw [compare_value hx hy, beq_iff_eq, Option.some.injEq, compare_eq_iff_eq]

/-- Finite doubles of one value are the same double, the zeros apart. -/
theorem eq_of_value_eq (h : value x = value y) : x = y ∨ value x = 0 := by
  have heq := (Float.beq_iff_ne_nan_and_eq.mp ((beq_iff_value hx hy).mpr h)).2.2
  rcases heq with heq | ⟨rfl, -⟩ | ⟨rfl, -⟩
  · exact Or.inl heq
  · exact Or.inr (by decide +kernel)
  · exact Or.inr (by decide +kernel)

end

theorem isMagnitude_one : isMagnitude 1.0 = true := by decide +kernel

theorem value_nonneg {x : Float} (h : isMagnitude x = true) : 0 ≤ value x := by
  unfold isMagnitude at h
  simp only [Bool.and_eq_true, Bool.not_eq_true', decide_eq_false_iff_not] at h
  have h0 : value 0.0 = 0 := by decide +kernel
  rw [lt_iff_value h.1 (by decide), h0] at h
  exact not_lt.mp h.2

theorem isFinite_of_isMagnitude {x : Float} (h : isMagnitude x = true) : x.isFinite = true := by
  unfold isMagnitude at h
  exact (Bool.and_eq_true_iff.mp h).1

theorem isNaN_of_isFinite {x : Float} (hx : x.isFinite = true) : x.isNaN = false := by
  change x.toModel.unpack.isFinite = true at hx
  change x.toModel.unpack.isNaN = false
  cases hu : x.toModel.unpack with
  | notANumber => simp [hu, UnpackedFloat.isFinite] at hx
  | _ => rfl

/-! ## Integers -/

theorem exists_binary {x : Float} (hx : x.isFinite = true) : ∃ b, binary? x = some b := by
  change x.toModel.unpack.isFinite = true at hx
  unfold binary?
  cases hu : x.toModel.unpack with
  | infinity s => simp [hu, UnpackedFloat.isFinite] at hx
  | notANumber => simp [hu, UnpackedFloat.isFinite] at hx
  | zero s => exact ⟨_, rfl⟩
  | finite s m e hm => exact ⟨_, rfl⟩

theorem integer?_eq_some_iff {x : Float} (hx : x.isFinite = true) (n : Int) :
    integer? x = some n ↔ value x = n := by
  obtain ⟨b, hb⟩ := exists_binary hx
  have hpow : ∀ k, Int.pow 2 k = 2 ^ k := fun _ => rfl
  simp only [integer?, value, hb, Option.bind_eq_bind, Option.bind_some, Option.map_some,
    Option.getD_some, Binary.value, hpow]
  split
  · rename_i h
    obtain ⟨k, hk⟩ := Int.eq_ofNat_of_zero_le h
    rw [hk, Option.some.injEq, Int.toNat_natCast, zpow_natCast]
    exact_mod_cast Iff.rfl
  · rename_i h
    obtain ⟨k, hk⟩ := Int.eq_ofNat_of_zero_le (show 0 ≤ -b.exponent by omega)
    have hpos : (0 : ℚ) < 2 ^ k := by positivity
    rw [show b.exponent = -k by omega, neg_neg, Int.toNat_natCast, zpow_neg, zpow_natCast,
      ← div_eq_mul_inv, div_eq_iff hpos.ne']
    have hunit : (2 : Int) ^ k ≠ 0 := by positivity
    split
    · rename_i hdvd
      obtain ⟨q, hq⟩ := Int.dvd_of_emod_eq_zero hdvd
      rw [hq, Int.mul_ediv_cancel_left _ hunit, Option.some.injEq]
      constructor
      · rintro rfl
        push_cast
        ring
      · intro h
        have : (2 : Int) ^ k * q = n * 2 ^ k := by exact_mod_cast h
        rw [mul_comm] at this
        exact mul_right_cancel₀ hunit this
    · rename_i hdvd
      refine ⟨fun h => absurd h (by simp), fun h => absurd ?_ hdvd⟩
      have : b.significand = n * 2 ^ k := by exact_mod_cast h
      rw [this]
      exact Int.mul_emod_left _ _

end Double

end ScatteringData
