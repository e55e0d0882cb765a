import Mathlib
import ScatteringData.Proofs.Bucket.Ascending
import ScatteringData.Proofs.Double.Operations

/-!
# The tolerance of a match

Whether a stored energy matches a query is decided on rounded doubles. Up to the errors of rounding it
is whether the two differ by at most 10⁻¹² of the query.
-/

namespace ScatteringData

namespace Grid

open Double

theorem isFinite_matchTolerance : matchTolerance.isFinite = true := by decide +kernel

theorem value_matchTolerance : |value matchTolerance - 1 / 10 ^ 12| ≤ 1 / 2 ^ 90 := by
  have hbinary : binary? matchTolerance = some ⟨4951760157141521, -92⟩ := by decide +kernel
  rw [value, hbinary, Option.map_some, Option.getD_some, Binary.value, abs_le]
  norm_num

section
variable {g q : Float} (hg : isMagnitude g = true) (hq : isMagnitude q = true)
include hg hq

theorem isFinite_sub : (g - q).isFinite = true := by
  have hgf := isFinite_of_isMagnitude hg
  have hqf := isFinite_of_isMagnitude hq
  have hg0 := value_nonneg hg
  have hq0 := value_nonneg hq
  have hgtop := abs_value_le_greatest hgf
  have hqtop := abs_value_le_greatest hqf
  apply (isRounded_sub hgf hqf).finite
  rw [abs_of_nonneg hg0] at hgtop
  rw [abs_of_nonneg hq0] at hqtop
  exact abs_le.mpr ⟨by linarith, by linarith⟩

theorem isFinite_distance : (distance g q).isFinite = true :=
  (value_abs (isFinite_sub hg hq)).1

theorem value_distance : value (distance g q) = |value (g - q)| :=
  (value_abs (isFinite_sub hg hq)).2

omit hg in
theorem tolerated_spec : (matchTolerance * q.abs).isFinite = true ∧
    0 ≤ value matchTolerance * value q ∧ 0 ≤ value (matchTolerance * q.abs) ∧
    |value (matchTolerance * q.abs) - value matchTolerance * value q| ≤
      max (value matchTolerance * value q / 2 ^ 53) (2 ^ (-1075 : ℤ)) := by
  have hqf := isFinite_of_isMagnitude hq
  have hq0 := value_nonneg hq
  have hqtop := abs_value_le_greatest hqf
  obtain ⟨htol, htol'⟩ := abs_le.mp value_matchTolerance
  norm_num at htol htol'
  obtain ⟨habsf, habs⟩ := value_abs hqf
  rw [abs_of_nonneg hq0] at habs
  have hmul := isRounded_mul isFinite_matchTolerance habsf
  rw [habs] at hmul
  have hprod : 0 ≤ value matchTolerance * value q := mul_nonneg (by linarith) hq0
  have hmulf : (matchTolerance * q.abs).isFinite = true := by
    apply hmul.finite
    rw [abs_of_nonneg hprod]
    refine le_trans ?_ hqtop
    rw [abs_of_nonneg hq0]
    exact mul_le_of_le_one_left hq0 (by linarith)
  have hclose := hmul.close hmulf
  rw [abs_of_nonneg hprod] at hclose
  exact ⟨hmulf, hprod, hmul.nonneg hmulf hprod, hclose⟩

theorem isMatch_iff_distance :
    isMatch g q = true ↔ value (distance g q) ≤ value (matchTolerance * q.abs) := by
  have hgf := isFinite_of_isMagnitude hg
  have hqf := isFinite_of_isMagnitude hq
  obtain ⟨htolf, -, htol0, -⟩ := tolerated_spec hq
  rw [isMatch, Bool.or_eq_true, Bool.and_eq_true, decide_eq_true_iff]
  change (distance g q ≤ _ ∧ _) ∨ _ ↔ _
  rw [le_iff_value (isFinite_distance hg hq) htolf, beq_iff_value hgf hqf]
  constructor
  · intro h
    cases h with
    | inl h => exact h.1
    | inr h =>
      rw [value_distance hg hq, (value_sub_self hgf hqf h).2, abs_zero]
      exact htol0
  · intro h
    exact Or.inl ⟨h, hqf⟩

theorem isMatch_iff_rounded : ∃ d p : ℚ,
    |d - (|value g - value q|)| ≤ max (|value g - value q| / 2 ^ 53) (2 ^ (-1075 : ℤ)) ∧
    |p - value matchTolerance * value q| ≤
      max (value matchTolerance * value q / 2 ^ 53) (2 ^ (-1075 : ℤ)) ∧
    (isMatch g q = true ↔ d ≤ p) := by
  have hgf := isFinite_of_isMagnitude hg
  have hqf := isFinite_of_isMagnitude hq
  obtain ⟨htolf, hprod, -, hclose⟩ := tolerated_spec hq
  refine ⟨|value (g - q)|, value (matchTolerance * q.abs), ?_, hclose, ?_⟩
  · have hsub := (isRounded_sub hgf hqf).close (isFinite_sub hg hq)
    exact (abs_abs_sub_abs_le _ _).trans hsub
  · rw [isMatch_iff_distance hg hq, value_distance hg hq]

variable (hnormal : 3 * 2 ^ (-1024 : ℤ) ≤ value q)
include hnormal

/-- A stored energy that matches differs from the query by little more than is tolerated, one that does
not match by little less at least. -/
theorem isMatch_bounds :
    (isMatch g q = true → |value g - value q| ≤ (1 / 10 ^ 12 + 1 / 2 ^ 51) * value q) ∧
      (isMatch g q = false → (1 / 10 ^ 12 - 1 / 2 ^ 51) * value q < |value g - value q|) := by
  obtain ⟨d, p, hd, hp, hiff⟩ := isMatch_iff_rounded hg hq
  have hq0 : 0 < value q := lt_of_lt_of_le (by positivity) hnormal
  have hleast : (2 : ℚ) ^ (-1075 : ℤ) ≤ 1 / (3 * 2 ^ 51) * value q := by
    have hsplit : (2 : ℚ) ^ (-1024 : ℤ) = 2 ^ 51 * 2 ^ (-1075 : ℤ) := by
      rw [← zpow_natCast, ← zpow_add₀ (by norm_num)]
      rfl
    rw [hsplit] at hnormal
    linarith
  obtain ⟨htol, htol'⟩ := abs_le.mp value_matchTolerance
  have hlow := mul_le_mul_of_nonneg_right htol hq0.le
  have hhigh := mul_le_mul_of_nonneg_right htol' hq0.le
  rw [sub_mul] at hlow hhigh
  -- from here on everything is linear in the query, the distance and the tolerated difference
  have hdist : 0 ≤ |value g - value q| := abs_nonneg _
  generalize hV : |value g - value q| = V at *
  generalize value matchTolerance * value q = P at *
  generalize value q = Q at *
  generalize (2 : ℚ) ^ (-1075 : ℤ) = least at *
  have hp' : |p - P| ≤ 1 / (3 * 2 ^ 51) * Q := by
    rcases le_max_iff.mp hp with h | h <;> linarith
  obtain ⟨hp1, hp2⟩ := abs_le.mp hp'
  have hcompare : (d ≤ p → V ≤ (1 / 10 ^ 12 + 1 / 2 ^ 51) * Q) ∧
      (p < d → (1 / 10 ^ 12 - 1 / 2 ^ 51) * Q < V) := by
    rcases le_max_iff.mp hd with h | h <;> obtain ⟨h1, h2⟩ := abs_le.mp h <;> constructor <;>
      intro hle <;> linarith
  constructor
  · intro hmatch
    exact hcompare.1 (hiff.mp hmatch)
  · intro hno
    rw [← Bool.not_eq_true, hiff, not_le] at hno
    exact hcompare.2 hno

end

end Grid

end ScatteringData
