import Mathlib
import ScatteringData.Proofs.Grid.Nearest

/-!
# Matches in both directions

What is tolerated is relative to the query, so that a match depends on which of two energies is the query.
The higher one tolerates all that the lower one does, and little more.
-/

namespace ScatteringData

open Double

namespace Grid

theorem value_matchTolerance_bounds : 0 < value matchTolerance ∧ value matchTolerance < 1 / 4 := by
  obtain ⟨hlow, hhigh⟩ := abs_le.mp value_matchTolerance
  constructor <;> linarith

section
variable {g q : Float} (hg : isMagnitude g = true) (hq : isMagnitude q = true)
include hq

theorem isRounded_tolerated :
    IsRounded (matchTolerance * q.abs) (value matchTolerance * value q) := by
  have hqf := isFinite_of_isMagnitude hq
  obtain ⟨habsf, habs⟩ := value_abs hqf
  have hmul := isRounded_mul isFinite_matchTolerance habsf
  rwa [habs, abs_of_nonneg (value_nonneg hq)] at hmul

theorem tolerated_lt (hpos : 0 < value q) : value (matchTolerance * q.abs) < value q := by
  obtain ⟨-, hprod, -, hclose⟩ := tolerated_spec hq
  obtain ⟨-, hquarter⟩ := value_matchTolerance_bounds
  obtain ⟨z, hz⟩ := exists_value_eq_mul (isFinite_of_isMagnitude hq)
  have hhalf : (0 : ℚ) < 2 ^ (-1075 : ℤ) := by positivity
  have hsmall : value matchTolerance * value q ≤ 1 / 4 * value q :=
    mul_le_mul_of_nonneg_right hquarter.le hpos.le
  have hz1 : (1 : ℚ) ≤ z := by
    have hz0 : (0 : ℚ) < z := by
      rw [hz] at hpos
      exact pos_of_mul_pos_left hpos (by positivity)
    have hz0' : 0 < z := by exact_mod_cast hz0
    exact_mod_cast hz0'
  have hleast : 2 * 2 ^ (-1075 : ℤ) ≤ value q := by
    rw [hz, zpow_least]
    exact le_mul_of_one_le_left (by positivity) hz1
  obtain ⟨-, hhigh⟩ := abs_le.mp hclose
  rcases le_max_iff.mp hhigh with h | h <;> linarith

include hg

theorem le_two_mul_of_isMatch (h : isMatch g q = true) : value g ≤ 2 * value q := by
  rw [isMatch_iff_distance hg hq] at h
  by_contra hlt
  rw [not_le] at hlt
  have hqf := isFinite_of_isMagnitude hq
  rcases (value_nonneg hq).eq_or_lt with hzero | hpos
  · have hnothing : value (matchTolerance * q.abs) = value q :=
      (isRounded_tolerated hq).value_eq (tolerated_spec hq).1 hqf (by rw [← hzero, mul_zero])
        |>.trans (by rw [← hzero, mul_zero])
    rw [value_distance_of_zero hg hq hzero.symm, hnothing, apart, ← hzero, sub_zero,
      abs_of_nonneg (value_nonneg hg)] at h
    linarith
  · linarith [le_distance_of_far hg hq hlt, tolerated_lt hq hpos]

end

theorem isMatch_swap {e f : Energy} (hle : e.value ≤ f.value) (h : isMatch f.mev e.mev = true) :
    isMatch e.mev f.mev = true := by
  have he := e.admissible
  have hf := f.admissible
  rcases hle.eq_or_lt with heq | hlt
  · exact isMatch_of_value_eq heq
  · have htwice := le_two_mul_of_isMatch hf he h
    have hbelow : value e.mev ≤ 2 * value f.mev := by
      have hf0 : 0 ≤ f.value := value_nonneg hf
      change e.value ≤ 2 * f.value
      linarith
    have hmore := (isRounded_tolerated he).le_of_lt (tolerated_spec he).1 (tolerated_spec hf).1
      (isRounded_tolerated hf) (mul_lt_mul_of_pos_left hlt value_matchTolerance_bounds.1)
    rw [isMatch_iff_distance hf he, value_distance_of_comparable hf he htwice hbelow, apart,
      abs_sub_comm] at h
    rw [isMatch_iff_distance he hf, value_distance_of_comparable he hf hbelow htwice]
    exact h.trans hmore

theorem edge_of_le {e f : Energy} (hle : e.value ≤ f.value)
    (h : isMatch e.mev f.mev ≠ isMatch f.mev e.mev) :
    isMatch e.mev f.mev = true ∧ isMatch f.mev e.mev = false ∧ e.value < f.value ∧
      (3 * 2 ^ (-1024 : ℤ) ≤ e.value →
        (1 / 10 ^ 12 - 1 / 2 ^ 51) * e.value < |e.value - f.value| ∧
        |e.value - f.value| ≤ (1 / 10 ^ 12 + 1 / 2 ^ 51) * f.value) := by
  have hno : isMatch f.mev e.mev = false := by
    by_contra hmatch
    rw [Bool.not_eq_false] at hmatch
    exact h (by rw [hmatch, isMatch_swap hle hmatch])
  have hyes : isMatch e.mev f.mev = true := by
    rw [hno] at h
    exact Bool.not_eq_false _ ▸ h
  have hne : e.value ≠ f.value := by
    intro heq
    rw [isMatch_of_value_eq heq.symm] at hno
    cases hno
  refine ⟨hyes, hno, lt_of_le_of_ne hle hne, fun hnormal => ⟨?_, ?_⟩⟩
  · rw [abs_sub_comm]
    exact (isMatch_bounds f.admissible e.admissible hnormal).2 hno
  · exact (isMatch_bounds e.admissible f.admissible (hnormal.trans hle)).1 hyes

/-- Only the higher one of two energies can match where the lower one does not, and only at the edge of
what is tolerated. -/
theorem edge_of_isMatch_ne (e f : Energy) (h : isMatch e.mev f.mev ≠ isMatch f.mev e.mev) :
    (isMatch e.mev f.mev = true ↔ e.value < f.value) ∧
    (3 * 2 ^ (-1024 : ℤ) ≤ min e.value f.value →
      (1 / 10 ^ 12 - 1 / 2 ^ 51) * min e.value f.value < |e.value - f.value| ∧
      |e.value - f.value| ≤ (1 / 10 ^ 12 + 1 / 2 ^ 51) * max e.value f.value) := by
  rcases le_total e.value f.value with hle | hle
  · obtain ⟨hyes, -, hlt, hbounds⟩ := edge_of_le hle h
    rw [min_eq_left hle, max_eq_right hle]
    exact ⟨⟨fun _ => hlt, fun _ => hyes⟩, hbounds⟩
  · obtain ⟨-, hno, -, hbounds⟩ := edge_of_le hle h.symm
    rw [min_eq_right hle, max_eq_left hle, abs_sub_comm]
    refine ⟨⟨fun hyes => ?_, fun hlt => absurd hlt (not_lt.mpr hle)⟩, hbounds⟩
    rw [hno] at hyes
    cases hyes

end Grid

end ScatteringData
