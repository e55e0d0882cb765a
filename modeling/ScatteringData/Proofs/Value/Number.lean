import Mathlib
import ScatteringData.Proofs.Double.Integer
import ScatteringData.Value.Reading

/-!
# Numbers as values

A number is an integer or a double, and as a value it has a mark. What is asked of it depends on its
numeric value alone: an integral double equals its integer and has the same place among integers.
-/

namespace ScatteringData

namespace Double

theorem compareInt_of_integer? {x : Float} {k : ℤ} (h : integer? x = some k) (n : ℤ) :
    compareInt x n = some (compare k n) := by
  obtain ⟨b, hb, h⟩ := Option.bind_eq_some_iff.mp h
  rw [compareInt, hb]
  by_cases hexponent : 0 ≤ b.exponent
  · rw [if_pos hexponent, Option.some.injEq] at h
    simp only [if_pos hexponent, h]
  · simp only [if_neg hexponent, Option.ite_none_right_eq_some, Option.some.injEq] at h ⊢
    obtain ⟨hdvd, rfl⟩ := h
    have hunit : (0 : ℤ) < Int.pow 2 (-b.exponent).toNat := Int.pow_pos (by norm_num)
    generalize Int.pow 2 (-b.exponent).toNat = unit at *
    obtain ⟨q, hq⟩ := Int.dvd_of_emod_eq_zero hdvd
    rw [hq, Int.mul_ediv_cancel_left _ hunit.ne', mul_comm unit q]
    have hscale := (strictMono_mul_right_of_pos hunit).cmp_map_eq q n
    rwa [cmp_eq_compare, cmp_eq_compare] at hscale

theorem isFinite_of_integer? {x : Float} {k : ℤ} (h : integer? x = some k) : x.isFinite = true := by
  obtain ⟨b, hb, -⟩ := Option.bind_eq_some_iff.mp h
  change x.toModel.unpack.isFinite = true
  unfold binary? at hb
  cases hu : x.toModel.unpack with
  | notANumber => simp [hu] at hb
  | infinity s => simp [hu] at hb
  | zero s => rfl
  | finite s m e hm => rfl

end Double

theorem Value.doubleOfInt_eq_ok_iff {n : ℤ} {x : Float} :
    doubleOfInt n = .ok x ↔ x = Float.ofInt n ∧ n.natAbs < Double.leastInfinite := by
  rw [← Double.ofInt?_eq_some_iff, doubleOfInt]
  split <;> simp [*]

namespace Number

def asValue (mark : Mark) : Number → Value
  | int n => .int n mark
  | float x => .float x mark

def integer? : Number → Option Int
  | int n => some n
  | float x => Double.integer? x

variable {a : Number} {m : Mark} {n k low high : ℤ}

@[simp] theorem number?_asValue (a : Number) (m : Mark) : (a.asValue m).number? = some a := by
  cases a <;> rfl

theorem key?_eq_int_iff : (a.asValue m).key? = some (.number (.int n)) ↔ a.integer? = some n := by
  cases a with
  | int k => simp [asValue, Value.key?, integer?]
  | float x =>
    rw [asValue, Value.key?, integer?]
    cases hnan : x.isNaN with
    | true =>
      rw [if_pos rfl]
      refine ⟨fun h => (by cases h), fun h => ?_⟩
      rw [Double.isNaN_of_isFinite (Double.isFinite_of_integer? h)] at hnan
      cases hnan
    | false =>
      rw [if_neg Bool.false_ne_true, canonical]
      cases Double.integer? x <;> simp

theorem equals_int_iff (m' : Mark) : (a.asValue m).equals (.int n m') = true ↔ a.integer? = some n := by
  have hkey : (a.asValue m).equals (.int n m') = true ↔
      (a.asValue m).isNaN = false ∧ (a.asValue m).key? = some (.number (.int n)) := by
    cases a <;> simp [asValue, Value.equals, Value.equalsWith, Value.key?]
  rw [hkey, key?_eq_int_iff, and_iff_right_of_imp]
  intro h
  rw [Value.isNaN, number?_asValue]
  cases a with
  | int k => rfl
  | float x => exact Double.isNaN_of_isFinite (Double.isFinite_of_integer? h)

theorem between_iff (h : a.integer? = some k) : a.between low high = true ↔ low ≤ k ∧ k ≤ high := by
  have hleft : (int low).compare? a = some (compare low k) := by
    cases a with
    | int k' => rw [compare?, Option.some.inj h]
    | float x =>
      rw [compare?, Double.compareInt_of_integer? h, Option.map_some, ← Int.compare_swap,
        Ordering.swap_swap]
  have hright : a.compare? (int high) = some (compare k high) := by
    cases a with
    | int k' => rw [compare?, Option.some.inj h]
    | float x => exact Double.compareInt_of_integer? h high
  simp only [between, hleft, hright, Bool.and_eq_true, Option.any_some, Ordering.isLE_iff_ne_gt,
    compare_le_iff_le]

end Number

end ScatteringData
