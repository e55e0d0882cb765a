import Mathlib
import ScatteringData.Fault

/-!
# What messages can show

An integer of too many digits cannot be written, and neither can a message that has to show it. All
texts can be written.
-/

namespace ScatteringData

theorem Decimal.isTooLong_iff (n : Int) : isTooLong n = true ↔ 10 ^ maxDigits ≤ n.natAbs := by
  rw [isTooLong, decide_eq_true_iff, ← Nat.not_le,
    Nat.length_toDigits_le_iff (by decide) (by decide), Nat.not_lt]

theorem Decimal.isTooLong_pow : isTooLong (10 ^ maxDigits) = true := by
  rw [isTooLong_iff, Int.natAbs_pow]
  exact Nat.pow_le_pow_left (by decide) _

namespace Value

theorem isAnyUnwritable_eq_false_iff (vs : List Value) :
    isAnyUnwritable vs = false ↔ ∀ v ∈ vs, v.isUnwritable = false := by
  induction vs with
  | nil => simp [isAnyUnwritable]
  | cons v vs ih => simp [isAnyUnwritable, ih]

theorem isUnwritable_of_chars? {v : Value} {s : String} (h : v.chars? = some s) :
    v.isUnwritable = false := by
  cases v <;> first | cases h; rfl | cases h

theorem written_of_chars? {v : Value} {s : String} (h : v.chars? = some s) :
    v.written = .ok v.plain := by
  rw [written, isUnwritable_of_chars? h, if_neg Bool.false_ne_true]

end Value

theorem Fault.raised_eq_self {f : Fault} (h : ∀ v ∈ f.values, v.isUnwritable = false) :
    f.raised = f := by
  rw [raised, (Value.isAnyUnwritable_eq_false_iff _).mpr h, if_neg Bool.false_ne_true]

end ScatteringData
