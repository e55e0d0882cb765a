import Mathlib
import ScatteringData.Proofs.Outcome
import ScatteringData.Proofs.Double.Integer
import ScatteringData.Proofs.Value.Number

/-!
# Packed identifiers

A number is read as an identifier if it equals a packed one. Two numbers are packed by rounded operations
where one of them is a double, and only the packed number has to be integral. What is unpacked are the
two numbers themselves if and only if both are integral.
-/

namespace ScatteringData

namespace Zaid

variable {a b c : Number} {m m' : Mark} {z : Zaid} {k j n : ℤ}

/-! ## Reading -/

theorem raw_bounds (z : Zaid) : 1000 ≤ z.raw ∧ z.raw < 119000 := by
  have h := z.element_known
  simp only [Element.minNumber, Element.maxNumber] at h
  omega

theorem ofNat?_eq_some_iff {n : ℕ} : ofNat? n = some z ↔ n = z.raw := by
  simp only [ofNat?, Option.dite_none_right_eq_some, Option.some.injEq]
  constructor
  · rintro ⟨h, rfl⟩
    rfl
  · rintro rfl
    exact ⟨z.element_known, rfl⟩

theorem ofInt_eq_ok_iff : ofInt n = .ok z ↔ n = z.raw := by
  rw [ofInt]
  split
  · refine ⟨fun h => (by cases h), fun h => ?_⟩
    omega
  · rename_i hn
    obtain ⟨n, rfl⟩ := Int.eq_ofNat_of_zero_le (not_lt.mp hn)
    rw [Int.toNat_natCast, Nat.cast_inj, ← ofNat?_eq_some_iff]
    split <;> simp [*]

/-- A number is read as an identifier if and only if it equals the packed one. -/
theorem ofValue_eq_ok_iff : ofValue (a.asValue m) = .ok z ↔ a.integer? = some (z.raw : ℤ) := by
  cases a with
  | int n => simp only [Number.asValue, ofValue, ofInt_eq_ok_iff, Number.integer?, Option.some.injEq]
  | float x =>
    simp only [Number.asValue, ofValue, Number.integer?]
    split
    · rename_i n hn
      rw [ofInt_eq_ok_iff, hn, Option.some.injEq]
    · rename_i hn
      rw [hn]
      split <;> simp

/-! ## Packing -/

theorem checkMassNumber_eq_ok_iff :
    checkMassNumber (b.asValue m) = .ok () ↔ b.between 0 maxMassNumber = true := by
  simp only [checkMassNumber, Number.number?_asValue]
  split <;> simp [*]

theorem ofNumbers_asValue : ofNumbers (a.asValue m) (b.asValue m') = (do
    checkMassNumber (b.asValue m')
    let c ← packed a b
    ofValue (c.asValue .shared)) := by
  simp only [ofNumbers, Number.number?_asValue]
  refine bind_congr fun _ => bind_congr fun c => ?_
  cases c <;> rfl

theorem ofNumbers_eq_ok_iff : ofNumbers (a.asValue m) (b.asValue m') = .ok z ↔
    b.between 0 maxMassNumber = true ∧ ∃ c, packed a b = .ok c ∧ c.integer? = some (z.raw : ℤ) := by
  simp only [ofNumbers_asValue, except_bind_eq_ok, ofValue_eq_ok_iff,
    ← checkMassNumber_eq_ok_iff (m := m')]
  constructor
  · rintro ⟨⟨⟩, h⟩
    exact h
  · exact fun h => ⟨(), h⟩

theorem add_eq {p y : Float} (hp : Double.IsRounded p k) (hy : Double.integer? y = some j)
    (hn : Double.integer? (p + y) = some n) (hsmall : |n| ≤ 2 ^ 20) (hj : |j| ≤ 2 ^ 20) :
    n = k + j := by
  have hsum := Double.isFinite_of_integer? hn
  have hpf := Double.isFinite_of_add hsum
  have hyf := Double.isFinite_of_integer? hy
  have hround := Double.isRounded_add hpf hyf
  rw [(Double.integer?_eq_some_iff hyf j).mp hy] at hround
  exact hp.eq_add hpf hround hsum ((Double.integer?_eq_some_iff hsum n).mp hn) hsmall hj

/-- Packing integral numbers does not round what an identifier comes from. -/
theorem packed_eq (hc : packed a b = .ok c) (ha : a.integer? = some k) (hb : b.integer? = some j)
    (hn : c.integer? = some n) (hsmall : |n| ≤ 2 ^ 20) (hj : |j| ≤ 2 ^ 20) : n = k * 1000 + j := by
  cases a with
  | int z =>
    cases ha
    cases b with
    | int a =>
      cases hb
      cases hc
      exact (Option.some.inj hn).symm
    | float y =>
      simp only [packed, except_bind_eq_ok] at hc
      obtain ⟨p, hp, hc⟩ := hc
      cases hc
      rw [(Value.doubleOfInt_eq_ok_iff.mp hp).1] at hn
      exact add_eq (Double.isRounded_ofInt _) hb hn hsmall hj
  | float x =>
    have hx := Double.isFinite_of_integer? ha
    have hthousand : Double.value 1000.0 = 1000 := by decide +kernel
    have hproduct : Double.IsRounded (x * 1000.0) ((k * 1000 : ℤ) : ℚ) := by
      have hround := Double.isRounded_mul hx (show Float.isFinite 1000.0 = true by decide)
      rwa [(Double.integer?_eq_some_iff hx k).mp ha, hthousand, ← Int.cast_ofNat,
        ← Int.cast_mul] at hround
    cases b with
    | int a =>
      cases hb
      simp only [packed, except_bind_eq_ok] at hc
      obtain ⟨y, hy, hc⟩ := hc
      cases hc
      obtain ⟨rfl, -⟩ := Value.doubleOfInt_eq_ok_iff.mp hy
      obtain ⟨hyf, hvalue⟩ := (Double.isRounded_ofInt j).value_eq_intCast (by omega)
      exact add_eq hproduct ((Double.integer?_eq_some_iff hyf j).mpr hvalue) hn hsmall hj
    | float y =>
      cases hc
      exact add_eq hproduct hb hn hsmall hj

/-! ## Unpacking -/

/-- Two values equal the atomic number and the mass number of an identifier. -/
def HasParts (z : Zaid) (v w : Value) : Prop :=
  v.equals (.int z.atomicNumber .shared) = true ∧ w.equals (.int z.massNumber .shared) = true

theorem hasParts_iff : z.HasParts (a.asValue m) (b.asValue m') ↔
    a.integer? = some (z.atomicNumber : ℤ) ∧ b.integer? = some (z.massNumber : ℤ) := by
  rw [HasParts, Number.equals_int_iff, Number.equals_int_iff]

theorem hasParts_of_ofNumbers (h : ofNumbers (a.asValue m) (b.asValue m') = .ok z)
    (ha : a.integer? = some k) (hb : b.integer? = some j) :
    z.HasParts (a.asValue m) (b.asValue m') := by
  obtain ⟨hbetween, c, hc, hraw⟩ := ofNumbers_eq_ok_iff.mp h
  obtain ⟨hlow, hhigh⟩ := (Number.between_iff hb).mp hbetween
  have hbounds := z.raw_bounds
  simp only [maxMassNumber] at hhigh
  have heq := packed_eq hc ha hb hraw (by rw [abs_le]; omega) (by rw [abs_le]; omega)
  rw [hasParts_iff, ha, hb, atomicNumber, massNumber, Option.some.injEq, Option.some.injEq]
  omega

theorem ofNumbers_int (m m' : Mark) (hk : 1 ≤ k ∧ k ≤ 118) (hj : 0 ≤ j ∧ j ≤ 999) :
    ∃ z, ofNumbers (.int k m) (.int j m') = .ok z := by
  have hknown : Element.minNumber ≤ (k * 1000 + j).toNat / 1000 ∧
      (k * 1000 + j).toNat / 1000 ≤ Element.maxNumber := by
    simp only [Element.minNumber, Element.maxNumber]
    omega
  refine ⟨⟨_, hknown⟩, (ofNumbers_eq_ok_iff (a := .int k) (b := .int j)).mpr ⟨?_, _, rfl, ?_⟩⟩
  · exact (Number.between_iff rfl).mpr hj
  · exact congrArg some (Int.toNat_of_nonneg (by omega)).symm

theorem ofNumbers_self (z : Zaid) (m m' : Mark) :
    ofNumbers (.int z.atomicNumber m) (.int z.massNumber m') = .ok z := by
  refine (ofNumbers_eq_ok_iff (a := .int z.atomicNumber) (b := .int z.massNumber)).mpr
    ⟨?_, _, rfl, congrArg some ?_⟩
  · exact (Number.between_iff rfl).mpr ⟨Int.natCast_nonneg _, Int.ofNat_le.mpr z.massNumber_le⟩
  · exact_mod_cast z.raw_eq.symm

/-- What packing two numbers gives is an identifier whose number is the packed one, and whose parts are
the two numbers if and only if both are integral. All integers in range are packed, and the parts of an
identifier into itself. -/
theorem ofNumbers_parts :
    (∀ (a b : Number) (m m' : Mark) (z : Zaid), ofNumbers (a.asValue m) (b.asValue m') = .ok z →
      (∃ c, packed a b = .ok c ∧ c.integer? = some (z.raw : ℤ)) ∧
      (z.HasParts (a.asValue m) (b.asValue m') ↔
        a.integer?.isSome = true ∧ b.integer?.isSome = true)) ∧
    (∀ (k j : ℤ) (m m' : Mark), 1 ≤ k ∧ k ≤ 118 → 0 ≤ j ∧ j ≤ 999 →
      ∃ z, ofNumbers (.int k m) (.int j m') = .ok z) ∧
    ∀ (z : Zaid) (m m' : Mark),
      ofNumbers (.int z.atomicNumber m) (.int z.massNumber m') = .ok z := by
  refine ⟨fun a b m m' z h => ⟨(ofNumbers_eq_ok_iff.mp h).2, ?_⟩,
    fun k j m m' hk hj => ofNumbers_int m m' hk hj, ofNumbers_self⟩
  constructor
  · intro hparts
    obtain ⟨ha, hb⟩ := hasParts_iff.mp hparts
    exact ⟨Option.isSome_of_mem ha, Option.isSome_of_mem hb⟩
  · rintro ⟨ha, hb⟩
    obtain ⟨k, hk⟩ := Option.isSome_iff_exists.mp ha
    obtain ⟨j, hj⟩ := Option.isSome_iff_exists.mp hb
    exact hasParts_of_ofNumbers h hk hj

/-- The isotope of uranium with 235 nucleons, whose number is given as a double. -/
theorem ofNumbers_parts_uranium : ∃ z : Zaid,
    ofNumbers (.int 92 .shared) (.float 235.0 .shared) = .ok z ∧
      z.HasParts (.int 92 .shared) (.float 235.0 .shared) ∧
      ofNumbers (.int z.atomicNumber .shared) (.int z.massNumber .shared) = .ok z := by
  have hpacked : ofNumbers (.int 92 .shared) (.float 235.0 .shared) =
      .ok ⟨92235, by decide⟩ :=
    (ofNumbers_eq_ok_iff (a := .int 92) (b := .float 235.0)).mpr
      ⟨by decide +kernel, _, rfl, by decide +kernel⟩
  obtain ⟨hparts, -, hagain⟩ := ofNumbers_parts
  exact ⟨_, hpacked, (hparts (.int 92) (.float 235.0) _ _ _ hpacked).2.mpr ⟨rfl, by decide +kernel⟩,
    hagain _ _ _⟩

/-- Half a proton and 500 nucleons are packed into hydrogen: only the packed number is integral. -/
theorem ofNumbers_half : ∃ z : Zaid,
    ofNumbers (.float 0.5 .shared) (.int 500 .shared) = .ok z ∧
      ¬ z.HasParts (.float 0.5 .shared) (.int 500 .shared) := by
  refine ⟨⟨1000, by decide⟩, (ofNumbers_eq_ok_iff (a := .float 0.5) (b := .int 500)).mpr
    ⟨by decide +kernel, _, rfl, by decide +kernel⟩, ?_⟩
  rintro ⟨hatomic, -⟩
  have hnone : (Number.float 0.5).integer? = none := by decide +kernel
  rw [(Number.equals_int_iff (a := .float 0.5) _).mp hatomic] at hnone
  cases hnone

end Zaid

end ScatteringData
