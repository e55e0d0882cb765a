import Mathlib
import ScatteringData.Proofs.Fault
import ScatteringData.Proofs.Zaid
import ScatteringData.Store.Building

/-!
# Numbers that are refused

A number that is given as a temperature, as an identifier or as a weight ratio is accepted or refused as
data that no object may hold, if it gets as far as the check. It is converted before that, and what has no
conversion ends with a fault of another kind: integers without a double, doubles without an integer,
integers that are too long for the message, and integers that do not fit a machine word.
-/

namespace ScatteringData

variable {α β : Type} {accepted : Prop} {escape : Option Fault}

/-! ## Decisions -/

/-- A computation succeeds if and only if its argument is accepted, and refuses all others as data, except
that it ends with another fault where one escapes the check. -/
structure Decides (x : Except Fault α) (accepted : Prop) (escape : Option Fault) : Prop where
  succeeds : (∃ a, x = .ok a) ↔ accepted
  refuses : (∃ d, x = .error (.data d)) ↔ ¬ accepted ∧ escape = none
  escapes : ∀ f, escape = some f → x = .error f

namespace Decides

theorem of_ok {a : α} (ha : accepted) : Decides (.ok a) accepted none := by
  refine ⟨iff_of_true ⟨a, rfl⟩ ha, iff_of_false ?_ fun h => h.1 ha, fun f h => by cases h⟩
  rintro ⟨d, h⟩
  cases h

theorem of_data {d : DataFault} (ha : ¬ accepted) :
    Decides (.error (.data d) : Except Fault α) accepted none := by
  refine ⟨iff_of_false ?_ ha, iff_of_true ⟨d, rfl⟩ ⟨ha, rfl⟩, fun f h => by cases h⟩
  rintro ⟨a, h⟩
  cases h

theorem of_fault {f : Fault} (ha : ¬ accepted) (hf : ∀ d, f ≠ .data d) :
    Decides (.error f : Except Fault α) accepted (some f) := by
  refine ⟨iff_of_false ?_ ha, iff_of_false ?_ ?_, fun g h => congrArg _ (Option.some.inj h)⟩
  · rintro ⟨a, h⟩
    cases h
  · rintro ⟨d, h⟩
    exact hf d (Except.error.inj h)
  · rintro ⟨-, h⟩
    cases h

theorem map {x : Except Fault α} (h : Decides x accepted escape) (g : α → β) :
    Decides (x.map g) accepted escape := by
  obtain ⟨hsucceeds, hrefuses, hescapes⟩ := h
  cases x with
  | ok a =>
    refine ⟨iff_of_true ⟨g a, rfl⟩ (hsucceeds.mp ⟨a, rfl⟩), iff_of_false ?_ ?_, fun f hf => ?_⟩
    · rintro ⟨d, h⟩
      cases h
    · exact fun h => h.1 (hsucceeds.mp ⟨a, rfl⟩)
    · cases hescapes f hf
  | error e =>
    refine ⟨iff_of_false ?_ fun h => ?_, ⟨?_, ?_⟩, fun f hf => ?_⟩
    · rintro ⟨b, h⟩
      cases h
    · obtain ⟨a, h⟩ := hsucceeds.mpr h
      cases h
    · rintro ⟨d, h⟩
      cases h
      exact hrefuses.mp ⟨d, rfl⟩
    · intro h
      obtain ⟨d, hd⟩ := hrefuses.mpr h
      cases hd
      exact ⟨d, rfl⟩
    · cases hescapes f hf
      rfl

end Decides

variable {a : Number} {m : Mark}

/-! ## Temperatures -/

namespace Number

/-- The number is finite as a double, and not below zero. -/
def IsTemperature : Number → Prop
  | int n => 0 ≤ n ∧ n.natAbs < Double.leastInfinite
  | float x => isMagnitude x = true

def doubleFault? : Number → Option Fault
  | int n => if n.natAbs < Double.leastInfinite then none else some .integerTooLarge
  | float _ => none

end Number

theorem isMagnitude_ofInt {n : ℤ} (h : n.natAbs < Double.leastInfinite) :
    isMagnitude (Float.ofInt n) = true ↔ 0 ≤ n := by
  have hfinite := (Double.isFinite_ofInt_iff n).mpr h
  have hsign := ((Double.isRounded_ofInt n).sign hfinite).2
  constructor
  · intro hmagnitude
    exact not_lt.mp (mt hsign.mpr (not_lt.mpr (Double.value_nonneg hmagnitude)))
  · intro hn
    exact Double.isMagnitude_of_value_nonneg hfinite (not_lt.mp (mt hsign.mp (not_lt.mpr hn)))

theorem doubleOfInt_eq_error {n : ℤ} (h : ¬ n.natAbs < Double.leastInfinite) :
    Value.doubleOfInt n = .error .integerTooLarge := by
  rw [Value.doubleOfInt, (Double.ofInt?_eq_none_iff n).mpr (not_lt.mp h)]

/-- What takes a double if it is finite and not negative decides about numbers. -/
theorem decides_toDouble {f : Float → Except Fault α}
    (haccept : ∀ x, isMagnitude x = true → ∃ b, f x = .ok b)
    (hrefuse : ∀ x, isMagnitude x = false → ∃ d, f x = .error (.data d)) :
    Decides ((a.asValue m).toDouble >>= f) a.IsTemperature a.doubleFault? := by
  have hdecided (x : Float) : Decides (f x) (isMagnitude x = true) none := by
    cases hx : isMagnitude x with
    | true =>
      obtain ⟨b, hb⟩ := haccept x hx
      exact hb ▸ Decides.of_ok rfl
    | false =>
      obtain ⟨d, hd⟩ := hrefuse x hx
      exact hd ▸ Decides.of_data Bool.false_ne_true
  cases a with
  | float x => exact hdecided x
  | int n =>
    by_cases hn : n.natAbs < Double.leastInfinite
    · have hread : (Number.asValue m (.int n)).toDouble = .ok (Float.ofInt n) :=
        Value.doubleOfInt_eq_ok_iff.mpr ⟨rfl, hn⟩
      rw [hread, Number.doubleFault?, if_pos hn, Number.IsTemperature, and_iff_left hn,
        ← isMagnitude_ofInt hn]
      exact hdecided _
    · have hread : (Number.asValue m (.int n)).toDouble = .error .integerTooLarge :=
        doubleOfInt_eq_error hn
      rw [hread, Number.doubleFault?, if_neg hn]
      exact Decides.of_fault (fun h => hn h.2) fun d hd => by cases hd

theorem decides_energy :
    Decides (Energy.ofValue (a.asValue m)) a.IsTemperature a.doubleFault? :=
  decides_toDouble (fun _ hx => ⟨_, dif_pos hx⟩) fun _ hx => ⟨_, dif_neg (ne_true_of_eq_false hx)⟩

theorem decides_temperature :
    Decides (Temperature.ofValue (a.asValue m)) a.IsTemperature a.doubleFault? :=
  decides_toDouble (fun _ hx => ⟨_, dif_pos hx⟩) fun _ hx => ⟨_, dif_neg (ne_true_of_eq_false hx)⟩

/-! ## Identifiers -/

def Zaid.messageFault? (n : ℤ) : Option Fault :=
  if Decimal.isTooLong (if n < 0 then n else n / 1000) then some (.numeralTooLong none) else none

namespace Number

/-- The number equals a packed identifier. -/
def IsZaid (a : Number) : Prop := ∃ z : Zaid, a.integer? = some (z.raw : ℤ)

def zaidFault? : Number → Option Fault
  | int n => Zaid.messageFault? n
  | float x =>
    if x.isFinite then none else some (if x.isNaN then .nanToInteger else .infinityToInteger)

end Number

theorem decides_raised {n : ℤ} {d : DataFault} (hd : d.values = [.int n .shared]) (ha : ¬ accepted) :
    Decides (.error (.raised (.data d)) : Except Fault α) accepted
      (if Decimal.isTooLong n then some (.numeralTooLong none) else none) := by
  rw [Fault.raised, Fault.values, hd, Value.isAnyUnwritable, Value.isAnyUnwritable, Bool.or_false,
    Value.isUnwritable]
  split
  · exact Decides.of_fault ha fun d hd => by cases hd
  · exact Decides.of_data ha

theorem messageFault?_eq_none {n : ℤ} (h : n.natAbs < 10 ^ Decimal.maxDigits) :
    Zaid.messageFault? n = none := by
  have hshown : (if n < 0 then n else n / 1000).natAbs ≤ n.natAbs := by
    split <;> omega
  rw [Zaid.messageFault?, if_neg]
  rw [Decimal.isTooLong_iff]
  exact not_le.mpr (hshown.trans_lt h)

theorem decides_ofInt (n : ℤ) :
    Decides (Zaid.ofInt n) (∃ z : Zaid, n = z.raw) (Zaid.messageFault? n) := by
  by_cases haccepted : ∃ z : Zaid, n = z.raw
  · obtain ⟨z, rfl⟩ := haccepted
    have hlong : 119000 < 10 ^ Decimal.maxDigits := by decide +kernel
    have hshown : Zaid.messageFault? z.raw = none := by
      apply messageFault?_eq_none
      rw [Int.natAbs_natCast]
      exact z.raw_bounds.2.trans hlong
    rw [hshown, Zaid.ofInt_eq_ok_iff.mpr rfl]
    exact Decides.of_ok ⟨z, rfl⟩
  · rw [Zaid.ofInt, Zaid.messageFault?]
    by_cases hn : n < 0
    · rw [if_pos hn, if_pos hn]
      exact decides_raised rfl haccepted
    · rw [if_neg hn, if_neg hn]
      cases hread : Zaid.ofNat? n.toNat with
      | none => exact decides_raised rfl haccepted
      | some z =>
        have hraw := Zaid.ofNat?_eq_some_iff.mp hread
        exact absurd ⟨z, by omega⟩ haccepted

theorem messageFault?_of_integer? {x : Float} {n : ℤ} (h : Double.integer? x = some n) :
    Zaid.messageFault? n = none := by
  have hx := Double.isFinite_of_integer? h
  have hvalue := (Double.integer?_eq_some_iff hx n).mp h
  have hlong : Double.leastInfinite < 10 ^ Decimal.maxDigits := by decide +kernel
  exact messageFault?_eq_none ((Double.natAbs_lt_leastInfinite hx hvalue).trans hlong)

theorem decides_zaid : Decides (Zaid.ofValue (a.asValue m)) a.IsZaid a.zaidFault? := by
  cases a with
  | int n =>
    have hzaid : (Number.int n).IsZaid ↔ ∃ z : Zaid, n = z.raw :=
      exists_congr fun z => Option.some_inj
    rw [hzaid]
    exact decides_ofInt n
  | float x =>
    simp only [Number.asValue, Zaid.ofValue, Number.IsZaid, Number.integer?, Number.zaidFault?]
    cases hinteger : Double.integer? x with
    | some n =>
      have hdecided := decides_ofInt n
      rw [messageFault?_of_integer? hinteger] at hdecided
      simpa only [Option.some.injEq, Double.isFinite_of_integer? hinteger, if_true] using hdecided
    | none =>
      have hrefused : ¬ ∃ z : Zaid, (none : Option ℤ) = some (z.raw : ℤ) := by
        rintro ⟨z, h⟩
        cases h
      cases hx : x.isFinite with
      | true => exact Decides.of_data hrefused
      | false =>
        refine Decides.of_fault hrefused fun d hd => ?_
        split at hd <;> cases hd

/-! ## Weight ratios -/

namespace Number

/-- The number is finite and above zero, and if it is an integer, one of a machine word. -/
def IsRatio : Number → Prop
  | int n => 0 < n ∧ n < 2 ^ 64
  | float x => x.isFinite = true ∧ 0.0 < x

def wordFault? : Number → Option Fault
  | int n => if -2 ^ 63 ≤ n ∧ n < 2 ^ 64 then none else some .wrongType
  | float _ => none

end Number

theorem lattice_asValue (a : Number) (m : Mark) :
    (a.asValue m).lattice = .ok ⟨[], [a.asValue m]⟩ := by
  cases a <;> rfl

theorem isFinite_of_bounded?_none (h : (a.asValue m).bounded? = none) :
    (a.asValue m).isFinite = .error .wrongType := by
  have hcells : [a.asValue m].mapM Value.bounded? = none := by
    rw [List.mapM_cons, h]
    rfl
  simp only [Value.isFinite, lattice_asValue, bind, Except.bind, hcells]

theorem isFinite_of_bounded?_some {x : Float} (h : (a.asValue m).bounded? = some x) :
    (a.asValue m).isFinite = .ok x.isFinite := by
  have hcells : [a.asValue m].mapM Value.bounded? = some [x] := by
    rw [List.mapM_cons, h]
    rfl
  simp only [Value.isFinite, lattice_asValue, bind, Except.bind, hcells]
  rfl

theorem numberToDouble_of_bounded? {v : Value} {x : Float} (h : v.bounded? = some x) :
    v.numberToDouble = .ok x := by
  rw [Value.bounded?] at h
  rw [Value.numberToDouble]
  cases hnumber : v.number? with
  | none =>
    rw [hnumber] at h
    cases h
  | some a =>
    rw [hnumber] at h
    cases a with
    | int n =>
      obtain ⟨-, hread⟩ := Option.ite_none_right_eq_some.mp h
      simp only [Value.doubleOfInt, hread]
    | float y => exact congrArg Except.ok (Option.some.inj h)

theorem isUnwritable_of_bounded? {x : Float} (h : (a.asValue m).bounded? = some x) :
    (a.asValue m).isUnwritable = false := by
  cases a with
  | float y => rfl
  | int n =>
    have hn : -2 ^ 63 ≤ n ∧ n < 2 ^ 64 := (Option.ite_none_right_eq_some.mp h).1
    have hword : n.natAbs ≤ 2 ^ 64 := by omega
    have hlong : 2 ^ 64 < 10 ^ Decimal.maxDigits := by decide +kernel
    rw [Number.asValue, Value.isUnwritable, Bool.eq_false_iff, ne_eq, Decimal.isTooLong_iff, not_le]
    exact hword.trans_lt hlong

theorem ratio_of_bounded?_none (h : (a.asValue m).bounded? = none) (label : Value) :
    (WeightRatio.ofValue (a.asValue m) label).result = .error .wrongType := by
  rw [WeightRatio.ofValue, Outcome.bind_result, Outcome.lift_result, isFinite_of_bounded?_none h]
  rfl

theorem ratio_of_bounded?_some {x : Float} (h : (a.asValue m).bounded? = some x) {label : Value}
    (hlabel : label.isUnwritable = false) :
    Decides (WeightRatio.ofValue (a.asValue m) label).result (x.isFinite = true ∧ 0.0 < x) none := by
  have hrefused : Fault.raised (.data (.weightRatio label (a.asValue m))) =
      .data (.weightRatio label (a.asValue m)) := by
    refine Fault.raised_eq_self fun v hv => ?_
    rcases List.mem_pair.mp hv with rfl | rfl
    · exact hlabel
    · exact isUnwritable_of_bounded? h
  simp only [WeightRatio.ofValue, hrefused]
  rw [Outcome.bind_result, Outcome.lift_result, isFinite_of_bounded?_some h]
  cases hx : x.isFinite with
  | false => exact Decides.of_data fun h => Bool.false_ne_true h.1
  | true =>
    change Decides (Outcome.result (liftM (a.asValue m).numberToDouble >>= _)) _ _
    rw [Outcome.bind_result, Outcome.lift_result, numberToDouble_of_bounded? h]
    by_cases hpos : 0.0 < x
    · have haccepted : x.isFinite = true ∧ 0.0 < x := ⟨hx, hpos⟩
      change Decides (Outcome.result (if h : _ then _ else _)) _ _
      rw [dif_pos haccepted]
      exact Decides.of_ok ⟨rfl, hpos⟩
    · change Decides (Outcome.result (if h : _ then _ else _)) _ _
      rw [dif_neg fun h => hpos h.2]
      exact Decides.of_data fun h => hpos h.2

theorem ofInt_pos {n : ℤ} (h : n.natAbs < Double.leastInfinite) : 0.0 < Float.ofInt n ↔ 0 < n := by
  have hfinite := (Double.isFinite_ofInt_iff n).mpr h
  rw [Double.lt_iff_value (by decide) hfinite, Double.value_zero]
  exact ((Double.isRounded_ofInt n).sign hfinite).1

theorem decides_ratio {label : Value} (hlabel : label.isUnwritable = false) :
    Decides (WeightRatio.ofValue (a.asValue m) label).result a.IsRatio a.wordFault? := by
  cases a with
  | float x => exact ratio_of_bounded?_some (a := .float x) rfl hlabel
  | int n =>
    by_cases hn : -2 ^ 63 ≤ n ∧ n < 2 ^ 64
    · have hsmall : n.natAbs < Double.leastInfinite := Double.lt_leastInfinite (by omega)
      have hread : Double.ofInt? n = some (Float.ofInt n) :=
        Double.ofInt?_eq_some_iff.mpr ⟨rfl, hsmall⟩
      have hbounded : (Number.asValue m (.int n)).bounded? = some (Float.ofInt n) :=
        (if_pos hn).trans hread
      have hdecided := ratio_of_bounded?_some hbounded hlabel
      rw [(Double.isFinite_ofInt_iff n).mpr hsmall, ofInt_pos hsmall] at hdecided
      rw [Number.wordFault?, if_pos hn, Number.IsRatio, and_iff_left hn.2]
      simpa only [true_and] using hdecided
    · have hbounded : (Number.asValue m (.int n)).bounded? = none := if_neg hn
      rw [ratio_of_bounded?_none hbounded, Number.wordFault?, if_neg hn]
      refine Decides.of_fault (fun h => hn ?_) fun d hd => by cases hd
      obtain ⟨hpos, hlt⟩ := h
      exact ⟨by omega, hlt⟩

/-! ## Scattering centers -/

section
variable {zaid : Value} {z : Zaid} (hz : Zaid.ofValue zaid = .ok z)
include hz

theorem decides_identity (mark : Mark) (name : Value) :
    Decides (Identity.ofValues mark zaid (a.asValue m) name).result a.IsRatio a.wordFault? := by
  have hresult : (Identity.ofValues mark zaid (a.asValue m) name).result =
      (WeightRatio.ofValue (a.asValue m) WeightRatio.label).result.map fun weight =>
        ⟨z, zaid.zaidMark (mark.part 0), weight, (a.asValue m).floatMark (mark.part 1),
          if name.isNull then z.nameValue (mark.part 2) else name⟩ := by
    rw [Identity.ofValues, Outcome.bind_result]
    cases (WeightRatio.ofValue (a.asValue m) WeightRatio.label).result with
    | error f => rfl
    | ok weight =>
      change (Outcome.result (liftM (Zaid.ofValue zaid) >>= _)) = _
      rw [Outcome.bind_result, Outcome.lift_result, hz]
      rfl
  rw [hresult]
  have hlabel : WeightRatio.label.isUnwritable = false := rfl
  exact (decides_ratio hlabel).map _

theorem decides_buildAtom (s : Store) (name : Value) :
    Decides (s.buildAtom zaid (a.asValue m) name).2.result a.IsRatio a.wordFault? := by
  have hresult : (s.buildAtom zaid (a.asValue m) name).2.result =
      (Identity.ofValues s.mark zaid (a.asValue m) name).result.map fun i =>
        (s.addAtom ⟨i, .empty⟩).2 := by
    rw [Store.buildAtom]
    cases (Identity.ofValues s.mark zaid (a.asValue m) name).result <;> rfl
  rw [hresult]
  exact (decides_identity hz s.mark name).map _

theorem decides_buildNuclide (s : Store) (name : Value) {atom : Value}
    (hatom : atom = .null ∨ ∃ r caption, atom = .object (.center (.atom r) caption)) :
    Decides (s.buildNuclide zaid (a.asValue m) atom name).2.result a.IsRatio a.wordFault? := by
  have hresult : ∃ g : Identity → NuclideRef,
      (s.buildNuclide zaid (a.asValue m) atom name).2.result =
        (Identity.ofValues s.mark zaid (a.asValue m) name).result.map g := by
    simp only [Store.buildNuclide]
    rcases hatom with rfl | ⟨r, caption, rfl⟩
    · refine ⟨fun i => ((s.addAtom ⟨i.element (s.mark.part 3) (a.asValue m), .empty⟩).1.addNuclide
        ⟨i, (s.addAtom ⟨i.element (s.mark.part 3) (a.asValue m), .empty⟩).2, .empty⟩).2, ?_⟩
      cases (Identity.ofValues s.mark zaid (a.asValue m) name).result <;> rfl
    · refine ⟨fun i => (s.addNuclide ⟨i, r, .empty⟩).2, ?_⟩
      cases (Identity.ofValues s.mark zaid (a.asValue m) name).result <;> rfl
  obtain ⟨g, hg⟩ := hresult
  rw [hg]
  exact (decides_identity hz s.mark name).map g

end

/-- Whatever number is given as an energy, a temperature, an identifier or the weight ratio of an atom or
a nuclide, it is accepted or refused as data, unless its conversion fails. -/
theorem numbers_decided (a : Number) (m : Mark) :
    Decides (Energy.ofValue (a.asValue m)) a.IsTemperature a.doubleFault? ∧
    Decides (Temperature.ofValue (a.asValue m)) a.IsTemperature a.doubleFault? ∧
    Decides (Zaid.ofValue (a.asValue m)) a.IsZaid a.zaidFault? ∧
    ∀ (s : Store) (zaid name : Value) (z : Zaid), Zaid.ofValue zaid = .ok z →
      Decides (s.buildAtom zaid (a.asValue m) name).2.result a.IsRatio a.wordFault? ∧
      ∀ atom, (atom = .null ∨ ∃ r caption, atom = .object (.center (.atom r) caption)) →
        Decides (s.buildNuclide zaid (a.asValue m) atom name).2.result a.IsRatio a.wordFault? :=
  ⟨decides_energy, decides_temperature, decides_zaid, fun s _ name _ hz =>
    ⟨decides_buildAtom hz s name, fun _ hatom => decides_buildNuclide hz s name hatom⟩⟩

/-- The number one is a temperature and a weight ratio, but no identifier. -/
theorem numbers_decided_one :
    (∃ e, Energy.ofValue (.int 1 .shared) = .ok e) ∧
    (∃ d, Zaid.ofValue (.int 1 .shared) = .error (.data d)) ∧
    (∃ a, (Store.empty.buildAtom (.int 1000 .shared) (.int 1 .shared) .null).2.result = .ok a) ∧
    ∃ n, (Store.empty.buildNuclide (.int 1000 .shared) (.int 1 .shared) .null .null).2.result =
      .ok n := by
  obtain ⟨henergy, -, hzaid, hcenter⟩ := numbers_decided (.int 1) .shared
  have hhydrogen : Zaid.ofValue (.int 1000 .shared) = .ok ⟨1000, by decide⟩ := rfl
  obtain ⟨hatom, hnuclide⟩ := hcenter .empty (.int 1000 .shared) .null _ hhydrogen
  have hratio : (Number.int 1).IsRatio := ⟨by norm_num, by norm_num⟩
  refine ⟨henergy.succeeds.mpr ⟨by norm_num, ?_⟩, hzaid.refuses.mpr ⟨?_, ?_⟩,
    hatom.succeeds.mpr hratio, (hnuclide .null (Or.inl rfl)).succeeds.mpr hratio⟩
  · exact Double.lt_leastInfinite (by norm_num)
  · rintro ⟨z, hz⟩
    have := z.raw_bounds
    rw [Number.integer?, Option.some.injEq] at hz
    omega
  · decide +kernel

/-- Numbers that are neither accepted nor refused as data: as an energy an integer without a double, as an
identifier a NaN and an infinity, and as a weight ratio an integer beyond the machine words. -/
theorem numbers_unchecked :
    Energy.ofValue (.int (-Double.leastInfinite) .shared) = .error .integerTooLarge ∧
    Zaid.ofValue (.float (0.0 / 0.0) .shared) = .error .nanToInteger ∧
    Zaid.ofValue (.float (1.0 / 0.0) .shared) = .error .infinityToInteger ∧
    (Store.empty.buildAtom (.int 1001 .shared) (.int (-10 ^ 30) .shared) .null).2.result =
      .error .wrongType ∧
    (Store.empty.buildNuclide (.int 1001 .shared) (.int (-10 ^ 30) .shared) .null .null).2.result =
      .error .wrongType := by
  have hhydrogen : Zaid.ofValue (.int 1001 .shared) = .ok ⟨1001, by decide⟩ := rfl
  have hdouble : (Number.int (-Double.leastInfinite)).doubleFault? = some .integerTooLarge := by
    rw [Number.doubleFault?, Int.natAbs_neg, Int.natAbs_natCast, if_neg (lt_irrefl _)]
  have hnan : (Number.float (0.0 / 0.0)).zaidFault? = some .nanToInteger := by
    have hfinite : (0.0 / 0.0 : Float).isFinite = false := by decide +kernel
    have hisnan : (0.0 / 0.0 : Float).isNaN = true := by decide +kernel
    simp only [Number.zaidFault?, hfinite, hisnan, Bool.false_eq_true, if_true, if_false]
  have hinfinity : (Number.float (1.0 / 0.0)).zaidFault? = some .infinityToInteger := by
    have hfinite : (1.0 / 0.0 : Float).isFinite = false := by decide +kernel
    have hisnan : (1.0 / 0.0 : Float).isNaN = false := by decide +kernel
    simp only [Number.zaidFault?, hfinite, hisnan, Bool.false_eq_true, if_false]
  have hword : (Number.int (-10 ^ 30)).wordFault? = some .wrongType := by
    rw [Number.wordFault?, if_neg (by norm_num)]
  have henergy := decides_energy (a := .int (-Double.leastInfinite)) (m := .shared)
  have hzaid (x : Float) := decides_zaid (a := .float x) (m := .shared)
  have hatom := decides_buildAtom (a := .int (-10 ^ 30)) (m := .shared) hhydrogen .empty .null
  have hnuclide := decides_buildNuclide (a := .int (-10 ^ 30)) (m := .shared) hhydrogen .empty .null
    (Or.inl rfl)
  exact ⟨henergy.escapes _ hdouble, (hzaid _).escapes _ hnan, (hzaid _).escapes _ hinfinity,
    hatom.escapes _ hword, hnuclide.escapes _ hword⟩

end ScatteringData
