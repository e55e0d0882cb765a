import Mathlib
import ScatteringData.Proofs.Double.Difference
import ScatteringData.Proofs.TemperatureMap.Units

/-!
# Listing temperatures in kelvin

The energies of a bucket are divided by the Boltzmann constant, which keeps their order. The quotient
is too great for a double from the energy of 2¹⁰²⁴ K on: such an energy is stored and listed in MeV,
but no list with it can be given in kelvin. What is listed in kelvin finds its record again.
-/

namespace ScatteringData

namespace Double

variable {f g : Float}

theorem value_le_pred {n : ℕ} {d : ℤ} (hf : f.isFinite = true) (hn : 2 ^ 52 < n)
    (h : value f < n * 2 ^ d) : value f ≤ (n - 1) * 2 ^ d := by
  have hunit : (0 : ℚ) < 2 ^ d := by positivity
  have hn' : (2 : ℚ) ^ 52 ≤ n - 1 := by
    have : (2 : ℚ) ^ 52 + 1 ≤ n := by exact_mod_cast hn
    linarith
  rcases le_or_gt (value f) 0 with hneg | hpos
  · exact hneg.trans (mul_nonneg (by linarith [show (0 : ℚ) ≤ 2 ^ 52 by norm_num]) hunit.le)
  obtain ⟨m, e, hfit, hvalue⟩ := exists_abs_value hf
  rw [abs_of_pos hpos] at hvalue
  rw [hvalue] at h ⊢
  rcases lt_or_ge e d with hlt | hge
  · -- the exponent is lower, and all significands stay below
    have hm : (m : ℚ) ≤ 2 ^ 53 := by exact_mod_cast hfit.lt_top.le
    calc (m : ℚ) * 2 ^ e ≤ 2 ^ 53 * 2 ^ (d - 1) :=
          mul_le_mul hm (zpow_le_zpow_right₀ (by norm_num) (by omega)) (by positivity) (by norm_num)
      _ = 2 ^ 52 * 2 ^ d := by rw [zpow_sub_one₀ (by norm_num)]; ring
      _ ≤ (n - 1) * 2 ^ d := mul_le_mul_of_nonneg_right hn' hunit.le
  · obtain ⟨k, hk⟩ := Int.eq_ofNat_of_zero_le (show 0 ≤ e - d by omega)
    have hshift : (m : ℚ) * 2 ^ e = (m * 2 ^ k : ℕ) * 2 ^ d := by
      rw [show e = k + d by omega, zpow_add₀ (by norm_num), zpow_natCast]
      push_cast
      ring
    rw [hshift] at h ⊢
    have hlt : m * 2 ^ k < n := by exact_mod_cast lt_of_mul_lt_mul_right h hunit.le
    have hle : ((m * 2 ^ k : ℕ) : ℚ) ≤ n - 1 := by
      have : ((m * 2 ^ k : ℕ) : ℚ) + 1 ≤ n := by exact_mod_cast hlt
      linarith
    exact mul_le_mul_of_nonneg_right hle hunit.le

theorem value_boltzmann_eq : value boltzmann = 6667338066469065 * 2 ^ (-86 : ℤ) := by
  have hbinary : binary? boltzmann = some ⟨6667338066469065, -86⟩ := by decide +kernel
  rw [value, hbinary, Option.map_some, Option.getD_some, Binary.value]
  norm_num

theorem isRounded_mevToKelvin (hf : f.isFinite = true) :
    IsRounded (mevToKelvin f) (value f / value boltzmann) :=
  isRounded_div hf isFinite_boltzmann value_boltzmann.1.ne'

theorem value_mevToKelvin_le (hf : (mevToKelvin f).isFinite = true)
    (hg : (mevToKelvin g).isFinite = true) (hf' : f.isFinite = true) (hg' : g.isFinite = true)
    (h : value f < value g) : value (mevToKelvin f) ≤ value (mevToKelvin g) :=
  IsRounded.le_of_lt hf hg (isRounded_mevToKelvin hf') (isRounded_mevToKelvin hg')
    (div_lt_div_of_pos_right h value_boltzmann.1)

theorem zpow_limit : (2 : ℚ) ^ (1024 : ℤ) = 2 ^ 53 * 2 ^ (971 : ℤ) := by
  rw [← zpow_natCast, ← zpow_add₀ (by norm_num)]
  rfl

/-- The energy of 2¹⁰²⁴ K. -/
def kelvinLimit : ℚ := 2 ^ (1024 : ℤ) * value boltzmann

def limitMev : Float := 1.549131943652667e+298

theorem kelvinLimit_eq : kelvinLimit = 6667338066469065 * 2 ^ (938 : ℤ) := by
  rw [kelvinLimit, value_boltzmann_eq, mul_left_comm, ← zpow_add₀ (by norm_num)]
  rfl

theorem value_limitMev : limitMev.isFinite = true ∧ value limitMev = kelvinLimit := by
  have hbinary : binary? limitMev = some ⟨6667338066469065, 938⟩ := by decide +kernel
  refine ⟨by decide +kernel, ?_⟩
  rw [kelvinLimit_eq, value, hbinary, Option.map_some, Option.getD_some, Binary.value]
  change ((6667338066469065 : ℤ) : ℚ) * 2 ^ (938 : ℤ) = _
  rw [Int.cast_ofNat]

section
variable (hf : isMagnitude f = true)
include hf

/-- From the limit on no rounding brings the quotient back to the greatest double. -/
theorem value_lt_kelvinLimit (hfinite : (mevToKelvin f).isFinite = true) :
    value f < kelvinLimit := by
  obtain ⟨hk0, -⟩ := value_boltzmann
  have hff := isFinite_of_isMagnitude hf
  by_contra hge
  rcases (not_lt.mp hge).lt_or_eq with hlt | heq
  · have hlarge : 2 ^ (1024 : ℤ) < value f / value boltzmann := (lt_div_iff₀ hk0).mpr hlt
    have hclose := (isRounded_mevToKelvin hff).close hfinite
    have htop := (abs_le.mp (abs_value_le_greatest hfinite)).2
    have hleast : (2 : ℚ) ^ (-1075 : ℤ) ≤ 2 ^ (971 : ℤ) :=
      zpow_le_zpow_right₀ (by norm_num) (by norm_num)
    rw [abs_of_nonneg (div_nonneg (value_nonneg hf) hk0.le)] at hclose
    rw [greatest] at htop
    rw [zpow_limit] at hlarge
    generalize value f / value boltzmann = v at *
    generalize (2 : ℚ) ^ (971 : ℤ) = unit at *
    rw [max_eq_left (by linarith)] at hclose
    linarith [(abs_le.mp hclose).1]
  · obtain ⟨hlimit, hvalue⟩ := value_limitMev
    rcases eq_of_value_eq hff hlimit (heq.symm.trans hvalue.symm) with rfl | hzero
    · exact absurd hfinite (by decide +kernel)
    · rw [hzero, kelvinLimit_eq] at heq
      exact absurd heq (by positivity)

theorem isFinite_mevToKelvin_iff :
    (mevToKelvin f).isFinite = true ↔ value f < kelvinLimit := by
  obtain ⟨hk0, -⟩ := value_boltzmann
  have hff := isFinite_of_isMagnitude hf
  refine ⟨value_lt_kelvinLimit hf, fun hlt => (isRounded_mevToKelvin hff).finite ?_⟩
  rw [abs_of_nonneg (div_nonneg (value_nonneg hf) hk0.le), div_le_iff₀ hk0]
  rw [kelvinLimit_eq] at hlt
  have hsplit : (2 : ℚ) ^ (938 : ℤ) = 2 ^ 53 * 2 ^ (971 : ℤ) * 2 ^ (-86 : ℤ) := by
    rw [← zpow_natCast, ← zpow_add₀ (by norm_num), ← zpow_add₀ (by norm_num)]
    rfl
  have hunit : (0 : ℚ) < 2 ^ (971 : ℤ) * 2 ^ (-86 : ℤ) := by positivity
  calc value f ≤ ((6667338066469065 : ℕ) - 1) * 2 ^ (938 : ℤ) :=
        value_le_pred hff (by norm_num) hlt
    _ = 6667338066469064 * 2 ^ 53 * (2 ^ (971 : ℤ) * 2 ^ (-86 : ℤ)) := by
        rw [hsplit]
        generalize (2 : ℚ) ^ (971 : ℤ) = unit
        push_cast
        ring
    _ ≤ (2 ^ 53 - 1) * 6667338066469065 * (2 ^ (971 : ℤ) * 2 ^ (-86 : ℤ)) :=
        mul_le_mul_of_nonneg_right (by norm_num) hunit.le
    _ = greatest * value boltzmann := by
        rw [greatest, value_boltzmann_eq]
        generalize (2 : ℚ) ^ (971 : ℤ) = unit
        ac_rfl

end

end Double

open Double

namespace Energy

variable {e : Energy}

theorem isFinite_mevToKelvin_of_ok {t : Temperature} (h : e.toTemperature = .ok t) :
    (mevToKelvin e.mev).isFinite = true := by
  rw [toTemperature_eq_ok.mp h]
  exact isFinite_of_isMagnitude t.admissible

theorem exists_toTemperature (h : e.value < kelvinLimit) : ∃ t, e.toTemperature = .ok t := by
  have hfinite := (isFinite_mevToKelvin_iff e.admissible).mpr h
  have hround := isRounded_mevToKelvin e.isFinite
  have hpos := hround.nonneg hfinite (div_nonneg (value_nonneg e.admissible) value_boltzmann.1.le)
  exact ⟨⟨mevToKelvin e.mev, isMagnitude_of_value_nonneg hfinite hpos⟩, toTemperature_eq_ok.mpr rfl⟩

theorem toTemperature_eq_error (h : kelvinLimit ≤ e.value) :
    e.toTemperature =
      .error (.data (.temperature (.float (mevToKelvin e.mev) .shared) (.text "K" .shared))) := by
  refine dif_neg fun hmagnitude => absurd h (not_le.mpr ?_)
  exact value_lt_kelvinLimit e.admissible (isFinite_of_isMagnitude hmagnitude)

theorem isMatch_kelvin (h : (mevToKelvin e.mev).isFinite = true) :
    Grid.isMatch e.mev (kelvinToMev (mevToKelvin e.mev)) = true := by
  by_cases hnormal : 2 ^ (-1022 : ℤ) ≤ e.value
  · obtain ⟨hmagnitude, hnear⟩ := conversion_near e.admissible h hnormal
    have hmiss := (isMatch_bounds hmagnitude hnear hnormal e).2
    rw [sub_self, abs_zero] at hmiss
    have hpos := mul_nonneg (show (0 : ℚ) ≤ 1 / 10 ^ 12 - 1 / 2 ^ 50 by norm_num)
      (value_nonneg e.admissible)
    exact Bool.eq_true_of_not_eq_false fun hfalse => absurd (hmiss hfalse) (not_lt.mpr hpos)
  · rw [kelvinToMev_mevToKelvin e.admissible h (not_le.mp hnormal)]
    exact Grid.isMatch_of_value_eq rfl

end Energy

/-! ## Listing energies in kelvin -/

/-- The number of kelvin that a temperature stands for. -/
def Temperature.value (t : Temperature) : ℚ := Double.value t.kelvin

theorem kelvins_cases (es : List Energy) :
    (∃ ts, es.mapM Energy.toTemperature = .ok ts ∧
      ts.map (·.kelvin) = es.map fun e => mevToKelvin e.mev) ∨
    ∃ e ∈ es, kelvinLimit ≤ e.value ∧ es.mapM Energy.toTemperature =
      .error (.data (.temperature (.float (mevToKelvin e.mev) .shared) (.text "K" .shared))) := by
  induction es with
  | nil => exact Or.inl ⟨[], rfl, rfl⟩
  | cons e es ih =>
    rw [List.mapM_cons]
    rcases le_or_gt kelvinLimit e.value with hhigh | hlow
    · rw [Energy.toTemperature_eq_error hhigh]
      exact Or.inr ⟨e, List.mem_cons_self .., hhigh, rfl⟩
    · obtain ⟨t, ht⟩ := Energy.exists_toTemperature hlow
      rw [ht]
      rcases ih with ⟨ts, hts, hmap⟩ | ⟨d, hd, hhigh, hfail⟩
      · rw [hts]
        refine Or.inl ⟨t :: ts, rfl, ?_⟩
        rw [List.map_cons, List.map_cons, hmap, Energy.toTemperature_eq_ok.mp ht]
      · rw [hfail]
        exact Or.inr ⟨d, List.mem_cons_of_mem _ hd, hhigh, rfl⟩

section
variable {es : List Energy} {ts : List Temperature}
  (h : ts.map (·.kelvin) = es.map fun e => mevToKelvin e.mev)
include h

theorem exists_energy_of_kelvin {t : Temperature} (ht : t ∈ ts) :
    ∃ e ∈ es, e.toTemperature = .ok t := by
  have hmem : t.kelvin ∈ es.map fun e => mevToKelvin e.mev := h ▸ List.mem_map_of_mem ht
  obtain ⟨e, he, heq⟩ := List.mem_map.mp hmem
  exact ⟨e, he, Energy.toTemperature_eq_ok.mpr heq⟩

theorem exists_kelvin_of_energy {e : Energy} (he : e ∈ es) : ∃ t ∈ ts, e.toTemperature = .ok t := by
  have hmem : mevToKelvin e.mev ∈ ts.map (·.kelvin) := by
    rw [h]
    exact List.mem_map_of_mem he
  obtain ⟨t, ht, heq⟩ := List.mem_map.mp hmem
  exact ⟨t, ht, Energy.toTemperature_eq_ok.mpr heq.symm⟩

/-- The division keeps the order of ascending energies, though it may make some equal. -/
theorem kelvins_ascending (hasc : es.Pairwise fun d e => d.value < e.value) :
    ts.Pairwise fun s t => s.value ≤ t.value := by
  have hfinite : ∀ e ∈ es, (mevToKelvin e.mev).isFinite = true := fun e he => by
    obtain ⟨t, -, ht⟩ := exists_kelvin_of_energy h he
    exact Energy.isFinite_mevToKelvin_of_ok ht
  have hkelvins : (ts.map (·.kelvin)).Pairwise fun x y => Double.value x ≤ Double.value y := by
    rw [h, List.pairwise_map]
    exact hasc.imp_of_mem fun hd he hlt =>
      value_mevToKelvin_le (hfinite _ hd) (hfinite _ he) (Energy.isFinite _) (Energy.isFinite _) hlt
  rw [List.pairwise_map] at hkelvins
  exact hkelvins

end

namespace TemperatureMap

variable {m : TemperatureMap} {fileType version : Value}

theorem temperatures_of_energies {es : List Energy} (h : m.energies fileType version = .ok es) :
    m.temperatures fileType version = es.mapM Energy.toTemperature := by
  obtain ⟨b, hb, h⟩ := except_bind_eq_ok.mp h
  unfold temperatures
  rw [hb]
  cases b with
  | graded entries =>
    cases h
    rw [List.mapM_map]
    rfl
  | lone text r => cases h

section
variable (h : m.Built) (h₁ : ∃ k, fileType.key? = some k) (h₂ : ∃ k, version.key? = some k)
include h h₁ h₂

/-- The kelvin list of a bucket is there if and only if the temperatures of its energies are below
2¹⁰²⁴ K, and then it has the quotients in their order. -/
theorem Built.temperatures_listed :
    ∃ es, m.energies fileType version = .ok es ∧
      ((∀ e ∈ es, e.value < kelvinLimit) → ∃ ts, m.temperatures fileType version = .ok ts ∧
        ts.length = es.length ∧ ts.map (·.kelvin) = es.map (fun e => mevToKelvin e.mev) ∧
        ts.Pairwise fun s t => s.value ≤ t.value) ∧
      ((∃ e ∈ es, kelvinLimit ≤ e.value) → ∃ e ∈ es, kelvinLimit ≤ e.value ∧
        m.temperatures fileType version =
          .error (.data (.temperature (.float (mevToKelvin e.mev) .shared) (.text "K" .shared)))) := by
  obtain ⟨k₁, hk₁⟩ := h₁
  obtain ⟨k₂, hk₂⟩ := h₂
  have hsound := h.sound
  have hasc : ((m.entriesAt k₁ k₂).map (·.1)).Pairwise fun d e => d.value < e.value :=
    List.pairwise_map.mpr (hsound.ascending k₁ k₂)
  have henergies := energies_eq hsound hk₁ hk₂
  refine ⟨_, henergies, ?_⟩
  rw [temperatures_of_energies henergies]
  rcases kelvins_cases ((m.entriesAt k₁ k₂).map (·.1)) with ⟨ts, hts, hmap⟩ | ⟨e, he, hhigh, hfail⟩
  · have hlength := congrArg List.length hmap
    rw [List.length_map, List.length_map] at hlength
    refine ⟨fun _ => ⟨ts, hts, hlength, hmap, kelvins_ascending hmap hasc⟩, ?_⟩
    rintro ⟨e, he, hhigh⟩
    obtain ⟨t, -, ht⟩ := exists_kelvin_of_energy hmap he
    cases (Energy.toTemperature_eq_error hhigh).symm.trans ht
  · exact ⟨fun hlow => absurd (hlow e he) (not_lt.mpr hhigh), fun _ => ⟨e, he, hhigh, hfail⟩⟩

end

def faint : Energy := ⟨5e-324, by decide +kernel⟩

def hottest : Energy := ⟨1.5491319436526668e+298, by decide +kernel⟩

def scorching : Energy := ⟨limitMev, by decide +kernel⟩

def extremes : TemperatureMap :=
  ((((empty "nuclear").set ⟨0⟩ (.hydrogen 0 hottest)).1.set ⟨1⟩ (.hydrogen 0 faint)).1.set ⟨2⟩
    (.hydrogen 0 slow)).1

def overheated : TemperatureMap := (spread.set ⟨2⟩ (.hydrogen 0 scorching)).1

theorem extremes_built : extremes.Built :=
  .set (.set (.set (.empty "nuclear") ⟨0⟩ (Record.hydrogen_isGraded 0 hottest)) ⟨1⟩
    (Record.hydrogen_isGraded 0 faint)) ⟨2⟩ (Record.hydrogen_isGraded 0 slow)

theorem overheated_built : overheated.Built :=
  .set spread_built ⟨2⟩ (Record.hydrogen_isGraded 0 scorching)

theorem eq_ok_of_toOption {α : Type} {x : Except Fault α} {a : α} (h : x.toOption = some a) :
    x = .ok a := by
  cases x with
  | error f => cases h
  | ok b =>
    cases h
    rfl

theorem energies_extremes :
    extremes.energies (.text "ACE" .shared) (.int 0 .shared) = .ok [faint, slow, hottest] :=
  eq_ok_of_toOption (by decide +kernel)

theorem energies_overheated : overheated.energies (.text "ACE" .shared) (.int 0 .shared) =
    .ok [slow, fast, scorching] :=
  eq_ok_of_toOption (by decide +kernel)

theorem temperatures_listed_extremes :
    extremes.Built ∧ ∃ ts, extremes.temperatures (.text "ACE" .shared) (.int 0 .shared) = .ok ts ∧
      ts.length = 3 ∧ ts.Pairwise fun s t => s.value ≤ t.value := by
  obtain ⟨es, hes, hlisted, -⟩ := Built.temperatures_listed extremes_built
    (show ∃ k, (Value.text "ACE" .shared).key? = some k from ⟨_, rfl⟩)
    (show ∃ k, (Value.int 0 .shared).key? = some k from ⟨_, rfl⟩)
  cases energies_extremes.symm.trans hes
  have hlow : ∀ e ∈ [faint, slow, hottest], e.value < kelvinLimit := by
    intro e he
    apply value_lt_kelvinLimit e.admissible
    revert e
    decide +kernel
  obtain ⟨ts, hts, hlength, -, hasc⟩ := hlisted hlow
  exact ⟨extremes_built, ts, hts, hlength, hasc⟩

/-- With an energy of 2¹⁰²⁴ K the list in MeV is there and the one in kelvin is not. -/
theorem temperatures_overheated :
    overheated.Built ∧
      overheated.energies (.text "ACE" .shared) (.int 0 .shared) =
        .ok [slow, fast, scorching] ∧
      overheated.temperatures (.text "ACE" .shared) (.int 0 .shared) =
        .error (.data (.temperature (.float (1.0 / 0.0) .shared) (.text "K" .shared))) := by
  refine ⟨overheated_built, energies_overheated, ?_⟩
  have hslow : slow.toTemperature = .ok ⟨mevToKelvin slow.mev, by decide +kernel⟩ :=
    Energy.toTemperature_eq_ok.mpr rfl
  have hfast : fast.toTemperature = .ok ⟨mevToKelvin fast.mev, by decide +kernel⟩ :=
    Energy.toTemperature_eq_ok.mpr rfl
  rw [temperatures_of_energies energies_overheated, List.mapM_cons, hslow, List.mapM_cons, hfast,
    List.mapM_cons, Energy.toTemperature_eq_error (e := scorching) value_limitMev.2.ge,
    show mevToKelvin scorching.mev = 1.0 / 0.0 by decide +kernel]
  rfl

/-- Whatever is listed in kelvin is available, and an exact look-up finds a record of the bucket. -/
theorem Built.listed_temperature_found (h : m.Built) {ts : List Temperature}
    (hts : m.temperatures fileType version = .ok ts) {t : Temperature} (ht : t ∈ ts) (mark : Mark) :
    m.available fileType version (.temperature t mark) = .ok true ∧
    ∃ k₁ k₂ x, fileType.key? = some k₁ ∧ version.key? = some k₂ ∧ x ∈ m.entriesAt k₁ k₂ ∧
      (m.get fileType version (.temperature t mark) true).result = .ok x.2 := by
  obtain ⟨b, hb, -⟩ := except_bind_eq_ok.mp hts
  obtain ⟨k₁, k₂, h₁, h₂⟩ := keys_of_bucket hb
  have hsound := h.sound
  rw [temperatures_of_energies (energies_eq hsound h₁ h₂)] at hts
  obtain ⟨e, he, het⟩ : ∃ e ∈ (m.entriesAt k₁ k₂).map (·.1), e.toTemperature = .ok t := by
    rcases kelvins_cases ((m.entriesAt k₁ k₂).map (·.1)) with ⟨ts', hts', hmap⟩ | ⟨e, -, -, hfail⟩
    · cases hts.symm.trans hts'
      exact exists_energy_of_kelvin hmap ht
    · cases hts.symm.trans hfail
  obtain ⟨x, hx, rfl⟩ := List.mem_map.mp he
  have hquery : (Value.temperature t mark).toMev = .ok (kelvinToMev (mevToKelvin x.1.mev)) := by
    rw [Energy.toTemperature_eq_ok.mp het]
    rfl
  have hhit : Bucket.isHit (kelvinToMev (mevToKelvin x.1.mev)) x = true :=
    Energy.isMatch_kelvin (Energy.isFinite_mevToKelvin_of_ok het)
  obtain ⟨hk₁, hk₂⟩ := hsound.not_null hx
  constructor
  · rw [available_eq hsound h₁ h₂ hk₁ hk₂ hquery, List.any_eq_true.mpr ⟨x, hx, hhit⟩]
  · have hfound := get_exact_result hsound h₁ h₂ (List.ne_nil_of_mem hx) hquery
    cases hy : (m.entriesAt k₁ k₂).find? (Bucket.isHit (kelvinToMev (mevToKelvin x.1.mev))) with
    | none => exact absurd hhit (List.find?_eq_none.mp hy x hx)
    | some y =>
      rw [hy] at hfound
      exact ⟨k₁, k₂, y, h₁, h₂, List.mem_of_find?_eq_some hy, hfound⟩

theorem listed_temperature_found_extremes :
    extremes.Built ∧ ∃ s t u, extremes.temperatures (.text "ACE" .shared) (.int 0 .shared) =
        .ok [s, t, u] ∧
      extremes.available (.text "ACE" .shared) (.int 0 .shared) (.temperature s .shared) = .ok true := by
  have hlist : extremes.temperatures (.text "ACE" .shared) (.int 0 .shared) =
      .ok [⟨mevToKelvin faint.mev, by decide +kernel⟩, ⟨mevToKelvin slow.mev, by decide +kernel⟩,
        ⟨mevToKelvin hottest.mev, by decide +kernel⟩] :=
    eq_ok_of_toOption (by decide +kernel)
  exact ⟨extremes_built, _, _, _, hlist,
    (Built.listed_temperature_found extremes_built hlist (List.mem_cons_self ..) .shared).1⟩

end TemperatureMap

end ScatteringData
