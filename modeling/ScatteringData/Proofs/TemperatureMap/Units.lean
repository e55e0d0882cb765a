import Mathlib
import ScatteringData.Proofs.Bucket.Tolerance
import ScatteringData.Proofs.RecordMap.Availability

/-!
# Queries in kelvin and in MeV

An energy that is converted to kelvin and back is an energy next to it. A check of availability answers
the same for both, unless the tolerance of a match ends there.
-/

namespace ScatteringData

open Double

/-! ## There and back -/

section
variable {q : Float} (hq : isMagnitude q = true) (ht : (mevToKelvin q).isFinite = true)
include hq ht

theorem conversion_errors : (kelvinToMev (mevToKelvin q)).isFinite = true ∧
    ∃ v : ℚ, |v - value q| ≤ max (value q / 2 ^ 53) (2 ^ (-1075 : ℤ) * value boltzmann) ∧
      |value (kelvinToMev (mevToKelvin q)) - v| ≤ max (|v| / 2 ^ 53) (2 ^ (-1075 : ℤ)) := by
  obtain ⟨hk0, hk1⟩ := value_boltzmann
  have hq0 := value_nonneg hq
  have hdiv := (isRounded_div (isFinite_of_isMagnitude hq) isFinite_boltzmann hk0.ne').close ht
  have hmul := isRounded_mul ht isFinite_boltzmann
  have hfinite : (kelvinToMev (mevToKelvin q)).isFinite = true := by
    apply hmul.finite
    rw [abs_mul, abs_of_pos hk0]
    exact (mul_le_of_le_one_right (abs_nonneg _) hk1.le).trans (abs_value_le_greatest ht)
  refine ⟨hfinite, value (mevToKelvin q) * value boltzmann, ?_, hmul.close hfinite⟩
  have hscaled := mul_le_mul_of_nonneg_right hdiv hk0.le
  rw [← abs_of_pos hk0, ← abs_mul, abs_of_pos hk0, sub_mul, div_mul_cancel₀ _ hk0.ne',
    max_mul_of_nonneg _ _ hk0.le, abs_of_nonneg (div_nonneg hq0 hk0.le), div_right_comm,
    div_mul_cancel₀ _ hk0.ne'] at hscaled
  exact hscaled

theorem kelvinToMev_mevToKelvin (hsmall : value q < 2 ^ (-1022 : ℤ)) :
    kelvinToMev (mevToKelvin q) = q := by
  obtain ⟨hfinite, v, hv, hback⟩ := conversion_errors hq ht
  obtain ⟨hk0, hk1⟩ := value_boltzmann
  have hqf := isFinite_of_isMagnitude hq
  have hq0 := value_nonneg hq
  -- the exact numbers are less than half the least double apart, and then the doubles are equal
  have hvalue : value (kelvinToMev (mevToKelvin q)) = value q := by
    apply value_eq_of_near hfinite hqf
    have hbelow := value_le_of_lt_normal hqf hsmall
    have hleast : (0 : ℚ) < 2 ^ (-1075 : ℤ) := by positivity
    rw [zpow_least]
    generalize (2 : ℚ) ^ (-1075 : ℤ) = half at *
    have hkhalf : half * value boltzmann < half := mul_lt_of_lt_one_right hleast hk1
    have hv' : |v - value q| < half := hv.trans_lt (max_lt (by linarith) hkhalf)
    obtain ⟨hv1, hv2⟩ := abs_lt.mp hv'
    have hvabs : |v| / 2 ^ 53 ≤ half := by
      have : |v| ≤ 2 ^ 53 * half := abs_le.mpr ⟨by linarith, by linarith⟩
      linarith
    obtain ⟨h1, h2⟩ := abs_le.mp (hback.trans (max_le hvabs le_rfl))
    exact abs_lt.mpr ⟨by linarith, by linarith⟩
  rcases eq_of_value_eq hfinite hqf hvalue with heq | hzero
  · exact heq
  · rw [hvalue] at hzero
    rcases eq_zero_of_value hqf hzero with rfl | rfl <;> decide +kernel

/-- A normal number comes back with a relative error of three units of rounding at most. -/
theorem conversion_near (hnormal : 2 ^ (-1022 : ℤ) ≤ value q) :
    isMagnitude (kelvinToMev (mevToKelvin q)) = true ∧
      |value (kelvinToMev (mevToKelvin q)) - value q| ≤ 3 / 2 ^ 53 * value q := by
  obtain ⟨hfinite, v, hv, hback⟩ := conversion_errors hq ht
  obtain ⟨hk0, hk1⟩ := value_boltzmann
  have hq0 := value_nonneg hq
  have hleast : (0 : ℚ) < 2 ^ (-1075 : ℤ) := by positivity
  rw [zpow_normal] at hnormal
  have hnear : |value (kelvinToMev (mevToKelvin q)) - value q| ≤ 3 / 2 ^ 53 * value q := by
    generalize (2 : ℚ) ^ (-1075 : ℤ) = half at *
    have hkhalf : half * value boltzmann < half := mul_lt_of_lt_one_right hleast hk1
    obtain ⟨hv1, hv2⟩ := abs_le.mp (hv.trans (max_le le_rfl (by linarith)))
    have hvabs : |v| ≤ (1 + 1 / 2 ^ 53) * value q := abs_le.mpr ⟨by linarith, by linarith⟩
    have hmax : max (|v| / 2 ^ 53) half ≤ (1 + 1 / 2 ^ 53) / 2 ^ 53 * value q :=
      max_le (by linarith) (by linarith)
    obtain ⟨h1, h2⟩ := abs_le.mp (hback.trans hmax)
    exact abs_le.mpr ⟨by linarith, by linarith⟩
  refine ⟨isMagnitude_of_value_nonneg hfinite ?_, hnear⟩
  have := (abs_le.mp hnear).1
  linarith

end

theorem Energy.toTemperature_eq_ok {e : Energy} {t : Temperature} :
    e.toTemperature = .ok t ↔ mevToKelvin e.mev = t.kelvin := by
  unfold toTemperature Temperature.ofFloat
  constructor
  · intro h
    split at h
    · cases h
      rfl
    · cases h
  · intro h
    rw [dif_pos (h ▸ t.admissible)]
    congr

/-! ## The edge of the tolerance -/

/-- Energies among which the next one to a queried energy is where the tolerance of a match ends. -/
structure Energy.AtEdge (stored : Energy → Prop) (e : Energy) : Prop where
  normal : 2 ^ (-1022 : ℤ) ≤ e.value
  none_nearer : ∀ g, stored g → (1 / 10 ^ 12 - 1 / 2 ^ 50) * e.value < |g.value - e.value|
  some_near : ∃ g, stored g ∧ |g.value - e.value| ≤ (1 / 10 ^ 12 + 1 / 2 ^ 50) * e.value

theorem Energy.isMatch_bounds {q : Float} {e : Energy} (hq : isMagnitude q = true)
    (hnear : |Double.value q - e.value| ≤ 3 / 2 ^ 53 * e.value) (hnormal : 2 ^ (-1022 : ℤ) ≤ e.value)
    (g : Energy) :
    (Grid.isMatch g.mev q = true → |g.value - e.value| ≤ (1 / 10 ^ 12 + 1 / 2 ^ 50) * e.value) ∧
      (Grid.isMatch g.mev q = false →
        (1 / 10 ^ 12 - 1 / 2 ^ 50) * e.value < |g.value - e.value|) := by
  obtain ⟨h1, h2⟩ := abs_le.mp hnear
  have hq' : 3 * 2 ^ (-1024 : ℤ) ≤ Double.value q := by
    have hsplit : (2 : ℚ) ^ (-1022 : ℤ) = 2 ^ 2 * 2 ^ (-1024 : ℤ) := by
      rw [← zpow_natCast, ← zpow_add₀ (by norm_num)]
      rfl
    have hpos : (0 : ℚ) < 2 ^ (-1024 : ℤ) := by positivity
    linarith
  obtain ⟨hmatch, hno⟩ := Grid.isMatch_bounds g.admissible hq hq'
  change _ → |g.value - _| ≤ _ at hmatch
  change _ → _ < |g.value - _| at hno
  constructor
  · intro h
    obtain ⟨h3, h4⟩ := abs_le.mp (hmatch h)
    exact abs_le.mpr ⟨by linarith, by linarith⟩
  · intro h
    rcases lt_abs.mp (hno h) with hlt | hlt
    · exact lt_abs.mpr (Or.inl (by linarith))
    · exact lt_abs.mpr (Or.inr (by linarith))

/-- Of an energy and its conversion there and back one matches something and the other one nothing only
at the edge of the tolerance. -/
theorem Energy.atEdge_of_matches_differ {stored : Energy → Prop} {e : Energy}
    (ht : (mevToKelvin e.mev).isFinite = true)
    (h : ¬ ((∃ g, stored g ∧ Grid.isMatch g.mev e.mev = true) ↔
      ∃ g, stored g ∧ Grid.isMatch g.mev (kelvinToMev (mevToKelvin e.mev)) = true)) :
    e.AtEdge stored := by
  have hnormal : 2 ^ (-1022 : ℤ) ≤ e.value := by
    by_contra hsmall
    rw [kelvinToMev_mevToKelvin e.admissible ht (not_le.mp hsmall)] at h
    exact h Iff.rfl
  obtain ⟨hmagnitude, hnear⟩ := conversion_near e.admissible ht hnormal
  have hsame : |Double.value e.mev - e.value| ≤ 3 / 2 ^ 53 * e.value := by
    rw [Energy.value, sub_self, abs_zero]
    exact mul_nonneg (by norm_num) (value_nonneg e.admissible)
  have hback := isMatch_bounds hmagnitude hnear hnormal
  have hself := isMatch_bounds e.admissible hsame hnormal
  by_cases hmatch : ∃ g, stored g ∧ Grid.isMatch g.mev e.mev = true
  · have hother : ¬ ∃ g, stored g ∧ Grid.isMatch g.mev (kelvinToMev (mevToKelvin e.mev)) = true :=
      fun hother => h (iff_of_true hmatch hother)
    obtain ⟨g, hg, hge⟩ := hmatch
    refine ⟨hnormal, fun d hd => (hback d).2 ?_, g, hg, (hself g).1 hge⟩
    exact Bool.eq_false_iff.mpr fun hd' => hother ⟨d, hd, hd'⟩
  · have hother : ∃ g, stored g ∧ Grid.isMatch g.mev (kelvinToMev (mevToKelvin e.mev)) = true := by
      by_contra hother
      exact h (iff_of_false hmatch hother)
    obtain ⟨g, hg, hge⟩ := hother
    refine ⟨hnormal, fun d hd => (hself d).2 ?_, g, hg, (hback g).1 hge⟩
    exact Bool.eq_false_iff.mpr fun hd' => hmatch ⟨d, hd, hd'⟩

namespace TemperatureMap

/-- The energies of the records with the file type and the version that are asked for. -/
def Stored (m : TemperatureMap) (fileType version : Value) (g : Energy) : Prop :=
  ∃ p ∈ m.placements none, fileType.AsksFor p.fileType ∧ version.AsksFor p.version ∧ p.energy = some g

variable {m : TemperatureMap} {fileType version : Value}

theorem Built.available_query (h : m.Built) (h₁ : ∃ k, fileType.key? = some k)
    (h₂ : ∃ k, version.key? = some k) {t : Value} {query : Float} (ht : t.toMev = .ok query) :
    ∃ b, m.available fileType version t = .ok b ∧
      (b = true ↔ ∃ g, m.Stored fileType version g ∧ Grid.isMatch g.mev query = true) := by
  have hnull := isNull_of_toMev ht
  obtain ⟨b, hb, hiff⟩ := h.sound.available_below (q := ⟨.null, fileType, version, t⟩)
    ⟨⟨_, rfl⟩, h₁, h₂, Or.inr ⟨query, ht⟩⟩ (fun k (hk : none = some k) => by cases hk)
  refine ⟨b, hb, hiff.trans ?_⟩
  have hbelow : Request.belowName ⟨.null, fileType, version, t⟩ = ⟨.null, fileType, version, t⟩ :=
    if_neg fun hboth => by simp [hnull] at hboth
  rw [hbelow]
  constructor
  · rintro ⟨p, hp, hmatch⟩
    obtain ⟨g, query', hg, ht', hhit⟩ := hmatch.temperature.resolve_left (by simp [hnull])
    cases ht.symm.trans ht'
    exact ⟨g, ⟨p, hp, hmatch.fileType, hmatch.version, hg⟩, hhit⟩
  · rintro ⟨g, ⟨p, hp, hfile, hversion, hg⟩, hhit⟩
    exact ⟨p, hp, fun _ _ => Value.asksFor_null _, hfile, hversion, Or.inr ⟨g, query, hg, ht, hhit⟩⟩

/-- A check for an energy and a check for its temperature always answer, and they answer the same but
at the edge of the tolerance about the stored energies. -/
theorem Built.available_units (h : m.Built) (h₁ : ∃ k, fileType.key? = some k)
    (h₂ : ∃ k, version.key? = some k) {e : Energy} {t : Temperature} (ht : e.toTemperature = .ok t)
    (mark mark' : Mark) :
    ∃ b b', m.available fileType version (.energy e mark) = .ok b ∧
      m.available fileType version (.temperature t mark') = .ok b' ∧
      (b ≠ b' → e.AtEdge (m.Stored fileType version)) := by
  have hkelvin := Energy.toTemperature_eq_ok.mp ht
  have hfinite : (mevToKelvin e.mev).isFinite = true := by
    rw [hkelvin]
    exact isFinite_of_isMagnitude t.admissible
  have hback : (Value.temperature t mark').toMev = .ok (kelvinToMev (mevToKelvin e.mev)) := by
    rw [hkelvin]
    rfl
  obtain ⟨b, hb, hiff⟩ := h.available_query h₁ h₂ (t := .energy e mark) rfl
  obtain ⟨b', hb', hiff'⟩ := h.available_query h₁ h₂ hback
  refine ⟨b, b', hb, hb', fun hne => Energy.atEdge_of_matches_differ hfinite fun hsame => hne ?_⟩
  rw [Bool.eq_iff_iff, hiff, hiff', hsame]

/-! ## Two queries at the edge -/

def slow : Energy := ⟨2.1543e-07, by decide +kernel⟩

def fast : Energy := ⟨3.0, by decide +kernel⟩

def slower : Energy := ⟨2.1542999999978458e-07, by decide +kernel⟩

def faster : Energy := ⟨3.0000000000030003, by decide +kernel⟩

def slowerKelvin : Temperature := ⟨2499.96156641021, by decide +kernel⟩

def fasterKelvin : Temperature := ⟨34813557532.58891, by decide +kernel⟩

def spread : TemperatureMap :=
  (((empty "nuclear").set ⟨0⟩ (.hydrogen 0 slow)).1.set ⟨1⟩ (.hydrogen 0 fast)).1

theorem spread_built : spread.Built :=
  .set (.set (.empty "nuclear") ⟨0⟩ (Record.hydrogen_isGraded 0 slow)) ⟨1⟩
    (Record.hydrogen_isGraded 0 fast)

theorem faster_toTemperature : faster.toTemperature = .ok fasterKelvin :=
  Energy.toTemperature_eq_ok.mpr (by decide +kernel)

theorem slower_toTemperature : slower.toTemperature = .ok slowerKelvin :=
  Energy.toTemperature_eq_ok.mpr (by decide +kernel)

theorem available_faster :
    spread.available (.text "ACE" .shared) (.int 0 .shared) (.energy faster .shared) = .ok false ∧
    spread.available (.text "ACE" .shared) (.int 0 .shared) (.temperature fasterKelvin .shared) =
      .ok true := by
  constructor <;> with_unfolding_all rfl

theorem available_units_faster :
    spread.Built ∧ faster.toTemperature = .ok fasterKelvin ∧
      faster.AtEdge (spread.Stored (.text "ACE" .shared) (.int 0 .shared)) := by
  obtain ⟨b, b', hb, hb', hedge⟩ := spread_built.available_units
    (show ∃ k, (Value.text "ACE" .shared).key? = some k from ⟨_, rfl⟩)
    (show ∃ k, (Value.int 0 .shared).key? = some k from ⟨_, rfl⟩) faster_toTemperature .shared .shared
  refine ⟨spread_built, faster_toTemperature, hedge ?_⟩
  cases available_faster.1.symm.trans hb
  cases available_faster.2.symm.trans hb'
  decide

/-- Of an energy and its temperature either one may be the one that matches. -/
theorem available_units_differ :
    spread.Built ∧
    (faster.toTemperature = .ok fasterKelvin ∧
      spread.available (.text "ACE" .shared) (.int 0 .shared) (.energy faster .shared) = .ok false ∧
      spread.available (.text "ACE" .shared) (.int 0 .shared) (.temperature fasterKelvin .shared) =
        .ok true) ∧
    (slower.toTemperature = .ok slowerKelvin ∧
      spread.available (.text "ACE" .shared) (.int 0 .shared) (.energy slower .shared) = .ok true ∧
      spread.available (.text "ACE" .shared) (.int 0 .shared) (.temperature slowerKelvin .shared) =
        .ok false) := by
  refine ⟨spread_built, ⟨faster_toTemperature, available_faster⟩, slower_toTemperature, ?_⟩
  constructor <;> with_unfolding_all rfl

end TemperatureMap

end ScatteringData
