import Mathlib
import ScatteringData.Proofs.Grid.Nearest

/-!
# The places that the searches find

An exact search ends at the first energy that matches the query. A search for the nearest energy ends at
the first of the least distances, as they are computed. A computed distance is zero for equal energies
only, so that an energy which equals the query is the nearest one.
-/

namespace ScatteringData

open Double

namespace Grid

/-- A stored energy is within the tolerance around the query, in rounded numbers, or equals it. -/
def Matches (stored query : Float) : Prop :=
  distance stored query ≤ matchTolerance * query.abs ∨ (stored == query) = true

theorem isMatch_iff_matches {g q : Float} (hq : q.isFinite = true) :
    isMatch g q = true ↔ Matches g q := by
  rw [isMatch, hq, Bool.and_true, Bool.or_eq_true, decide_eq_true_iff]
  rfl

theorem value_distance_eq_zero_iff {g q : Float} (hg : isMagnitude g = true)
    (hq : isMagnitude q = true) : value (distance g q) = 0 ↔ value g = value q := by
  have happart : apart g q = 0 ↔ value g = value q := by rw [apart, abs_eq_zero, sub_eq_zero]
  rw [← happart]
  obtain ⟨hlow, hhigh⟩ := abs_le.mp (distance_close hg hq)
  have hpos : 0 ≤ apart g q := abs_nonneg _
  constructor <;> intro h <;> linarith

/-! ## The first match -/

section
variable {gs : List Float} {q : Float} (hq : q.isFinite = true)
include hq

theorem firstMatch?_eq_none_iff : firstMatch? gs q = none ↔ ∀ g ∈ gs, ¬ Matches g q := by
  simp only [firstMatch?, List.findIdx?_eq_none_iff, ← isMatch_iff_matches hq, Bool.not_eq_true]

theorem firstMatch?_eq_some_iff {i : ℕ} :
    firstMatch? gs q = some i ↔ IsLeast {i | ∃ g, gs[i]? = some g ∧ Matches g q} i := by
  rw [firstMatch?, List.findIdx?_eq_some_iff_getElem]
  constructor
  · rintro ⟨hi, hmatch, hbefore⟩
    refine ⟨⟨gs[i], List.getElem?_eq_getElem hi, (isMatch_iff_matches hq).mp hmatch⟩, ?_⟩
    rintro j ⟨g, hg, hgq⟩
    by_contra hlt
    obtain ⟨hj, rfl⟩ := List.getElem?_eq_some_iff.mp hg
    exact hbefore j (not_le.mp hlt) ((isMatch_iff_matches hq).mpr hgq)
  · rintro ⟨⟨g, hg, hgq⟩, hleast⟩
    obtain ⟨hi, rfl⟩ := List.getElem?_eq_some_iff.mp hg
    refine ⟨hi, (isMatch_iff_matches hq).mpr hgq, fun j hj hmatch => ?_⟩
    have hle := hleast ⟨gs[j], List.getElem?_eq_getElem (hj.trans hi), (isMatch_iff_matches hq).mp hmatch⟩
    exact absurd hj (not_lt.mpr hle)

end

/-! ## The first of the least distances -/

section
variable {gs : List Float} {q : Float} (h : IsGrid gs) (hq : isMagnitude q = true)
include h hq

theorem IsGrid.exists_place (hne : gs ≠ []) : ∃ i, ∃ hi : i < gs.length, nearest? gs q = some i ∧
    (∀ j (hj : j < i), distance gs[i] q < distance gs[j] q) ∧
    ∀ j (hj : j < gs.length), i < j → distance gs[i] q ≤ distance gs[j] q := by
  obtain ⟨lower, g, upper, rfl, hnearest, hbefore, hafter⟩ := exists_nearest? h.admissible hne hq
  have hfinite : ∀ c ∈ lower ++ g :: upper, (distance c q).isFinite = true := fun c hc =>
    isFinite_distance (h.admissible c hc) hq
  have hi : lower.length < (lower ++ g :: upper).length := by simp
  have hg : (lower ++ g :: upper)[lower.length] = g := by simp
  refine ⟨lower.length, hi, hnearest, fun j hj => ?_, fun j hj hlt => ?_⟩
  · rw [hg, lt_iff_value (hfinite g (by simp)) (hfinite _ (List.getElem_mem _)),
      List.getElem_append_left hj]
    exact hbefore _ (List.getElem_mem hj)
  · rw [hg, le_iff_value (hfinite g (by simp)) (hfinite _ (List.getElem_mem _)),
      List.getElem_append_right hlt.le]
    obtain ⟨k, hk⟩ := Nat.exists_eq_add_of_lt hlt
    simp only [hk, show lower.length + k + 1 - lower.length = k + 1 by omega, List.getElem_cons_succ]
    exact hafter _ (List.getElem_mem _)

/-- An energy that equals the query is found, as it is the only one at no distance. -/
theorem IsGrid.nearest?_of_eq {i : ℕ} (hi : i < gs.length) (heq : (gs[i] == q) = true) :
    nearest? gs q = some i := by
  obtain ⟨k, hk, hnearest, hbefore, hafter⟩ :=
    h.exists_place hq (List.ne_nil_of_length_pos (Nat.zero_lt_of_lt hi))
  have hadmissible : ∀ {j} (hj : j < gs.length), isMagnitude gs[j] = true := fun hj =>
    h.admissible _ (List.getElem_mem hj)
  have hfinite : ∀ {j} (hj : j < gs.length), (distance gs[j] q).isFinite = true := fun hj =>
    isFinite_distance (hadmissible hj) hq
  rw [beq_iff_value (isFinite_of_isMagnitude (hadmissible hi)) (isFinite_of_isMagnitude hq)] at heq
  have hzero := (value_distance_eq_zero_iff (hadmissible hi) hq).mpr heq
  have hpos : 0 ≤ value (distance gs[k] q) := by
    rw [value_distance (hadmissible hk) hq]
    exact abs_nonneg _
  rcases lt_trichotomy i k with hlt | rfl | hlt
  · have hfarther := (lt_iff_value (hfinite hk) (hfinite hi)).mp (hbefore i hlt)
    linarith
  · exact hnearest
  · have hleast := (le_iff_value (hfinite hk) (hfinite hi)).mp (hafter i hi hlt)
    have hsame := (value_distance_eq_zero_iff (hadmissible hk) hq).mp (by linarith)
    have hascending := List.pairwise_iff_getElem.mp h.ascending k i hk hi hlt
    linarith

end

/-! ## The search -/

/-- On a grid of doubles an exact search finds the first match, if there is one, and a search for the
nearest energy the first of the least distances, which is the query itself where it is stored. -/
theorem findValue?_places (gs : List (Float × Mark)) (m m' : Mark) (q : Float)
    (h : IsGrid (gs.map (·.1))) (hq : isMagnitude q = true) :
    (gs = [] → ∀ exact, findValue? (row gs m) (.float q m') (.bool exact) = .ok none) ∧
    (∃ found, findValue? (row gs m) (.float q m') (.bool true) = .ok found ∧
      (found = none ↔ ∀ g ∈ gs, ¬ Matches g.1 q) ∧
      ∀ i, found = some i ↔ IsLeast {i | ∃ g, gs[i]? = some g ∧ Matches g.1 q} i) ∧
    (gs ≠ [] → ∃ i, ∃ hi : i < gs.length,
      findValue? (row gs m) (.float q m') (.bool false) = .ok (some i) ∧
      (∀ j (hj : j < i), distance gs[i].1 q < distance gs[j].1 q) ∧
      ∀ j (hj : j < gs.length), i < j → distance gs[i].1 q ≤ distance gs[j].1 q) ∧
    ∀ i (hi : i < gs.length), (gs[i].1 == q) = true →
      findValue? (row gs m) (.float q m') (.bool false) = .ok (some i) := by
  have hqf := isFinite_of_isMagnitude hq
  have hexact : ∀ gs : List Float, find? gs q true = firstMatch? gs q := fun gs => if_pos rfl
  have hnearest : ∀ gs : List Float, find? gs q false = nearest? gs q := fun gs =>
    if_neg Bool.false_ne_true
  simp only [findValue?_floats, hexact, hnearest]
  refine ⟨?_, ⟨_, rfl, ?_, fun i => ?_⟩, fun hne => ?_, fun i hi heq => ?_⟩
  · rintro rfl exact
    cases exact <;> rfl
  · rw [firstMatch?_eq_none_iff hqf, List.forall_mem_map]
  · rw [firstMatch?_eq_some_iff hqf]
    simp [List.getElem?_map]
  · obtain ⟨i, hi, hfound, hbefore, hafter⟩ := h.exists_place hq (mt List.map_eq_nil_iff.mp hne)
    simp only [List.length_map, List.getElem_map] at hi hbefore hafter
    exact ⟨i, hi, congrArg Except.ok hfound, hbefore, hafter⟩
  · have hfound := h.nearest?_of_eq hq (i := i) (by rwa [List.length_map]) (by rwa [List.getElem_map])
    rw [hfound]

def faint : List (Float × Mark) := [(0.0, .shared), (5e-324, .shared), (1e-323, .shared)]

theorem isGrid_faint : IsGrid (faint.map (·.1)) := by
  constructor <;> decide +kernel

theorem findValue?_places_faint :
    (IsGrid (faint.map (·.1)) ∧ isMagnitude 5e-324 = true) ∧
    findValue? (row faint .shared) (.float 5e-324 .shared) (.bool false) = .ok (some 1) :=
  ⟨⟨isGrid_faint, by decide +kernel⟩,
    (findValue?_places faint .shared .shared 5e-324 isGrid_faint (by decide +kernel)).2.2.2 1
      (by decide) (by decide +kernel)⟩

end Grid

end ScatteringData
