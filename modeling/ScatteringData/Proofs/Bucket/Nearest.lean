import Mathlib
import ScatteringData.Proofs.Bucket.Tolerance

/-!
# The nearest energy

The search for the nearest energy takes the first of the least distances, as they come out of the
subtraction of doubles. An energy that matches is at a smaller distance than one that does not.
-/

namespace ScatteringData

open Double

namespace Grid

theorem exists_least? {ds : List Float} (h : ds ≠ []) :
    ∃ i d, least? ds = some (i, d) ∧ i < ds.length := by
  induction ds with
  | nil => exact absurd rfl h
  | cons d ds ih =>
    unfold least?
    cases ds with
    | nil => exact ⟨0, d, rfl, Nat.zero_lt_one⟩
    | cons b ds =>
      obtain ⟨i, best, hleast, hi⟩ := ih (List.cons_ne_nil b ds)
      rw [hleast]
      dsimp only
      split
      · exact ⟨0, d, rfl, Nat.zero_lt_succ _⟩
      · exact ⟨i + 1, best, rfl, Nat.succ_lt_succ hi⟩

theorem least?_spec {ds : List Float} (hds : ∀ d ∈ ds, d.isFinite = true) {i : Nat} {d : Float}
    (h : least? ds = some (i, d)) :
    ∃ l₁ l₂, ds = l₁ ++ d :: l₂ ∧ l₁.length = i ∧ (∀ c ∈ l₁, value d < value c) ∧
      ∀ c ∈ l₂, value d ≤ value c := by
  induction ds generalizing i d with
  | nil => cases h
  | cons a ds ih =>
    have ha : a.isFinite = true := hds a (by simp)
    have hds' : ∀ d ∈ ds, d.isFinite = true := fun d hd => hds d (by simp [hd])
    unfold least? at h
    cases hrest : least? ds with
    | none =>
      cases ds with
      | nil =>
        rw [hrest] at h
        cases h
        exact ⟨[], [], rfl, rfl, by simp, by simp⟩
      | cons b ds =>
        obtain ⟨j, best, hbest, -⟩ := exists_least? (List.cons_ne_nil b ds)
        simp [hrest] at hbest
    | some found =>
      obtain ⟨j, best⟩ := found
      obtain ⟨l₁, l₂, hsplit, hlength, hbefore, hafter⟩ := ih hds' hrest
      have hbest : best.isFinite = true := hds' best (by simp [hsplit])
      simp only [hrest, isNaN_of_isFinite ha, isNaN_of_isFinite hbest, Bool.false_or, Bool.not_false, Bool.true_and,
        decide_eq_true_eq] at h
      -- the least distance of the tail is known, and the first one wins if it is equal
      by_cases hle : a ≤ best
      · simp only [hle, if_true, Option.some.injEq, Prod.mk.injEq] at h
        obtain ⟨rfl, rfl⟩ := h
        rw [le_iff_value ha hbest] at hle
        refine ⟨[], ds, rfl, rfl, by simp, ?_⟩
        intro c hc
        rw [hsplit] at hc
        rcases List.mem_append.mp hc with hc | hc
        · exact hle.trans (hbefore c hc).le
        · rcases List.mem_cons.mp hc with rfl | hc
          · exact hle
          · exact hle.trans (hafter c hc)
      · simp only [hle, if_false, Option.some.injEq, Prod.mk.injEq] at h
        obtain ⟨rfl, rfl⟩ := h
        rw [le_iff_value ha hbest, not_le] at hle
        refine ⟨a :: l₁, l₂, by rw [hsplit]; rfl, by simp [hlength], ?_, hafter⟩
        intro c hc
        rcases List.mem_cons.mp hc with rfl | hc
        · exact hle
        · exact hbefore c hc

/-- The search ends at an energy that is nearer than all before it, as distances are computed, and that
none after it is nearer than. -/
theorem exists_nearest? {gs : List Float} {q : Float} (hgs : ∀ g ∈ gs, isMagnitude g = true)
    (hne : gs ≠ []) (hq : isMagnitude q = true) :
    ∃ lower g upper, gs = lower ++ g :: upper ∧ nearest? gs q = some lower.length ∧
      (∀ c ∈ lower, value (distance g q) < value (distance c q)) ∧
      ∀ c ∈ upper, value (distance g q) ≤ value (distance c q) := by
  have hfinite : ∀ d ∈ gs.map (distance · q), d.isFinite = true := by
    intro d hd
    obtain ⟨g, hg, rfl⟩ := List.mem_map.mp hd
    exact isFinite_distance (hgs g hg) hq
  obtain ⟨i, d, hleast, -⟩ := exists_least? (mt List.map_eq_nil_iff.mp hne)
  obtain ⟨l₁, l₂, hsplit, hlength, hbefore, hafter⟩ := least?_spec hfinite hleast
  -- the distances split where the energies do
  obtain ⟨lower, rest, rfl, rfl, hrest⟩ := List.map_eq_append_iff.mp hsplit
  obtain ⟨g, upper, rfl, rfl, rfl⟩ := List.map_eq_cons_iff.mp hrest
  rw [List.length_map] at hlength
  refine ⟨lower, g, upper, rfl, ?_, fun c hc => hbefore _ (List.mem_map_of_mem hc),
    fun c hc => hafter _ (List.mem_map_of_mem hc)⟩
  rw [nearest?, hleast, hlength]
  rfl

end Grid

namespace Bucket

variable {es : List (Energy × RecordRef)} {query : Float}

def gap (query : Float) (x : Energy × RecordRef) : ℚ := value (Grid.distance x.1.mev query)

theorem isHit_iff_gap (hq : isMagnitude query = true) (x : Energy × RecordRef) :
    isHit query x = true ↔ gap query x ≤ value (matchTolerance * query.abs) :=
  Grid.isMatch_iff_distance x.1.admissible hq

theorem lt_distance_iff (hq : isMagnitude query = true) (x y : Energy × RecordRef) :
    Grid.distance x.1.mev query < Grid.distance y.1.mev query ↔ gap query x < gap query y :=
  lt_iff_value (Grid.isFinite_distance x.1.admissible hq) (Grid.isFinite_distance y.1.admissible hq)

theorem isHit_of_gap_le (hq : isMagnitude query = true) {x y : Energy × RecordRef}
    (hx : isHit query x = true) (hle : gap query y ≤ gap query x) : isHit query y = true := by
  rw [isHit_iff_gap hq] at hx ⊢
  exact hle.trans hx

/-- An entry is the nearest one: every smaller energy is farther away, and no greater one is nearer. -/
structure IsNearest (es : List (Energy × RecordRef)) (query : Float) (x : Energy × RecordRef) :
    Prop where
  mem : x ∈ es
  before : ∀ y ∈ es, y.1.value < x.1.value → gap query x < gap query y
  least : ∀ y ∈ es, gap query x ≤ gap query y

theorem exists_first_least (hne : es ≠ []) (hq : isMagnitude query = true) :
    ∃ lower x upper, es = lower ++ x :: upper ∧ (graded es).resolve? query false = .ok (some x) ∧
      (∀ y ∈ lower, gap query x < gap query y) ∧ ∀ y ∈ upper, gap query x ≤ gap query y := by
  have hadmissible : ∀ g ∈ grid es, isMagnitude g = true := by
    intro g hg
    obtain ⟨x, -, rfl⟩ := List.mem_map.mp hg
    exact x.1.admissible
  obtain ⟨lower, g, upper, hsplit, hnearest, hbefore, hafter⟩ :=
    Grid.exists_nearest? hadmissible (mt List.map_eq_nil_iff.mp hne) hq
  obtain ⟨xs, ys, rfl, rfl, hys⟩ := List.map_eq_append_iff.mp hsplit
  obtain ⟨x, zs, rfl, rfl, rfl⟩ := List.map_eq_cons_iff.mp hys
  rw [List.length_map] at hnearest
  refine ⟨xs, x, zs, rfl, ?_, fun y hy => ?_, fun y hy => ?_⟩
  · simp [resolve?, Grid.find?, hnearest]
  · exact hbefore _ (List.mem_map.mpr ⟨y, hy, rfl⟩)
  · exact hafter _ (List.mem_map.mpr ⟨y, hy, rfl⟩)

theorem Ascending.exists_nearest (h : Ascending es) (hne : es ≠ []) (hq : isMagnitude query = true) :
    ∃ x, (graded es).resolve? query false = .ok (some x) ∧ IsNearest es query x := by
  obtain ⟨lower, x, upper, rfl, hfound, hbefore, hafter⟩ := exists_first_least hne hq
  obtain ⟨-, hupper, -⟩ := List.pairwise_append.mp h
  have hgreater := (List.pairwise_cons.mp hupper).1
  refine ⟨x, hfound, by simp, fun y hy hlt => ?_, fun y hy => ?_⟩
  · rcases List.mem_append.mp hy with hy | hy
    · exact hbefore y hy
    · rcases List.mem_cons.mp hy with rfl | hy
      · exact absurd hlt (lt_irrefl _)
      · exact absurd (hgreater y hy) hlt.asymm
  · rcases List.mem_append.mp hy with hy | hy
    · exact (hbefore y hy).le
    · rcases List.mem_cons.mp hy with rfl | hy
      · exact le_refl _
      · exact hafter y hy

/-- Where an entry matches, the nearest one does. It is the first match if and only if none is nearer. -/
theorem IsNearest.of_match {x y : Energy × RecordRef} (h : IsNearest es query y)
    (hasc : Ascending es) (hq : isMagnitude query = true) (hx : es.find? (isHit query) = some x) :
    isHit query y = true ∧ x.1.value ≤ y.1.value ∧
      (y = x ↔ ∀ z ∈ es, gap query x ≤ gap query z) := by
  obtain ⟨hmem, hit, hfirst⟩ := (hasc.find?_eq_some_iff _ x).mp hx
  have hity := isHit_of_gap_le hq hit (h.least x hmem)
  have hle : x.1.value ≤ y.1.value := by
    rw [← not_lt]
    intro hlt
    simp [hfirst y h.mem hlt] at hity
  refine ⟨hity, hle, ?_⟩
  constructor
  · intro heq
    rw [← heq]
    exact h.least
  · intro hleast
    apply hasc.eq_of_value_eq h.mem hmem
    apply le_antisymm _ hle
    rw [← not_lt]
    intro hlt
    exact absurd (h.before x hmem hlt) (not_lt.mpr (hleast y h.mem))

end Bucket

end ScatteringData
