import Mathlib
import ScatteringData.Proofs.TemperatureMap.Query

/-!
# Exact look-ups of stored temperatures

Matching within the tolerance is not transitive, so an energy that is listed can match a smaller one
that is listed, too. An exact look-up finds the record of a listed energy if and only if no such
energy stands before it.
-/

namespace ScatteringData

/-- Whether an energy is smaller than another one that it matches. -/
def Energy.shadows (d e : Energy) : Bool := d.mev < e.mev && Grid.isMatch d.mev e.mev

theorem Energy.shadows_iff (d e : Energy) :
    d.shadows e = true ↔ d.value < e.value ∧ Grid.isMatch d.mev e.mev = true := by
  rw [shadows, Bool.and_eq_true, decide_eq_true_iff, d.lt_iff]

namespace Bucket

variable {es : List (Energy × RecordRef)}

theorem Ascending.countP_eraseP (h : Ascending es) (e : Energy) :
    (es.eraseP (isHit e.mev)).countP (fun x => x.1.shadows e) =
      es.countP (fun x => x.1.shadows e) - 1 := by
  induction es with
  | nil => rfl
  | cons a es ih =>
    obtain ⟨ha, htail⟩ := List.pairwise_cons.mp h
    by_cases hit : isHit e.mev a = true
    · rw [List.eraseP_cons_of_pos hit, List.countP_cons]
      by_cases hlt : a.1.mev < e.mev
      · have hshadow : a.1.shadows e = true := by
          unfold isHit at hit
          simp only [Energy.shadows, hlt, hit, decide_true, Bool.and_self]
        rw [if_pos hshadow, Nat.add_sub_cancel]
      · have hnone : (a :: es).countP (fun x => x.1.shadows e) = 0 := by
          refine List.countP_eq_zero.mpr fun x hx hshadow => ?_
          unfold Energy.shadows at hshadow
          simp only [Bool.and_eq_true, decide_eq_true_eq, x.1.lt_iff] at hshadow
          rw [a.1.lt_iff] at hlt
          rcases List.mem_cons.mp hx with rfl | hx
          · exact hlt hshadow.1
          · exact hlt ((ha x hx).trans hshadow.1)
        rw [List.countP_cons] at hnone
        omega
    · have hshadow : a.1.shadows e = false := by
        unfold isHit at hit
        simp only [Energy.shadows, hit, Bool.and_false]
      rw [List.eraseP_cons_of_neg hit, List.countP_cons, List.countP_cons, ih htail, hshadow]
      simp

end Bucket

namespace TemperatureMap

variable {records : RecordRef → Record} {m : TemperatureMap} {fileType version : Value} {k₁ k₂ : Key}

/-! ## Listed energies -/

theorem any_isHit {es : List (Energy × RecordRef)} {x : Energy × RecordRef} (hx : x ∈ es) :
    es.any (Bucket.isHit x.1.mev) = true :=
  List.any_eq_true.mpr ⟨x, hx, Grid.isMatch_of_value_eq rfl⟩

/-- The entry that an exact look-up finds is the one of the queried energy if and only if no entry
shadows that energy. -/
theorem found_iff {es : List (Energy × RecordRef)} (h : Bucket.Ascending es)
    {x y : Energy × RecordRef} (hx : x ∈ es) {e : Energy} (he : x.1.value = e.value)
    (hy : es.find? (Bucket.isHit e.mev) = some y) :
    y = x ↔ ∀ z ∈ es, z.1.shadows e = false := by
  obtain ⟨hmem, hit, hfirst⟩ := (h.find?_eq_some_iff _ y).mp hy
  constructor
  · rintro rfl z hz
    unfold Energy.shadows
    by_cases hlt : z.1.mev < e.mev
    · rw [z.1.lt_iff, ← he] at hlt
      rw [show Grid.isMatch z.1.mev e.mev = false from hfirst z hz hlt, Bool.and_false]
    · simp only [hlt, decide_false, Bool.false_and]
  · intro hnone
    refine h.eq_of_value_eq hmem hx ?_
    have hle : ¬ y.1.value < e.value := by
      intro hlt
      have hshadow := hnone y hmem
      rw [← y.1.lt_iff] at hlt
      unfold Bucket.isHit at hit
      simp only [Energy.shadows, hlt, hit, decide_true, Bool.and_self] at hshadow
      cases hshadow
    have hge : ¬ x.1.value < y.1.value := by
      intro hlt
      have hmiss := hfirst x hx hlt
      rw [show Bucket.isHit e.mev x = true from Grid.isMatch_of_value_eq he] at hmiss
      cases hmiss
    exact le_antisymm (not_lt.mp hge) (he ▸ not_lt.mp hle)

theorem shadows_lt {d e : Energy} (h : d.shadows e = true) : d.value < e.value :=
  ((d.shadows_iff e).mp h).1

section
variable (h : m.Sound (Belongs records)) (h₁ : fileType.key? = some k₁) (h₂ : version.key? = some k₂)
include h h₁ h₂

theorem Sound.get_stored {x : Energy × RecordRef} (hx : x ∈ m.entriesAt k₁ k₂) {e : Energy}
    (he : x.1.value = e.value) {t : Value} (ht : t.toMev = .ok e.mev) :
    ∃ y ∈ m.entriesAt k₁ k₂, (m.get fileType version t true).result = .ok y.2 ∧
      (y = x ↔ ∀ z ∈ m.entriesAt k₁ k₂, z.1.shadows e = false) := by
  have hit : Bucket.isHit e.mev x = true := Grid.isMatch_of_value_eq he
  obtain ⟨y, hy⟩ := Option.isSome_iff_exists.mp (List.find?_isSome.mpr ⟨x, hx, hit⟩)
  refine ⟨y, List.mem_of_find?_eq_some hy, ?_, found_iff (h.ascending k₁ k₂) hx he hy⟩
  rw [get_exact_result h h₁ h₂ (List.ne_nil_of_mem hx) ht, hy]

end

theorem Sound.eq_of_energy (h : m.Sound (Belongs records)) {x y : Energy × RecordRef}
    (hx : x ∈ m.entriesAt k₁ k₂) (hy : y ∈ m.entriesAt k₁ k₂) {d : Energy}
    (hd : (records y.2).energy? = some d) (hv : d.value = x.1.value) : y = x := by
  obtain ⟨d', hd', hv'⟩ := (h.belongs hy).energy
  rw [hd] at hd'
  cases hd'
  exact (h.ascending k₁ k₂).eq_of_value_eq hy hx (hv'.symm.trans hv)

/-! ## The energy of the record that was set last -/

/-- Setting a record removes one entry that shadows its energy, where there is one. -/
theorem entered_shadowless_iff {es : List (Energy × RecordRef)} (h : Bucket.Ascending es)
    (e : Energy) (r : RecordRef) :
    (∀ z ∈ entered es e r, z.1.shadows e = false) ↔ es.countP (fun x => x.1.shadows e) ≤ 1 := by
  have hrest : Bucket.Ascending (es.eraseP (Bucket.isHit e.mev)) := List.Pairwise.eraseP _ h
  obtain ⟨d, hd, -, hmem⟩ := Bucket.exists_mem_insert hrest e r
  have hcount := h.countP_eraseP e
  have hzero : (∀ z ∈ entered es e r, z.1.shadows e = false) ↔
      (es.eraseP (Bucket.isHit e.mev)).countP (fun x => x.1.shadows e) = 0 := by
    rw [List.countP_eq_zero]
    constructor
    · intro hnone z hz hshadow
      rw [hnone z ((hmem z).mpr (Or.inr ⟨hz, (shadows_lt hshadow).ne⟩))] at hshadow
      cases hshadow
    · intro hnone z hz
      rw [← Bool.not_eq_true]
      intro hshadow
      rcases (hmem z).mp hz with rfl | ⟨hz, -⟩
      · exact absurd (shadows_lt hshadow) hd.not_lt
      · exact hnone z hz hshadow
  rw [hzero, hcount]
  omega

/-- A record that was set is found under its own keys if and only if at most one of the energies
that were listed before shadows its energy. -/
theorem Sound.get_set (h : m.Sound (Belongs records)) {r : RecordRef} (hr : (records r).IsGraded) :
    ∃ e es, (records r).energy? = some e ∧
      m.energies (records r).fileType (records r).fileVersion = .ok es ∧
      ∀ t : Value, t.toMev = .ok e.mev →
        (((m.set r (records r)).1.get (records r).fileType (records r).fileVersion t true).result =
          .ok r ↔ es.countP (fun d => d.shadows e) ≤ 1) := by
  obtain ⟨l₁, l₂, e, hl₁, hl₂, he, heq⟩ := h.set_eq r hr
  have h₁ : (records r).fileType.key? = some l₁.key := hl₁ ▸ l₁.key_shown
  have h₂ : (records r).fileVersion.key? = some l₂.key := hl₂ ▸ l₂.key_shown
  have hnew := h.set hr
  have hentries : (m.set r (records r)).1.entriesAt l₁.key l₂.key =
      entered (m.entriesAt l₁.key l₂.key) e r := by
    rw [heq, entriesAt_enter, if_pos ⟨rfl, rfl⟩]
  have hasc := h.ascending l₁.key l₂.key
  obtain ⟨d, hd, -, hmem⟩ := Bucket.exists_mem_insert (List.Pairwise.eraseP _ hasc) e r
  have hx : (d, r) ∈ (m.set r (records r)).1.entriesAt l₁.key l₂.key := by
    rw [hentries]
    exact (hmem (d, r)).mpr (Or.inl rfl)
  refine ⟨e, _, he, energies_eq h h₁ h₂, fun t ht => ?_⟩
  obtain ⟨y, hy, hget, hiff⟩ := hnew.get_stored h₁ h₂ hx hd ht
  rw [hentries, entered_shadowless_iff hasc] at hiff
  rw [List.countP_map, hget]
  refine Iff.trans ?_ hiff
  constructor
  · intro hyr
    cases hyr
    exact hnew.eq_of_energy hx hy he hd.symm
  · rintro rfl
    rfl

/-! ## All look-ups -/

/-- In a map that records were set in, a listed energy is available, and an exact look-up of it finds
a record; one of that energy if and only if no listed energy shadows it. Right after a record was
set, it is the one found if and only if at most one energy listed before shadows its own. -/
theorem exact_lookup (hm : m.Reachable records) :
    (∀ fileType version es, m.energies fileType version = .ok es → ∀ e ∈ es,
      ∀ t : Value, t.toMev = .ok e.mev →
        m.available fileType version t = .ok true ∧
        ∃ r, (m.get fileType version t true).result = .ok r ∧
          ((∃ d, (records r).energy? = some d ∧ d.value = e.value) ↔
            ∀ d ∈ es, d.shadows e = false)) ∧
    (∀ r, (records r).IsGraded → ∃ e es, (records r).energy? = some e ∧
      m.energies (records r).fileType (records r).fileVersion = .ok es ∧
      ∀ t : Value, t.toMev = .ok e.mev →
        (((m.set r (records r)).1.get (records r).fileType (records r).fileVersion t true).result =
          .ok r ↔ es.countP (fun d => d.shadows e) ≤ 1)) := by
  have h := hm.sound
  refine ⟨fun fileType version es hes e he t ht => ?_, fun r hr => h.get_set hr⟩
  obtain ⟨b, hb, -⟩ := except_bind_eq_ok.mp hes
  obtain ⟨k₁, k₂, h₁, h₂⟩ := keys_of_bucket hb
  rw [energies_eq h h₁ h₂] at hes
  cases hes
  obtain ⟨x, hx, rfl⟩ := List.mem_map.mp he
  obtain ⟨y, hy, hget, hiff⟩ := h.get_stored h₁ h₂ hx rfl ht
  refine ⟨?_, y.2, hget, ?_⟩
  · obtain ⟨hk₁, hk₂⟩ := h.not_null hx
    rw [available_eq h h₁ h₂ hk₁ hk₂ ht, any_isHit hx]
  · rw [List.forall_mem_map, ← hiff]
    constructor
    · rintro ⟨d, hd, hv⟩
      exact h.eq_of_energy hx hy hd hv
    · rintro rfl
      exact (h.belongs hy).energy

/-! ## Three records of one bucket -/

def low : Energy := ⟨0.9999999999991, by decide +kernel⟩

def middle : Energy := ⟨1.0, Double.isMagnitude_one⟩

def high : Energy := ⟨1.0000000000009, by decide +kernel⟩

def top : Energy := ⟨1.00000000000095, by decide +kernel⟩

def crowd (r : RecordRef) : Record := .hydrogen 0 ([low, high, middle].getD r.index top)

theorem crowd_isGraded (r : RecordRef) : (crowd r).IsGraded := Record.hydrogen_isGraded 0 _

def crowded : TemperatureMap := setAll crowd (empty "nuclear") [⟨0⟩, ⟨1⟩, ⟨2⟩]

theorem crowded_reachable : crowded.Reachable crowd :=
  .set (.set (.set (.empty _) (crowd_isGraded ⟨0⟩)) (crowd_isGraded ⟨1⟩)) (crowd_isGraded ⟨2⟩)

theorem crowded_energies : crowded.energies (.text "ACE" .shared) (.int 0 .shared) =
    .ok [middle, high] := by
  with_unfolding_all rfl

theorem exact_lookup_crowded :
    crowded.Reachable crowd ∧
    crowded.energies (.text "ACE" .shared) (.int 0 .shared) = .ok [middle, high] ∧
    high ∈ [middle, high] ∧
    crowded.available (.text "ACE" .shared) (.int 0 .shared) (.energy high .shared) = .ok true ∧
    ∃ r, (crowded.get (.text "ACE" .shared) (.int 0 .shared) (.energy high .shared) true).result =
        .ok r ∧
      ((∃ d, (crowd r).energy? = some d ∧ d.value = high.value) ↔
        ∀ d ∈ [middle, high], d.shadows high = false) := by
  have hmem : high ∈ [middle, high] := List.mem_cons_of_mem _ (List.mem_singleton_self _)
  refine ⟨crowded_reachable, crowded_energies, hmem, ?_⟩
  exact (exact_lookup crowded_reachable).1 _ _ _ crowded_energies high hmem _ rfl

/-- The higher one of two listed energies is looked up, and the record of the lower one is found.
After another record was set, a look-up of its own keys finds an older one. -/
theorem exact_lookup_shadowed :
    crowded.Reachable crowd ∧
    crowded.energies (.text "ACE" .shared) (.int 0 .shared) = .ok [middle, high] ∧
    (crowded.get (.text "ACE" .shared) (.int 0 .shared) (.energy high .shared) true).result =
      .ok ⟨2⟩ ∧
    (crowd ⟨2⟩).energy? = some middle ∧ middle.value ≠ high.value ∧
    (crowd ⟨3⟩).IsGraded ∧ (crowd ⟨3⟩).energy? = some top ∧
    ((crowded.set ⟨3⟩ (crowd ⟨3⟩)).1.get (.text "ACE" .shared) (.int 0 .shared)
      (.energy top .shared) true).result = .ok ⟨1⟩ := by
  refine ⟨crowded_reachable, crowded_energies, ?_, rfl, ?_, crowd_isGraded ⟨3⟩, rfl, ?_⟩
  · with_unfolding_all rfl
  · have hlt : middle.mev < high.mev := by decide +kernel
    exact ((middle.lt_iff high).mp hlt).ne
  · with_unfolding_all rfl

end TemperatureMap

end ScatteringData
