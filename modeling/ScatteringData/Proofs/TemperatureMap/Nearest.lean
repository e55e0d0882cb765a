import Mathlib
import ScatteringData.Proofs.TemperatureMap.Exact

/-!
# Exact and nearest look-ups

An exact look-up ends at the first listed energy that matches, the other one at the nearest energy.
Where several listed energies match, they can be two different ones.
-/

namespace ScatteringData

namespace TemperatureMap

variable {records : RecordRef → Record} {m : TemperatureMap} {fileType version : Value}

theorem keys_of_get {category : String} {b : Bucket}
    (h : m.shelves.get category fileType version = .ok b) :
    ∃ k₁ k₂, fileType.key? = some k₁ ∧ version.key? = some k₂ := by
  have hbucket : ∃ b, m.bucket fileType version = .ok b := by
    unfold Shelves.get at h
    obtain ⟨found, hfound, h⟩ := except_bind_eq_ok.mp h
    cases found with
    | none => cases h
    | some shelf =>
      obtain ⟨found, hversion, h⟩ := except_bind_eq_ok.mp h
      unfold bucket
      simp [hfound, hversion, bind, Except.bind, pure, Except.pure]
  obtain ⟨b, hb⟩ := hbucket
  exact keys_of_bucket hb

theorem Sound.eq_of_record (h : m.Sound (Belongs records)) {k₁ k₂ : Key}
    {x y : Energy × RecordRef} (hx : x ∈ m.entriesAt k₁ k₂) (hy : y ∈ m.entriesAt k₁ k₂)
    (heq : x.2 = y.2) : x = y := by
  obtain ⟨d, hd, hv⟩ := (h.belongs hy).energy
  rw [← heq] at hd
  exact h.eq_of_energy hy hx hd hv

/-- When an exact look-up finds a record, that is the one of the least listed energy that matches the
query. The other look-up then finds one of a listed energy that matches, too: the nearest one, the least
of those equally near. Both find the same record if and only if no listed energy is nearer than the one
that the exact look-up ended at. -/
theorem exact_hit (hm : m.Reachable records) {t : Value} {query : Float}
    (ht : t.toMev = .ok query) {r : RecordRef}
    (hr : (m.get fileType version t true).result = .ok r) :
    ∃ es, m.energies fileType version = .ok es ∧ ∃ d ∈ es, ∃ e ∈ es, ∃ q,
      (∃ d', (records r).energy? = some d' ∧ d'.value = d.value) ∧
      Grid.isMatch d.mev query = true ∧
      (∀ c ∈ es, c.value < d.value → Grid.isMatch c.mev query = false) ∧
      (m.get fileType version t false).result = .ok q ∧
      (∃ e', (records q).energy? = some e' ∧ e'.value = e.value) ∧
      Grid.isMatch e.mev query = true ∧ d.value ≤ e.value ∧
      (∀ c ∈ es, ¬ Grid.distance c.mev query < Grid.distance e.mev query) ∧
      (∀ c ∈ es, c.value < e.value → Grid.distance e.mev query < Grid.distance c.mev query) ∧
      (q = r ↔ ∀ c ∈ es, ¬ Grid.distance c.mev query < Grid.distance d.mev query) := by
  have h := hm.sound
  have hq := Value.isMagnitude_of_toMev ht
  have hget := hr
  unfold TemperatureMap.get at hget
  rw [Outcome.bind_result, Outcome.lift_result] at hget
  obtain ⟨b, hb, -⟩ := except_bind_eq_ok.mp hget
  obtain ⟨k₁, k₂, h₁, h₂⟩ := keys_of_get hb
  have hne : m.entriesAt k₁ k₂ ≠ [] := by
    intro hnil
    rw [get_absent h h₁ h₂ hnil] at hr
    cases hr
  have hasc := h.ascending k₁ k₂
  rw [get_exact_result h h₁ h₂ hne ht] at hr
  cases hfind : (m.entriesAt k₁ k₂).find? (Bucket.isHit query) with
  | none =>
    rw [hfind] at hr
    cases hr
  | some x =>
    rw [hfind] at hr
    cases hr
    obtain ⟨hx, hit, hfirst⟩ := (hasc.find?_eq_some_iff _ x).mp hfind
    -- the same entries are searched once more, now for the nearest energy
    obtain ⟨y, hy, hnear⟩ := get_nearest_result h h₁ h₂ hne ht
    obtain ⟨hity, hle, hiff⟩ := hy.of_match hasc hq hfind
    refine ⟨_, energies_eq h h₁ h₂, x.1, List.mem_map.mpr ⟨x, hx, rfl⟩, y.1,
      List.mem_map.mpr ⟨y, hy.mem, rfl⟩, y.2, (h.belongs hx).energy, hit, ?_, hnear,
      (h.belongs hy.mem).energy, hity, hle, ?_, ?_, ?_⟩
    · rw [List.forall_mem_map]
      exact hfirst
    · rw [List.forall_mem_map]
      intro z hz
      rw [Bucket.lt_distance_iff hq, not_lt]
      exact hy.least z hz
    · rw [List.forall_mem_map]
      intro z hz hlt
      rw [Bucket.lt_distance_iff hq]
      exact hy.before z hz hlt
    · rw [List.forall_mem_map]
      simp only [Bucket.lt_distance_iff hq, not_lt]
      rw [← hiff]
      constructor
      · exact h.eq_of_record hy.mem hx
      · intro heq
        rw [heq]

/-! ## Two listed energies that match one query -/

theorem exact_hit_crowded :
    crowded.Reachable crowd ∧
    (Value.energy high .shared).toMev = .ok high.mev ∧
    (crowded.get (.text "ACE" .shared) (.int 0 .shared) (.energy high .shared) true).result =
      .ok ⟨2⟩ ∧
    ∃ es, crowded.energies (.text "ACE" .shared) (.int 0 .shared) = .ok es ∧ ∃ d ∈ es, ∃ q,
      (crowded.get (.text "ACE" .shared) (.int 0 .shared) (.energy high .shared) false).result =
        .ok q ∧
      (q = ⟨2⟩ ↔ ∀ c ∈ es, ¬ Grid.distance c.mev high.mev < Grid.distance d.mev high.mev) := by
  have hget : (crowded.get (.text "ACE" .shared) (.int 0 .shared) (.energy high .shared) true).result =
      .ok ⟨2⟩ := by
    with_unfolding_all rfl
  obtain ⟨es, hes, d, hd, e, he, q, -, -, -, hq, -, -, -, -, -, hiff⟩ :=
    exact_hit crowded_reachable (t := .energy high .shared) rfl hget
  exact ⟨crowded_reachable, rfl, hget, es, hes, d, hd, q, hq, hiff⟩

def far : Energy := ⟨1.0000000000018, by decide +kernel⟩

def apart (r : RecordRef) : Record := .hydrogen 0 ([middle].getD r.index far)

def straddling : TemperatureMap := setAll apart (empty "nuclear") [⟨0⟩, ⟨1⟩]

theorem straddling_reachable : straddling.Reachable apart :=
  .set (.set (.empty _) (Record.hydrogen_isGraded 0 _)) (Record.hydrogen_isGraded 0 _)

/-- An exact look-up of a listed energy finds the record of a smaller one, and the other look-up that of
the energy itself. A query between two energies finds the one or the other. -/
theorem exact_hit_not_nearest :
    crowded.Reachable crowd ∧
    crowded.energies (.text "ACE" .shared) (.int 0 .shared) = .ok [middle, high] ∧
    (crowded.get (.text "ACE" .shared) (.int 0 .shared) (.energy high .shared) true).result =
      .ok ⟨2⟩ ∧
    (crowded.get (.text "ACE" .shared) (.int 0 .shared) (.energy high .shared) false).result =
      .ok ⟨1⟩ ∧
    straddling.Reachable apart ∧
    straddling.energies (.text "ACE" .shared) (.int 0 .shared) = .ok [middle, far] ∧
    (straddling.get (.text "ACE" .shared) (.int 0 .shared) (.energy top .shared) true).result =
      .ok ⟨0⟩ ∧
    (straddling.get (.text "ACE" .shared) (.int 0 .shared) (.energy top .shared) false).result =
      .ok ⟨1⟩ := by
  refine ⟨crowded_reachable, crowded_energies, ?_, ?_, straddling_reachable, ?_, ?_, ?_⟩
  all_goals with_unfolding_all rfl

end TemperatureMap

end ScatteringData
