import Mathlib
import ScatteringData.Proofs.Table
import ScatteringData.Proofs.Bucket.Ascending
import ScatteringData.RecordMap

/-!
# Records that are set

A map that takes a record keeps it, whatever keys it has and whatever it replaces.
-/

namespace ScatteringData

variable {ref : RecordRef} {r : Record}

theorem Bucket.mem_map_insert (e : Energy) (ref : RecordRef) (es : List (Energy × RecordRef)) :
    ref ∈ (Bucket.insert e ref es).map (·.2) := by
  obtain ⟨d, -, hmem⟩ := Bucket.exists_value_mem_insert e ref es
  exact List.mem_map_of_mem hmem

theorem Bucket.mem_records_set {b b' : Bucket} {g : Grade} {replaced : Bool}
    (h : b.set g ref = .ok (b', replaced)) : ref ∈ b'.records := by
  cases b with
  | lone text q => cases h
  | graded es =>
    cases g with
    | energy e =>
      rw [Bucket.set_energy] at h
      cases h
      exact Bucket.mem_map_insert e ref _
    | text t =>
      cases es with
      | nil =>
        cases h
        exact List.mem_singleton_self ref
      | cons x es => cases h

theorem VersionedMap.mem_records_set {m : VersionedMap} (h : (m.set ref r).2.result = .ok ()) :
    ref ∈ (m.set ref r).1.records := by
  unfold VersionedMap.set at h ⊢
  split at h
  · cases h
  · split at h
    · cases h
    · exact List.mem_flatMap.mpr ⟨_, Table.mem_contents_put .., Table.mem_contents_put ..⟩

theorem TemperatureMap.mem_records_set {m : TemperatureMap} (h : (m.set ref r).2.result = .ok ()) :
    ref ∈ (m.set ref r).1.records := by
  unfold TemperatureMap.set at h ⊢
  split at h
  · cases h
  · split at h
    · cases h
    · split at h
      · cases h
      · dsimp only at h ⊢
        split at h
        · cases h
        · rename_i b replaced hb
          have hbucket := Bucket.mem_records_set hb
          refine List.mem_flatMap.mpr ⟨b, ?_, hbucket⟩
          exact List.mem_flatMap.mpr ⟨_, Table.mem_contents_put .., Table.mem_contents_put ..⟩

theorem NamedMap.mem_records_set {m : NamedMap} (h : (m.set ref r).2.result = .ok ()) :
    ref ∈ (m.set ref r).1.records := by
  rcases m.set_cases ref r with ⟨f, heq⟩ | ⟨name, l, x, -, -, -, heq⟩
  · rw [heq] at h
    cases h
  · rw [heq] at h ⊢
    exact List.mem_flatMap.mpr ⟨_, Table.mem_contents_put .., TemperatureMap.mem_records_set h⟩

theorem RecordMap.mem_records_set {m : RecordMap} (h : (m.set ref r).2.result = .ok ()) :
    ref ∈ (m.set ref r).1.records := by
  cases m with
  | versioned m => exact VersionedMap.mem_records_set h
  | temperature m => exact TemperatureMap.mem_records_set h
  | named m => exact NamedMap.mem_records_set h

end ScatteringData
