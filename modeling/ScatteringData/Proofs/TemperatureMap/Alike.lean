import Mathlib
import ScatteringData.Proofs.Shelves
import ScatteringData.Proofs.TemperatureMap.Query

/-!
# Maps that answer alike

The entries under all keys determine what a sound map answers. Only the order in which file types
and versions were first inserted, and the form in which they were, is not determined by them.
-/

namespace ScatteringData

namespace TemperatureMap

variable {B : Key → Key → Energy × RecordRef → Prop} {m m' : TemperatureMap}

/-! ## Keys under which something is kept -/

theorem Sound.filed (h : m.Sound B) : m.shelves.Filed where
  distinct := h.distinct
  labels := h.labels
  shelves e he := ⟨(h.shelves e he).distinct, (h.shelves e he).nonempty, (h.shelves e he).labels⟩

theorem Sound.at?_isSome_iff (h : m.Sound B) (k₁ k₂ : Key) :
    (m.shelves.at? k₁ k₂).isSome ↔ m.entriesAt k₁ k₂ ≠ [] := by
  rw [h.at?_eq k₁ k₂]
  by_cases hnil : m.entriesAt k₁ k₂ = []
  · simp [hnil]
  · simp [hnil]

theorem Sound.mem_shelf_keys_iff (h : m.Sound B) {k₁ : Key} {shelf : Table Bucket}
    (hs : Table.get? m.shelves k₁ = some shelf) (k₂ : Key) :
    k₂ ∈ shelf.keys ↔ m.entriesAt k₁ k₂ ≠ [] := by
  rw [Shelves.mem_shelf_keys_iff hs, h.at?_isSome_iff]

/-! ## Same entries, same answers -/

/-- Two maps list equal keys and the same energies, and they find the same records. -/
structure Alike (m m' : TemperatureMap) : Prop where
  fileTypes : (Value.keys m.fileTypes).Perm (Value.keys m'.fileTypes)
  versions : ∀ fileType,
    SameResult (fun vs ws => (Value.keys vs).Perm (Value.keys ws)) (m.versions fileType)
      (m'.versions fileType)
  recommendedVersion : ∀ fileType,
    SameResult (fun v w => v.key? = w.key?) (m.recommendedVersion fileType)
      (m'.recommendedVersion fileType)
  energies : ∀ fileType version, m.energies fileType version = m'.energies fileType version
  temperatures : ∀ fileType version,
    m.temperatures fileType version = m'.temperatures fileType version
  get : ∀ fileType version temperature exact,
    m.get fileType version temperature exact = m'.get fileType version temperature exact

section
variable (h : m.Sound B) (h' : m'.Sound B)
  (hentries : ∀ k₁ k₂, m.entriesAt k₁ k₂ = m'.entriesAt k₁ k₂)
include h h' hentries

theorem bucket_alike (fileType version : Value) :
    m.bucket fileType version = m'.bucket fileType version := by
  cases h₁ : fileType.key? with
  | none =>
    unfold bucket
    rw [Table.find_eq_error _ h₁, Table.find_eq_error _ h₁]
  | some k₁ =>
    cases h₂ : version.key? with
    | none =>
      unfold bucket
      rw [Table.find_eq _ h₁, Table.find_eq _ h₁]
      simp only [bind, Except.bind, Table.find_eq_error _ h₂]
    | some k₂ => rw [bucket_eq h h₁ h₂, bucket_eq h' h₁ h₂, hentries]

theorem alike_of_entriesAt (hcategory : m.category = m'.category) : m.Alike m' := by
  have hat : ∀ k₁ k₂, m.shelves.at? k₁ k₂ = m'.shelves.at? k₁ k₂ := by
    intro k₁ k₂
    rw [h.at?_eq, h'.at?_eq, hentries]
  have hkeys : ∀ k₁ k₂, (m.shelves.at? k₁ k₂).isSome ↔ (m'.shelves.at? k₁ k₂).isSome := by
    intro k₁ k₂
    rw [hat]
  refine ⟨?_, ?_, ?_, ?_, ?_, ?_⟩
  · unfold TemperatureMap.fileTypes
    rw [Table.keys_labels, Table.keys_labels]
    exact Shelves.perm_keys h.filed h'.filed hkeys
  · exact Shelves.versions_alike h.filed h'.filed hkeys
  · unfold TemperatureMap.recommendedVersion
    rw [hcategory]
    exact Shelves.recommendedVersion_alike h.filed h'.filed hkeys _
  · intro fileType version
    unfold energies
    rw [bucket_alike h h' hentries]
  · intro fileType version
    unfold temperatures
    rw [bucket_alike h h' hentries]
  · intro fileType version temperature exact
    unfold TemperatureMap.get
    rw [hcategory, Shelves.get_alike h.filed h'.filed hat]

end

end TemperatureMap

end ScatteringData
