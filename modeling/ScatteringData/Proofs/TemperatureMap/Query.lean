import Mathlib
import ScatteringData.Proofs.Bucket.Nearest
import ScatteringData.Proofs.TemperatureMap.Sound

/-!
# Queries of a sound map with temperatures

What a sound map answers for a file type and a version depends on the entries of their keys only.
-/

namespace ScatteringData

theorem Value.isMagnitude_of_toMev {t : Value} {query : Float} (h : t.toMev = .ok query) :
    isMagnitude query = true := by
  have hother : (do let e ← Energy.ofValue t; pure e.mev : Except Fault Float) = .ok query →
      isMagnitude query = true := by
    intro h
    obtain ⟨e, -, he⟩ := except_bind_eq_ok.mp h
    cases he
    exact e.admissible
  cases t with
  | temperature t mark =>
    cases h
    exact Double.isMagnitude_kelvinToMev t.admissible
  | energy e mark =>
    cases h
    exact e.admissible
  | _ => exact hother h

namespace TemperatureMap

variable {B : Key → Key → Energy × RecordRef → Prop} {m : TemperatureMap} {fileType version : Value}
  {k₁ k₂ : Key}

theorem keys_of_bucket {b : Bucket} (h : m.bucket fileType version = .ok b) :
    ∃ k₁ k₂, fileType.key? = some k₁ ∧ version.key? = some k₂ := by
  unfold bucket at h
  obtain ⟨o, ho, h⟩ := except_bind_eq_ok.mp h
  obtain ⟨o', ho', -⟩ := except_bind_eq_ok.mp h
  cases h₁ : fileType.key? with
  | none =>
    rw [Table.find_eq_error _ h₁] at ho
    cases ho
  | some k₁ =>
    cases h₂ : version.key? with
    | none =>
      rw [Table.find_eq_error _ h₂] at ho'
      cases ho'
    | some k₂ => exact ⟨k₁, k₂, rfl, rfl⟩

theorem bucket_of_keys (h₁ : fileType.key? = some k₁) (h₂ : version.key? = some k₂) :
    m.bucket fileType version = .ok ((m.shelves.at? k₁ k₂).getD .empty) := by
  unfold bucket Shelves.at?
  rw [Table.find_eq _ h₁]
  simp only [bind, Except.bind, Table.find_eq _ h₂]
  cases Table.get? m.shelves k₁ with
  | none => rfl
  | some shelf => rfl

theorem get_congr {n : TemperatureMap} (hcategory : n.category = m.category)
    (h₁ : fileType.key? = some k₁) (h₂ : version.key? = some k₂)
    (hat : (n.shelves.at? k₁ k₂).getD .empty = (m.shelves.at? k₁ k₂).getD .empty)
    (temperature : Value) (exact : Bool) :
    n.get fileType version temperature exact = m.get fileType version temperature exact := by
  unfold TemperatureMap.get
  rw [Shelves.get_eq _ _ h₁ h₂, Shelves.get_eq _ _ h₁ h₂, hcategory]
  cases hm : m.shelves.at? k₁ k₂ with
  | none =>
    cases hn : n.shelves.at? k₁ k₂ with
    | none => rfl
    | some b =>
      rw [hm, hn] at hat
      cases hat
      rfl
  | some b =>
    cases hn : n.shelves.at? k₁ k₂ with
    | none =>
      rw [hm, hn] at hat
      cases hat
      rfl
    | some c =>
      rw [hm, hn] at hat
      cases hat
      rfl

theorem buckets_eq (h₁ : fileType.key? = some k₁) (hk₁ : k₁ ≠ .null)
    (h₂ : version.key? = some k₂) (hk₂ : k₂ ≠ .null) :
    m.buckets fileType version = .ok (m.shelves.at? k₁ k₂).toList := by
  unfold buckets Shelves.at?
  simp only [Value.isNull_eq_false h₁ hk₁, Value.isNull_eq_false h₂ hk₂, Table.find_eq _ h₁, bind,
    Except.bind, pure, Except.pure]
  cases Table.get? m.shelves k₁ with
  | none => rfl
  | some shelf =>
    simp only [Option.toList_some, List.mapM_cons, List.mapM_nil, Table.find_eq _ h₂,
      Option.bind_some]
    cases shelf.get? k₂ with
    | none => rfl
    | some b => rfl

theorem get_of_at? {b : Bucket} (h₁ : fileType.key? = some k₁) (h₂ : version.key? = some k₂)
    (hat : m.shelves.at? k₁ k₂ = some b) (hne : b.isEmpty = false) {temperature : Value}
    {query : Float} (ht : temperature.toMev = .ok query) {exact : Bool}
    {found : Option (Energy × RecordRef)} :
    b.resolve? query exact = .ok found →
    (m.get fileType version temperature exact).result =
      match found with
      | some x => .ok x.2
      | none => .error (.raised (.unsatisfiable m.category fileType version query)) := by
  intro hfound
  unfold TemperatureMap.get
  rw [Outcome.bind_result, Outcome.lift_result, Shelves.get_eq _ _ h₁ h₂, hat]
  simp only [bind, Except.bind, hne, Bool.false_eq_true, if_false]
  change (_ >>= _ : Outcome _).result = _
  rw [Outcome.bind_result, Outcome.lift_result, ht]
  change (_ >>= _ : Outcome _).result = _
  rw [Outcome.bind_result, Outcome.lift_result, hfound]
  cases found with
  | none => rfl
  | some x =>
    change (if (!exact && x.1.mev != query) = true then _ else _ : Outcome RecordRef).result = _
    split
    · rfl
    · rfl

theorem isNull_of_toMev {t : Value} {query : Float} (ht : t.toMev = .ok query) :
    t.isNull = false := by
  cases t with
  | null => cases ht
  | _ => rfl

section
variable (h : m.Sound B) (h₁ : fileType.key? = some k₁) (h₂ : version.key? = some k₂)
include h h₁ h₂

theorem bucket_eq : m.bucket fileType version = .ok (.graded (m.entriesAt k₁ k₂)) := by
  rw [bucket_of_keys h₁ h₂, h.at?_eq k₁ k₂]
  by_cases hnil : m.entriesAt k₁ k₂ = []
  · rw [if_pos hnil, hnil]
    rfl
  · rw [if_neg hnil]
    rfl

theorem energies_eq :
    m.energies fileType version = .ok ((m.entriesAt k₁ k₂).map (·.1)) := by
  unfold energies
  rw [bucket_eq h h₁ h₂]
  rfl

theorem temperatures_eq :
    m.temperatures fileType version = (m.entriesAt k₁ k₂).mapM fun x => x.1.toTemperature := by
  unfold temperatures
  rw [bucket_eq h h₁ h₂]
  rfl

theorem get_shelves : m.shelves.get m.category fileType version =
    if m.entriesAt k₁ k₂ = [] then
      .error (.raised (.request (.unknownVersion m.category fileType version)))
    else .ok (.graded (m.entriesAt k₁ k₂)) := by
  rw [Shelves.get_eq _ _ h₁ h₂, h.at?_eq k₁ k₂]
  by_cases hnil : m.entriesAt k₁ k₂ = []
  · rw [if_pos hnil, if_pos hnil]
  · rw [if_neg hnil, if_neg hnil]

theorem available_eq (hk₁ : k₁ ≠ .null) (hk₂ : k₂ ≠ .null) {temperature : Value} {query : Float}
    (ht : temperature.toMev = .ok query) :
    m.available fileType version temperature =
      .ok ((m.entriesAt k₁ k₂).any (Bucket.isHit query)) := by
  unfold available
  simp only [isNull_of_toMev ht, Bool.false_eq_true, if_false, ht, buckets_eq h₁ hk₁ h₂ hk₂, bind,
    Except.bind, h.at?_eq k₁ k₂]
  by_cases hnil : m.entriesAt k₁ k₂ = []
  · rw [if_pos hnil, hnil]
    rfl
  · rw [if_neg hnil]
    simp only [Option.toList_some, List.anyM, Bucket.hasMatch_graded, bind, Except.bind]
    cases (m.entriesAt k₁ k₂).any (Bucket.isHit query) with
    | true => rfl
    | false => rfl

theorem available_keys (hk₁ : k₁ ≠ .null) (hk₂ : k₂ ≠ .null) :
    m.available fileType version .null = .ok !(m.entriesAt k₁ k₂).isEmpty := by
  change m.shelves.available fileType version = _
  rw [Shelves.available_eq_isSome _ h₁ hk₁ h₂ hk₂, h.at?_eq k₁ k₂]
  cases m.entriesAt k₁ k₂ with
  | nil => rfl
  | cons x es => rfl

theorem get_absent (hnil : m.entriesAt k₁ k₂ = []) (temperature : Value) (exact : Bool) :
    (m.get fileType version temperature exact).result =
      .error (.raised (.request (.unknownVersion m.category fileType version))) := by
  unfold TemperatureMap.get
  rw [Outcome.bind_result, Outcome.lift_result, get_shelves h h₁ h₂, if_pos hnil]
  rfl

section
variable (hne : m.entriesAt k₁ k₂ ≠ [])
include hne

theorem get_present {temperature : Value} {query : Float} (ht : temperature.toMev = .ok query)
    {exact : Bool} {found : Option (Energy × RecordRef)} :
    (Bucket.graded (m.entriesAt k₁ k₂)).resolve? query exact = .ok found →
    (m.get fileType version temperature exact).result =
      match found with
      | some x => .ok x.2
      | none => .error (.raised (.unsatisfiable m.category fileType version query)) := by
  intro hfound
  refine get_of_at? h₁ h₂ (by rw [h.at?_eq, if_neg hne]) ?_ ht hfound
  rw [Bucket.isEmpty, List.isEmpty_eq_false_iff]
  exact hne

theorem get_exact_result {temperature : Value} {query : Float}
    (ht : temperature.toMev = .ok query) :
    (m.get fileType version temperature true).result =
      match (m.entriesAt k₁ k₂).find? (Bucket.isHit query) with
      | some x => .ok x.2
      | none => .error (.raised (.unsatisfiable m.category fileType version query)) :=
  get_present h h₁ h₂ hne ht (Bucket.resolve?_exact _ query)

theorem get_nearest_result {temperature : Value} {query : Float}
    (ht : temperature.toMev = .ok query) :
    ∃ x, Bucket.IsNearest (m.entriesAt k₁ k₂) query x ∧
      (m.get fileType version temperature false).result = .ok x.2 := by
  obtain ⟨x, hfound, hx⟩ :=
    (h.ascending k₁ k₂).exists_nearest hne (Value.isMagnitude_of_toMev ht)
  exact ⟨x, hx, get_present h h₁ h₂ hne ht hfound⟩

end

end

end TemperatureMap

end ScatteringData
