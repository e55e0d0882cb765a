import Mathlib
import ScatteringData.Proofs.Fault
import ScatteringData.Proofs.TemperatureMap.Alike
import ScatteringData.Proofs.RecordMap.Answers

/-!
# Availability, listings and look-ups

The queries of a map with temperatures walk its shelves in ways of their own. They agree wherever no
shelf and no bucket is empty, which setting records that were built and copying maps preserve.
-/

namespace ScatteringData

abbrev anyRecord : Key → Key → Energy × RecordRef → Prop := fun _ _ _ => True

/-! ## Copies of sound maps -/

section
variable {R : RecordRef → RecordRef → Prop}

theorem Bucket.Related.sound {b c : Bucket} (h : b.Related R c) {k₁ k₂ : Key}
    (hb : Bucket.Sound anyRecord k₁ k₂ b) : Bucket.Sound anyRecord k₁ k₂ c := by
  cases h with
  | lone _ => cases hb.graded
  | @graded es fs h =>
    have henergies := Bucket.energies_eq h
    refine ⟨rfl, ?_, ?_, fun _ _ => trivial⟩
    · rintro rfl
      exact hb.nonempty (List.map_eq_nil_iff.mp henergies)
    · have hasc : (es.map (·.1)).Pairwise fun d e => d.value < e.value :=
        List.pairwise_map.mpr hb.ascending
      rw [henergies, List.pairwise_map] at hasc
      exact hasc

theorem Table.Related.distinct {α β : Type} {Q : α → β → Prop} {t : Table α} {u : Table β}
    (h : t.Related Q u) (ht : t.Distinct) : u.Distinct := by
  unfold Table.Distinct at ht ⊢
  exact Table.keys_eq_of_labels h.labels ▸ ht

theorem TemperatureMap.SoundShelf.of_related {k₁ : Key} {shelf shelf' : Table Bucket}
    (hs : SoundShelf anyRecord k₁ shelf) (h : shelf.Related (Bucket.Related R) shelf') :
    SoundShelf anyRecord k₁ shelf' := by
  refine ⟨h.distinct hs.distinct, fun hnil => ?_, fun c hc => ?_, fun c hc => ?_⟩
  · refine hs.nonempty (List.eq_nil_of_length_eq_zero ?_)
    rw [List.Forall₂.length_eq h, hnil]
    rfl
  · obtain ⟨b, hb, hlabel, -⟩ := h.exists_of_mem hc
    exact hlabel ▸ hs.labels b hb
  · obtain ⟨b, hb, hlabel, hbucket⟩ := h.exists_of_mem hc
    exact hbucket.sound (hlabel ▸ hs.buckets b hb)

theorem TemperatureMap.Related.sound {m n : TemperatureMap} (h : m.Related R n)
    (hm : m.Sound anyRecord) : n.Sound anyRecord := by
  refine ⟨Table.Related.distinct h.shelves hm.distinct, fun d hd => ?_, fun d hd => ?_⟩
  · obtain ⟨e, he, hlabel, -⟩ := Table.Related.exists_of_mem h.shelves hd
    exact hlabel ▸ hm.labels e he
  · obtain ⟨e, he, hlabel, hshelf⟩ := Table.Related.exists_of_mem h.shelves hd
    exact SoundShelf.of_related (hlabel ▸ hm.shelves e he) hshelf

end

section
variable {σ : Type} (f : σ → RecordRef → σ × RecordRef)

theorem passes_any : Passes (fun _ => True) (fun _ _ => True) f (fun _ => True) fun _ _ _ => True :=
  ⟨fun _ _ => trivial, fun _ _ => ⟨trivial, trivial, trivial⟩⟩

theorem TemperatureMap.rebuild_related (s : σ) (m : TemperatureMap) :
    m.Related (fun _ _ => True) (m.rebuild f s).2 :=
  (((passes_any f).temperatureMap (fun _ => trivial) (fun _ _ => trivial)).step trivial
    fun _ _ => trivial).2.2

theorem NamedMap.rebuild_related (s : σ) (m : NamedMap) :
    Table.Related (TemperatureMap.Related fun _ _ => True) m.maps (m.rebuild f s).2.maps :=
  ((((passes_any f).temperatureMap (fun _ => trivial) (fun _ _ => trivial)).table
    (fun _ => trivial) (fun _ _ => trivial)).step trivial fun _ _ _ _ => trivial).2.2

end

/-! ## Maps that are built -/

/-- The maps that come of an empty one by setting records that were built and by copying, whether a
copy has the same records or others. -/
inductive TemperatureMap.Built : TemperatureMap → Prop
  | empty (category : String) : Built (empty category)
  | set {m : TemperatureMap} (h : Built m) (ref : RecordRef) {r : Record} (hr : r.IsGraded) :
    Built (m.set ref r).1
  | copy {m : TemperatureMap} (h : Built m) {σ : Type} (f : σ → RecordRef → σ × RecordRef) (s : σ) :
    Built (m.rebuild f s).2

inductive NamedMap.Built : NamedMap → Prop
  | empty (category : String) : Built (empty category)
  | set {m : NamedMap} (h : Built m) (ref : RecordRef) {r : Record} (hr : r.IsGraded) :
    Built (m.set ref r).1
  | copy {m : NamedMap} (h : Built m) {σ : Type} (f : σ → RecordRef → σ × RecordRef) (s : σ) :
    Built (m.rebuild f s).2

theorem TemperatureMap.Sound.set_any {m : TemperatureMap} (h : m.Sound anyRecord) (ref : RecordRef)
    {r : Record} (hr : r.IsGraded) : (m.set ref r).1.Sound anyRecord :=
  h.set_of ref hr fun _ _ _ _ _ _ _ _ => trivial

theorem TemperatureMap.Built.sound {m : TemperatureMap} (h : m.Built) : m.Sound anyRecord := by
  induction h with
  | empty category => exact Sound.empty category
  | set _ ref hr ih => exact ih.set_any ref hr
  | copy _ f s ih => exact (rebuild_related f s _).sound ih

theorem NamedMap.sound_set {m : NamedMap} (h : ∀ e ∈ m.maps.entries, e.2.Sound anyRecord)
    (ref : RecordRef) {r : Record} (hr : r.IsGraded) :
    ∀ e ∈ (m.set ref r).1.maps.entries, e.2.Sound anyRecord := by
  rcases m.set_cases ref r with ⟨f, heq⟩ | ⟨name, l, x, -, -, hx, heq⟩
  · rw [heq]
    exact h
  · have hinner : x.Sound anyRecord := by
      rcases inner_eq_ok hx with hget | ⟨-, category, rfl⟩
      · obtain ⟨l', hl', -⟩ := Table.mem_of_get? hget
        exact h _ hl'
      · exact TemperatureMap.Sound.empty category
    rw [heq]
    intro e he
    rcases Table.mem_put he with he | ⟨heq, -, -⟩
    · exact h e he
    · exact heq ▸ hinner.set_any ref hr

theorem NamedMap.Built.sound {m : NamedMap} (h : m.Built) :
    ∀ e ∈ m.maps.entries, e.2.Sound anyRecord := by
  induction h with
  | empty category => exact fun e he => by cases he
  | set _ ref hr ih => exact sound_set ih ref hr
  | copy _ f s ih =>
    intro d hd
    obtain ⟨e, he, -, hrel⟩ := (rebuild_related f s _).exists_of_mem hd
    exact hrel.sound (ih e he)

/-! ## Agreement -/

/-- The queries about file types, versions and temperatures: those of a map with temperatures, or
those of a map with names under one name. -/
structure Lookups where
  available (fileType version temperature : Value) : Except Fault Bool
  fileTypes : Except Fault (List Value)
  versions (fileType : Value) : Except Fault (List Value)
  recommendedVersion (fileType : Value) : Except Fault Value
  energies (fileType version : Value) : Except Fault (List Energy)
  get (fileType version temperature : Value) (exact : Bool) : Except Fault RecordRef

def TemperatureMap.lookups (m : TemperatureMap) : Lookups where
  available := m.available
  fileTypes := .ok m.fileTypes
  versions := m.versions
  recommendedVersion := m.recommendedVersion
  energies := m.energies
  get fileType version temperature exact := (m.get fileType version temperature exact).result

def NamedMap.lookups (m : NamedMap) (name : Value) : Lookups where
  available := m.available name
  fileTypes := m.fileTypes name
  versions := m.versions name
  recommendedVersion := m.recommendedVersion name
  energies := m.energies name
  get fileType version temperature exact := (m.get name fileType version temperature exact).result

/-- The temperatures that can be asked for. -/
def Value.IsQuery (t : Value) : Prop := ∃ query, t.toMev = .ok query

/-- Energies and temperatures can be asked for, and what is read as a finite number that is not
below zero. -/
theorem Value.isQuery_iff (t : Value) :
    t.IsQuery ↔ (∃ e mark, t = .energy e mark) ∨ (∃ u mark, t = .temperature u mark) ∨
      ∃ x, t.toDouble = .ok x ∧ isMagnitude x = true := by
  have hread : (∃ e, Energy.ofValue t = .ok e) ↔ ∃ x, t.toDouble = .ok x ∧ isMagnitude x = true := by
    unfold Energy.ofValue
    simp only [except_bind_eq_ok]
    constructor
    · rintro ⟨e, x, hx, he⟩
      unfold Energy.ofFloat at he
      split at he
      · rename_i hmag
        exact ⟨x, hx, hmag⟩
      · cases he
    · rintro ⟨x, hx, hmag⟩
      exact ⟨⟨x, hmag⟩, x, hx, dif_pos hmag⟩
  have hother : (∃ query, (do let e ← Energy.ofValue t; pure e.mev : Except Fault Float) = .ok query) ↔
      ∃ x, t.toDouble = .ok x ∧ isMagnitude x = true := by
    simp only [← hread, except_bind_eq_ok]
    exact ⟨fun ⟨_, e, he, _⟩ => ⟨e, he⟩, fun ⟨e, he⟩ => ⟨e.mev, e, he, rfl⟩⟩
  cases t with
  | energy e mark => exact ⟨fun _ => .inl ⟨e, mark, rfl⟩, fun _ => ⟨e.mev, rfl⟩⟩
  | temperature u mark =>
    exact ⟨fun _ => .inr (.inl ⟨u, mark, rfl⟩), fun _ => ⟨kelvinToMev u.kelvin, rfl⟩⟩
  | _ =>
    refine hother.trans ⟨fun h => .inr (.inr h), ?_⟩
    rintro (⟨_, _, h⟩ | ⟨_, _, h⟩ | h)
    · cases h
    · cases h
    · exact h

/-- A look-up of something that is not there, but not for the lack of a temperature. -/
def Fault.IsRequest (f : Fault) : Prop := ∃ fault, f = .request fault

def Fault.IsUnsatisfiable (f : Fault) : Prop :=
  ∃ category fileType version mev, f = .unsatisfiable category fileType version mev

theorem Fault.raised_of {P : Fault → Prop} {f : Fault} {shown : List Value}
    (hshown : f.values = shown) (h : P f) :
    if Value.isAnyUnwritable shown then f.raised = .numeralTooLong none else P f.raised := by
  rw [raised, hshown]
  split
  · rfl
  · exact h

/-- The answers about a file type and a version, which have the given keys, follow from one another.
A look-up that fails shows some values; an integer among them that is too long to be written takes the
place of the fault. -/
structure Lookups.Agree (l : Lookups) (shown : List Value) (fileType version : Value) (k₁ k₂ : Key) :
    Prop where
  checked : (∃ b, l.available fileType .null .null = .ok b) ∧
    (∃ b, l.available fileType version .null = .ok b) ∧
    ∀ t : Value, t.IsQuery → ∃ b, l.available fileType version t = .ok b
  nearest : ∀ t : Value, t.IsQuery →
    ((∃ r, l.get fileType version t false = .ok r) ↔ l.available fileType version .null = .ok true)
  exact : ∀ t : Value, t.IsQuery →
    ((∃ r, l.get fileType version t true = .ok r) ↔ l.available fileType version t = .ok true)
  nearest_fault : ∀ (t : Value) (f : Fault), t.IsQuery →
    l.get fileType version t false = .error f →
    if Value.isAnyUnwritable shown then f = .numeralTooLong none else f.IsRequest
  exact_fault : ∀ (t : Value) (f : Fault), t.IsQuery → l.get fileType version t true = .error f →
    if Value.isAnyUnwritable shown then f = .numeralTooLong none
    else (f.IsUnsatisfiable ↔ l.available fileType version .null = .ok true) ∧
      (f.IsRequest ↔ l.available fileType version .null = .ok false)
  versions : ∃ vs, l.versions fileType = .ok vs ∧
    (l.available fileType version .null = .ok true ↔ k₂ ∈ Value.keys vs)
  energies : ∃ es, l.energies fileType version = .ok es ∧
    (l.available fileType version .null = .ok true ↔ es ≠ [])
  fileTypes : ∃ ts, l.fileTypes = .ok ts ∧
    (l.available fileType .null .null = .ok true ↔ k₁ ∈ Value.keys ts)
  recommended : l.available fileType .null .null = .ok true ↔
    ∃ w, l.recommendedVersion fileType = .ok w
  greatest : ∀ w, l.recommendedVersion fileType = .ok w → ∃ vs, l.versions fileType = .ok vs ∧
    w ∈ vs ∧ (∀ v ∈ vs, v.precedes? false w = some true) ∧
    ∀ t : Value, t.IsQuery → ∃ r, l.get fileType w t false = .ok r

namespace TemperatureMap

variable {B : Key → Key → Energy × RecordRef → Prop} {m : TemperatureMap} {fileType version : Value}
  {k₁ k₂ : Key}

section
variable (h : m.Sound B) (h₁ : fileType.key? = some k₁)
include h h₁

theorem mem_versions_iff (k₂ : Key) : ∃ vs, m.versions fileType = .ok vs ∧
    (m.entriesAt k₁ k₂ ≠ [] ↔ k₂ ∈ Value.keys vs) := by
  refine ⟨_, Shelves.versions_eq_labels m.shelves h₁, ?_⟩
  cases hs : Table.get? m.shelves k₁ with
  | none =>
    have hnil : m.entriesAt k₁ k₂ = [] := by rw [entriesAt, Shelves.at?, hs]; rfl
    exact ⟨fun hne => absurd hnil hne, fun hk => absurd hk List.not_mem_nil⟩
  | some shelf =>
    rw [Option.map_some, Option.getD_some, Table.keys_labels, h.mem_shelf_keys_iff hs]

theorem exists_get_of_mem {shelf : Table Bucket} (hs : Table.get? m.shelves k₁ = some shelf)
    {w : Value} (hw : w ∈ shelf.labels) {t : Value} (ht : t.IsQuery) :
    ∃ r, (m.get fileType w t false).result = .ok r := by
  obtain ⟨query, ht⟩ := ht
  obtain ⟨e, he, rfl⟩ := List.mem_map.mp hw
  have hne := (h.mem_shelf_keys_iff hs e.1.key).mp (List.mem_map.mpr ⟨e, he, rfl⟩)
  obtain ⟨x, -, hget⟩ := get_nearest_result h h₁ e.1.key_shown hne ht
  exact ⟨x.2, hget⟩

end

section
variable (h : m.Sound B) (h₁ : fileType.key? = some k₁) (h₂ : version.key? = some k₂)
include h h₁ h₂

theorem get_exact_cases {t : Value} {query : Float} (ht : t.toMev = .ok query) :
    m.entriesAt k₁ k₂ = [] ∧ (m.get fileType version t true).result =
        .error (.raised (.request (.unknownVersion m.category fileType version))) ∨
    m.entriesAt k₁ k₂ ≠ [] ∧ (m.entriesAt k₁ k₂).any (Bucket.isHit query) = false ∧
      (m.get fileType version t true).result =
        .error (.raised (.unsatisfiable m.category fileType version query)) ∨
    (m.entriesAt k₁ k₂).any (Bucket.isHit query) = true ∧
      ∃ r, (m.get fileType version t true).result = .ok r := by
  by_cases hnil : m.entriesAt k₁ k₂ = []
  · exact Or.inl ⟨hnil, get_absent h h₁ h₂ hnil t true⟩
  · have hget := get_exact_result h h₁ h₂ hnil ht
    have hany : (m.entriesAt k₁ k₂).any (Bucket.isHit query) =
        ((m.entriesAt k₁ k₂).find? (Bucket.isHit query)).isSome := by
      rw [Bool.eq_iff_iff, List.any_eq_true, List.find?_isSome]
    rw [hany]
    cases hfind : (m.entriesAt k₁ k₂).find? (Bucket.isHit query) with
    | none =>
      rw [hfind] at hget
      exact Or.inr (Or.inl ⟨hnil, rfl, hget⟩)
    | some x =>
      rw [hfind] at hget
      exact Or.inr (Or.inr ⟨rfl, x.2, hget⟩)

theorem get_nearest_cases {t : Value} (ht : t.IsQuery) :
    m.entriesAt k₁ k₂ = [] ∧ (m.get fileType version t false).result =
        .error (.raised (.request (.unknownVersion m.category fileType version))) ∨
    m.entriesAt k₁ k₂ ≠ [] ∧ ∃ r, (m.get fileType version t false).result = .ok r := by
  obtain ⟨query, ht⟩ := ht
  by_cases hnil : m.entriesAt k₁ k₂ = []
  · exact Or.inl ⟨hnil, get_absent h h₁ h₂ hnil t false⟩
  · obtain ⟨x, -, hget⟩ := get_nearest_result h h₁ h₂ hnil ht
    exact Or.inr ⟨hnil, x.2, hget⟩

theorem available_iff (hk₁ : k₁ ≠ .null) (hk₂ : k₂ ≠ .null) :
    (m.available fileType version .null = .ok true ↔ m.entriesAt k₁ k₂ ≠ []) ∧
      (m.available fileType version .null = .ok false ↔ m.entriesAt k₁ k₂ = []) := by
  rw [available_keys h h₁ h₂ hk₁ hk₂]
  cases m.entriesAt k₁ k₂ with
  | nil => simp
  | cons x es => simp

/-- In a sound map all queries about a file type and a version agree. -/
theorem Sound.agree (hk₁ : k₁ ≠ .null) (hk₂ : k₂ ≠ .null) :
    m.lookups.Agree [fileType, version] fileType version k₁ k₂ where
  checked := by
    refine ⟨⟨_, Shelves.available_null_eq _ h₁ hk₁⟩, ⟨_, available_keys h h₁ h₂ hk₁ hk₂⟩, ?_⟩
    rintro t ⟨query, ht⟩
    exact ⟨_, available_eq h h₁ h₂ hk₁ hk₂ ht⟩
  nearest t ht := by
    refine Iff.trans ?_ (available_iff h h₁ h₂ hk₁ hk₂).1.symm
    rcases get_nearest_cases h h₁ h₂ ht with ⟨hnil, hget⟩ | ⟨hne, hget⟩
    · simp [lookups, hget, hnil]
    · exact ⟨fun _ => hne, fun _ => hget⟩
  exact t ht := by
    obtain ⟨query, ht⟩ := ht
    change _ ↔ m.available fileType version t = .ok true
    rw [available_eq h h₁ h₂ hk₁ hk₂ ht]
    rcases get_exact_cases h h₁ h₂ ht with ⟨hnil, hget⟩ | ⟨-, hany, hget⟩ | ⟨hany, hget⟩
    · simp [lookups, hget, hnil]
    · simp [lookups, hget, hany]
    · exact ⟨fun _ => congrArg Except.ok hany, fun _ => hget⟩
  nearest_fault t f ht hf := by
    rcases get_nearest_cases h h₁ h₂ ht with ⟨-, hget⟩ | ⟨-, r, hget⟩
    · cases hget.symm.trans hf
      exact Fault.raised_of (P := Fault.IsRequest) rfl ⟨_, rfl⟩
    · cases hget.symm.trans hf
  exact_fault t f ht hf := by
    obtain ⟨query, ht⟩ := ht
    obtain ⟨htrue, hfalse⟩ := available_iff h h₁ h₂ hk₁ hk₂
    let P : Fault → Prop := fun g =>
      (g.IsUnsatisfiable ↔ m.available fileType version .null = .ok true) ∧
        (g.IsRequest ↔ m.available fileType version .null = .ok false)
    -- a fault is about the bucket as a whole where there is none, and else about the temperature
    have hclasses : ∀ g : Fault, (m.entriesAt k₁ k₂ = [] ∧ g.IsRequest ∨
        m.entriesAt k₁ k₂ ≠ [] ∧ g.IsUnsatisfiable) → P g := by
      simp only [P, htrue, hfalse]
      rintro g (⟨hnil, fault, rfl⟩ | ⟨hne, category, a, b, mev, rfl⟩)
      · simp [Fault.IsUnsatisfiable, Fault.IsRequest, hnil]
      · simp [Fault.IsUnsatisfiable, Fault.IsRequest, hne]
    rcases get_exact_cases h h₁ h₂ ht with ⟨hnil, hget⟩ | ⟨hne, -, hget⟩ | ⟨-, r, hget⟩
    · cases hget.symm.trans hf
      exact Fault.raised_of (P := P) rfl (hclasses _ (Or.inl ⟨hnil, _, rfl⟩))
    · cases hget.symm.trans hf
      exact Fault.raised_of (P := P) rfl (hclasses _ (Or.inr ⟨hne, _, _, _, _, rfl⟩))
    · cases hget.symm.trans hf
  versions := by
    obtain ⟨vs, hvs, hmem⟩ := mem_versions_iff h h₁ k₂
    exact ⟨vs, hvs, (available_iff h h₁ h₂ hk₁ hk₂).1.trans hmem⟩
  energies := by
    refine ⟨_, energies_eq h h₁ h₂, (available_iff h h₁ h₂ hk₁ hk₂).1.trans ?_⟩
    rw [Ne, Ne, List.map_eq_nil_iff]
  fileTypes := by
    refine ⟨_, rfl, ?_⟩
    change m.shelves.available fileType .null = .ok true ↔ k₁ ∈ Value.keys m.shelves.labels
    rw [Shelves.available_null_eq _ h₁ hk₁, Table.keys_labels, ← Table.isSome_get?_iff]
    simp
  recommended := by
    change m.shelves.available fileType .null = .ok true ↔
      ∃ w, m.recommendedVersion fileType = .ok w
    rw [Shelves.available_null_eq _ h₁ hk₁]
    cases hs : Table.get? m.shelves k₁ with
    | none => simp [recommendedVersion, Shelves.recommendedVersion_absent _ h₁ hs]
    | some shelf =>
      obtain ⟨n, mark, hw, -⟩ := h.filed.exists_recommendedVersion m.category h₁ hs
      simp [recommendedVersion, hw]
  greatest w hw := by
    change m.shelves.recommendedVersion m.category fileType = .ok w at hw
    cases hs : Table.get? m.shelves k₁ with
    | none =>
      rw [Shelves.recommendedVersion_absent _ h₁ hs] at hw
      cases hw
    | some shelf =>
      obtain ⟨n, mark, hn, hmem, hmax, -⟩ := h.filed.exists_recommendedVersion m.category h₁ hs
      cases hn.symm.trans hw
      have hvs : m.versions fileType = .ok shelf.labels := by
        rw [versions, Shelves.versions_eq_labels _ h₁, hs, Option.map_some, Option.getD_some]
      exact ⟨_, hvs, hmem, hmax, fun t ht => exists_get_of_mem h h₁ hs hmem ht⟩

end

end TemperatureMap

namespace NamedMap

variable {m : NamedMap} {name fileType version : Value} {k k₁ k₂ : Key}
  (hname : name.key? = some k)
include hname

theorem lookups_found (hk : k ≠ .null) {inner : TemperatureMap}
    (hget : m.maps.get? k = some inner) : m.lookups name = inner.lookups := by
  have hfind : m.maps.find name = .ok (some inner) := by rw [Table.find_eq _ hname, hget]
  have hnull := Value.isNull_eq_false hname hk
  unfold NamedMap.lookups TemperatureMap.lookups
  rw [Lookups.mk.injEq]
  refine ⟨?_, ?_, ?_, ?_, ?_, ?_⟩
  · funext fileType version temperature
    unfold NamedMap.available
    rw [hnull, hfind]
    rfl
  · unfold NamedMap.fileTypes
    rw [hfind]
    rfl
  · funext fileType
    unfold NamedMap.versions
    rw [hfind]
    rfl
  · funext fileType
    unfold NamedMap.recommendedVersion NamedMap.under
    rw [hfind]
    rfl
  · funext fileType version
    unfold NamedMap.energies
    rw [hfind]
    rfl
  · funext fileType version temperature exact
    unfold NamedMap.get NamedMap.under
    rw [hfind]
    rfl

/-- Under a name that is not there nothing is available, and every look-up fails. -/
theorem agree_absent (hk : k ≠ .null) (hget : m.maps.get? k = none) :
    (m.lookups name).Agree [name] fileType version k₁ k₂ := by
  have hfind : m.maps.find name = .ok none := by rw [Table.find_eq _ hname, hget]
  have hnull := Value.isNull_eq_false hname hk
  have havailable : ∀ fileType version t,
      (m.lookups name).available fileType version t = .ok false := by
    intro fileType version t
    unfold lookups NamedMap.available
    simp only [hnull, hfind]
    rfl
  have hget : ∀ fileType version t exact, (m.lookups name).get fileType version t exact =
      .error (.raised (.request (.unknownName m.category name))) := by
    intro fileType version t exact
    unfold lookups NamedMap.get under
    rw [hfind]
    rfl
  have hrecommended : (m.lookups name).recommendedVersion fileType =
      .error (.raised (.request (.unknownName m.category name))) := by
    unfold lookups NamedMap.recommendedVersion under
    rw [hfind]
    rfl
  have hversions : (m.lookups name).versions fileType = .ok [] := by
    unfold lookups NamedMap.versions
    rw [hfind]
    rfl
  have henergies : (m.lookups name).energies fileType version = .ok [] := by
    unfold lookups NamedMap.energies
    rw [hfind]
    rfl
  have hfileTypes : (m.lookups name).fileTypes = .ok [] := by
    unfold lookups NamedMap.fileTypes
    rw [hfind]
    rfl
  -- no answer depends on the keys, so every part of the agreement is one about these answers
  constructor
  case nearest_fault =>
    intro t f _ hf
    cases (hget ..).symm.trans hf
    exact Fault.raised_of (P := Fault.IsRequest) rfl ⟨_, rfl⟩
  case exact_fault =>
    intro t f _ hf
    cases (hget ..).symm.trans hf
    refine Fault.raised_of rfl (P := fun g => (g.IsUnsatisfiable ↔ (m.lookups name).available fileType
      version .null = .ok true) ∧ (g.IsRequest ↔ (m.lookups name).available fileType version .null =
      .ok false)) ?_
    simp [havailable, Fault.IsUnsatisfiable, Fault.IsRequest]
  all_goals simp [havailable, hget, hrecommended, hversions, henergies, hfileTypes, Value.keys]

end NamedMap

/-- The queries of the maps that are built, with the values that a failing look-up shows: all those of
a map with temperatures, and those of a map with names under any name. -/
inductive Lookups.Offered (fileType version : Value) : Lookups → List Value → Prop
  | temperature {m : TemperatureMap} (h : m.Built) :
    Offered fileType version m.lookups [fileType, version]
  | named {m : NamedMap} (h : m.Built) {name : Value} {k : Key} (hname : name.key? = some k)
    (hk : k ≠ .null) : Offered fileType version (m.lookups name)
      (if (m.maps.get? k).isSome then [fileType, version] else [name])

/-- Availability checks, listings and look-ups agree about every file type and every version that is
given. -/
theorem Lookups.Offered.queries_agree {l : Lookups} {shown : List Value} {fileType version : Value}
    (h : l.Offered fileType version shown) {k₁ k₂ : Key} (h₁ : fileType.key? = some k₁)
    (hk₁ : k₁ ≠ .null) (h₂ : version.key? = some k₂) (hk₂ : k₂ ≠ .null) :
    l.Agree shown fileType version k₁ k₂ := by
  cases h with
  | temperature h => exact h.sound.agree h₁ h₂ hk₁ hk₂
  | @named m h name k hname hk =>
    cases hget : m.maps.get? k with
    | none => exact NamedMap.agree_absent hname hk hget
    | some inner =>
      obtain ⟨l, hl, -⟩ := Table.mem_of_get? hget
      rw [NamedMap.lookups_found hname hk hget]
      exact (h.sound _ hl).agree h₁ h₂ hk₁ hk₂

def TemperatureMap.single : TemperatureMap :=
  ((TemperatureMap.empty "nuclear").set ⟨0⟩ (.hydrogen 0 ⟨1.0, Double.isMagnitude_one⟩)).1

theorem TemperatureMap.single_agree :
    let fileType : Value := .text "ACE" .shared
    let version : Value := .int 0 .shared
    single.lookups.Offered fileType version [fileType, version] ∧
      single.lookups.Agree [fileType, version] fileType version (.text "ACE") (.number (.int 0)) := by
  intro fileType version
  have hbuilt : single.lookups.Offered fileType version [fileType, version] :=
    .temperature (.set (.empty "nuclear") ⟨0⟩ (Record.hydrogen_isGraded 0 _))
  exact ⟨hbuilt, hbuilt.queries_agree rfl (by simp) rfl (by simp)⟩

/-- An empty map, and the least version with one digit more than can be written: no look-up says that the
record is not there, since the message about it cannot be written. -/
theorem TemperatureMap.lookups_overlong :
    let m := TemperatureMap.empty "nuclear"
    let fileType : Value := .text "ACE" .shared
    let version : Value := .int (10 ^ Decimal.maxDigits) .shared
    let t : Value := .energy ⟨1.0, Double.isMagnitude_one⟩ .shared
    m.Built ∧ t.IsQuery ∧ m.available fileType version .null = .ok false ∧
      ∀ exact, (m.get fileType version t exact).result = .error (.numeralTooLong none) := by
  intro m fileType version t
  have hlong : version.isUnwritable = true := Decimal.isTooLong_pow
  refine ⟨.empty "nuclear", ⟨_, rfl⟩, rfl, fun exact => ?_⟩
  change Except.error (Fault.raised _) = _
  rw [Fault.raised, if_pos (by simp [Fault.values, RequestFault.values, Value.isAnyUnwritable, hlong])]

end ScatteringData
