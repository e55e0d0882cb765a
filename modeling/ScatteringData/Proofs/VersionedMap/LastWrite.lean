import Mathlib
import ScatteringData.Proofs.Fault
import ScatteringData.RecordMap
import ScatteringData.Proofs.Double.Value
import ScatteringData.Proofs.Record.Built
import ScatteringData.Proofs.Shelves

/-!
# The last record of a file type and a version

A map of versioned records is a finite map from file types and versions to the records that were set
there last. File types are the same where their texts are, whatever categories they come from.
-/

namespace ScatteringData

/-! ## The last write -/

section
variable {κ : Type} [DecidableEq κ] {key? : RecordRef → Option κ} {rs : List RecordRef}

def lastOf (key? : RecordRef → Option κ) (rs : List RecordRef) (k : κ) : Option RecordRef :=
  (rs.filter fun r => key? r = some k).getLast?

theorem lastOf_snoc (rs : List RecordRef) (r : RecordRef) (k : κ) :
    lastOf key? (rs ++ [r]) k = if key? r = some k then some r else lastOf key? rs k := by
  unfold lastOf
  by_cases h : key? r = some k <;> simp [h]

theorem mem_of_lastOf {k : κ} {r : RecordRef} (h : lastOf key? rs k = some r) :
    r ∈ rs ∧ key? r = some k := by
  simpa using List.mem_of_getLast? h

theorem isSome_lastOf_iff (k : κ) : (lastOf key? rs k).isSome ↔ ∃ r ∈ rs, key? r = some k := by
  rw [lastOf, List.getLast?_isSome, ← List.length_pos_iff, List.length_pos_iff_exists_mem]
  simp

end

/-- The keys of a record in a map without temperatures. -/
def Record.place? (r : Record) : Option (Key × Key) := do
  let fileType ← r.fileType.key?
  let version ← r.fileVersion.key?
  some (fileType, version)

theorem Record.place?_eq_some_iff (r : Record) (k₁ k₂ : Key) :
    r.place? = some (k₁, k₂) ↔ r.fileType.key? = some k₁ ∧ r.fileVersion.key? = some k₂ := by
  simp [place?, Option.bind_eq_some_iff]

namespace VersionedMap

section
variable (records : RecordRef → Record)

def setAll (m : VersionedMap) (rs : List RecordRef) : VersionedMap :=
  rs.foldl (fun m r => (m.set r (records r)).1) m

/-- The record that was set last under a file type and a version. -/
def lastAt (rs : List RecordRef) (k₁ k₂ : Key) : Option RecordRef :=
  lastOf (fun r => (records r).place?) rs (k₁, k₂)

/-- The same records in another order, in which those of one file type and version keep theirs. -/
structure Reordered (rs rs' : List RecordRef) : Prop where
  perm : rs.Perm rs'
  kept : ∀ k₁ k₂ : Key, (rs.filter fun r => (records r).place? = some (k₁, k₂)) =
    rs'.filter fun r => (records r).place? = some (k₁, k₂)

end

/-- The map answers as the finite map of two keys. -/
structure Presents (m : VersionedMap) (f : Key → Key → Option RecordRef) : Prop where
  get : ∀ (fileType version : Value) k₁ k₂, fileType.key? = some k₁ → version.key? = some k₂ →
    m.get fileType version =
      match f k₁ k₂ with
      | some r => .ok r
      | none => .error (.raised (.request (.unknownVersion m.category fileType version)))
  available : ∀ (fileType version : Value) k₁ k₂, fileType.key? = some k₁ →
    version.key? = some k₂ → k₁ ≠ .null → k₂ ≠ .null →
    m.available fileType version = .ok (f k₁ k₂).isSome
  versions : ∀ (fileType : Value) k₁, fileType.key? = some k₁ →
    ∃ vs, m.versions fileType = .ok vs ∧ (∀ v ∈ vs, ∃ n mark, v = .int n mark) ∧
      (Value.keys vs).Nodup ∧ (∀ k₂, k₂ ∈ Value.keys vs ↔ (f k₁ k₂).isSome) ∧
      (vs = [] ∧ m.recommendedVersion fileType =
          .error (.raised (.request (.unknownFileType m.category fileType))) ∨
        ∃ n mark, m.recommendedVersion fileType = .ok (.int n mark) ∧ .int n mark ∈ vs ∧
          ∀ k l, .int k l ∈ vs → k ≤ n)
  fileTypes : (∀ v ∈ m.fileTypes, ∃ t, v = .fileType t) ∧ (Value.keys m.fileTypes).Nodup ∧
    ∀ k₁, k₁ ∈ Value.keys m.fileTypes ↔ ∃ k₂, (f k₁ k₂).isSome
  records : m.records.Nodup ∧ ∀ r, r ∈ m.records ↔ ∃ k₁ k₂, f k₁ k₂ = some r

/-- Two maps answer every query alike, up to the order of what they list. -/
structure Alike (m m' : VersionedMap) : Prop where
  get : ∀ fileType version, m.get fileType version = m'.get fileType version
  available : ∀ fileType version, m.available fileType version = m'.available fileType version
  versions : ∀ fileType,
    SameResult (fun vs ws => (Value.keys vs).Perm (Value.keys ws)) (m.versions fileType)
      (m'.versions fileType)
  recommendedVersion : ∀ fileType,
    SameResult (fun v w => v.key? = w.key?) (m.recommendedVersion fileType)
      (m'.recommendedVersion fileType)
  fileTypes : (Value.keys m.fileTypes).Perm (Value.keys m'.fileTypes)
  records : m.records.Perm m'.records
  size : (RecordMap.versioned m).size = (RecordMap.versioned m').size

variable {records : RecordRef → Record} {m : VersionedMap} {rs rs' : List RecordRef}

theorem Reordered.lastAt_eq (h : Reordered records rs rs') (k₁ k₂ : Key) :
    lastAt records rs k₁ k₂ = lastAt records rs' k₁ k₂ := by
  unfold lastAt lastOf
  rw [h.kept]

/-! ## Setting one more record -/

theorem set_eq (m : VersionedMap) (ref : RecordRef) {c : Category} {r : Record}
    (hr : r.BuiltIn c) :
    ∃ l₁ l₂ : Label, (∃ t, l₁.shown = .fileType t) ∧ (∃ n mark, l₂.shown = .int n mark) ∧
      r.place? = some (l₁.key, l₂.key) ∧
      m.set ref r = (⟨m.category, m.shelves.putAt l₁ l₂ ref⟩,
        ⟨(if (m.shelves.at? l₁.key l₂.key).isSome then
            [.replacing ⟨m.category, r.fileType, r.fileVersion, none⟩] else []) ++
          [.stored ⟨m.category, r.fileType, r.fileVersion, none⟩], .ok ()⟩) := by
  obtain ⟨t, -, ht⟩ := hr.normal.fileType
  obtain ⟨n, mark, -, hn⟩ := hr.normal.fileVersion
  have h₁ : r.fileType.key? = some (.text t.text) := by rw [ht]; rfl
  have h₂ : r.fileVersion.key? = some (.number (.int n)) := by rw [hn]; rfl
  refine ⟨⟨_, _, h₁⟩, ⟨_, _, h₂⟩, ⟨t, ht⟩, ⟨n, mark, hn⟩,
    (Record.place?_eq_some_iff _ _ _).mpr ⟨h₁, h₂⟩, ?_⟩
  have hpresent : ((Table.get? m.shelves (.text t.text)).getD Table.empty).contains
      (.number (.int n)) = (m.shelves.at? (.text t.text) (.number (.int n))).isSome := by
    unfold Shelves.at? Table.contains
    cases Table.get? m.shelves (.text t.text) with
    | none => rfl
    | some shelf => rfl
  unfold VersionedMap.set
  simp only [Label.ofValue_eq h₁, Label.ofValue_eq h₂, hpresent]
  rfl

theorem setAll_snoc (m : VersionedMap) (rs : List RecordRef) (r : RecordRef) :
    m.setAll records (rs ++ [r]) = ((m.setAll records rs).set r (records r)).1 := by
  unfold setAll
  rw [List.foldl_append]
  rfl

section
variable (category : String) (hrs : ∀ r ∈ rs, ∃ c, (records r).BuiltIn c)
include hrs

/-- Every run of sets leaves shelves that are filed and that hold the last record of every place. -/
theorem setAll_spec :
    ((empty category).setAll records rs).category = category ∧
    ((empty category).setAll records rs).shelves.Filed ∧
    ∀ k₁ k₂, ((empty category).setAll records rs).shelves.at? k₁ k₂ = lastAt records rs k₁ k₂ := by
  induction rs using List.reverseRecOn with
  | nil => exact ⟨rfl, Shelves.Filed.empty, fun _ _ => rfl⟩
  | append_singleton rs r ih =>
    obtain ⟨hcategory, hfiled, hat⟩ := ih fun q hq => hrs q (List.mem_append_left _ hq)
    obtain ⟨c, hr⟩ := hrs r (by simp)
    obtain ⟨l₁, l₂, hl₁, hl₂, hplace, heq⟩ :=
      set_eq ((empty category).setAll records rs) r hr
    rw [setAll_snoc, heq]
    refine ⟨hcategory, hfiled.putAt hl₁ hl₂ r, ?_⟩
    intro k₁ k₂
    simp only [Shelves.at?_putAt, hat, lastAt, lastOf_snoc, hplace, Option.some.injEq,
      Prod.mk.injEq]

theorem category_setAll : ((empty category).setAll records rs).category = category :=
  (setAll_spec category hrs).1

theorem filed_setAll : ((empty category).setAll records rs).shelves.Filed :=
  (setAll_spec category hrs).2.1

theorem at?_setAll (k₁ k₂ : Key) :
    ((empty category).setAll records rs).shelves.at? k₁ k₂ = lastAt records rs k₁ k₂ :=
  (setAll_spec category hrs).2.2 k₁ k₂

theorem set_setAll {c : Category} {r : RecordRef} (hr : (records r).BuiltIn c) :
    (((empty category).setAll records rs).set r (records r)).2 =
      ⟨(if ∃ q ∈ rs, (records q).place? = (records r).place? then
          [.replacing ⟨category, (records r).fileType, (records r).fileVersion, none⟩] else []) ++
        [.stored ⟨category, (records r).fileType, (records r).fileVersion, none⟩], .ok ()⟩ := by
  obtain ⟨l₁, l₂, -, -, hplace, heq⟩ := set_eq ((empty category).setAll records rs) r hr
  rw [heq, at?_setAll category hrs, category_setAll category hrs, hplace]
  simp only [lastAt, isSome_lastOf_iff]

end

/-! ## Answers -/

/-- Shelves that are filed answer as the finite map that they hold. -/
theorem presents_of_filed (h : m.shelves.Filed)
    (hplace : ∀ k₁ k₂ r, m.shelves.at? k₁ k₂ = some r → (records r).place? = some (k₁, k₂)) :
    m.Presents m.shelves.at? where
  get fileType version k₁ k₂ h₁ h₂ := by
    unfold VersionedMap.get
    rw [Shelves.get_eq _ _ h₁ h₂]
    cases m.shelves.at? k₁ k₂ with
    | none => rfl
    | some r => rfl
  available fileType version k₁ k₂ h₁ h₂ hk₁ hk₂ := Shelves.available_eq_isSome _ h₁ hk₁ h₂ hk₂
  versions fileType k₁ h₁ := by
    refine ⟨_, Shelves.versions_eq_labels _ h₁, ?_⟩
    cases hs : Table.get? m.shelves k₁ with
    | none =>
      have hnone := Shelves.recommendedVersion_absent m.category h₁ hs
      simpa [Value.keys, Shelves.at?, hs, VersionedMap.recommendedVersion] using hnone
    | some shelf =>
      have hshelf := h.shelf_of_get? hs
      obtain ⟨n, mark, hn, hmem, -, -, hmax⟩ := h.exists_recommendedVersion m.category h₁ hs
      simp only [Option.map_some, Option.getD_some, Table.keys_labels]
      refine ⟨?_, hshelf.distinct, Shelves.mem_shelf_keys_iff hs, Or.inr ⟨n, mark, hn, hmem, ?_⟩⟩
      · intro v hv
        obtain ⟨e, he, rfl⟩ := List.mem_map.mp hv
        exact hshelf.labels e he
      · intro k l hk
        apply hmax
        rw [← Table.keys_labels]
        exact List.mem_filterMap.mpr ⟨_, hk, rfl⟩
  fileTypes := by
    unfold VersionedMap.fileTypes
    rw [Table.keys_labels]
    refine ⟨?_, h.distinct, h.mem_keys_iff⟩
    intro v hv
    obtain ⟨e, he, rfl⟩ := List.mem_map.mp hv
    exact h.labels e he
  records := by
    refine ⟨h.pairwise_items ?_, h.mem_items_iff⟩
    intro k₁ k₂ r l₁ l₂ q hr hq hne heq
    have hplaces := hplace _ _ _ hr
    rw [heq, hplace _ _ _ hq] at hplaces
    exact hne (Option.some.inj hplaces).symm

theorem Presents.size_eq (h : m.Presents (lastAt records rs)) (hrs : ∀ r ∈ rs,
    ∃ c, (records r).BuiltIn c) : (RecordMap.versioned m).size =
      (rs.map fun r => (records r).place?).dedup.length := by
  have hperm : (m.records.map fun r => (records r).place?).Perm
      (rs.map fun r => (records r).place?).dedup := by
    apply (List.perm_ext_iff_of_nodup _ (List.nodup_dedup _)).mpr
    · intro a
      rw [List.mem_dedup, List.mem_map, List.mem_map]
      constructor
      · intro ha
        obtain ⟨r, hr, rfl⟩ := ha
        obtain ⟨k₁, k₂, hlast⟩ := (h.records.2 r).mp hr
        exact ⟨r, (mem_of_lastOf hlast).1, rfl⟩
      · intro ha
        obtain ⟨r, hr, rfl⟩ := ha
        obtain ⟨c, hbuilt⟩ := hrs r hr
        obtain ⟨l₁, l₂, -, -, hplace, -⟩ := set_eq m r hbuilt
        have hsome : (lastAt records rs l₁.key l₂.key).isSome :=
          (isSome_lastOf_iff _).mpr ⟨r, hr, hplace⟩
        obtain ⟨q, hq⟩ := Option.isSome_iff_exists.mp hsome
        exact ⟨q, (h.records.2 q).mpr ⟨_, _, hq⟩, (mem_of_lastOf hq).2.trans hplace.symm⟩
    · apply h.records.1.map_on
      intro r hr q hq heq
      obtain ⟨k₁, k₂, hr⟩ := (h.records.2 r).mp hr
      obtain ⟨l₁, l₂, hq⟩ := (h.records.2 q).mp hq
      have hplaces := (mem_of_lastOf hr).2.symm.trans (heq.trans (mem_of_lastOf hq).2)
      cases hplaces
      exact Option.some.inj (hr.symm.trans hq)
  simpa [RecordMap.size, RecordMap.records] using hperm.length_eq

theorem alike_of_at? {m' : VersionedMap} (h : m.shelves.Filed) (h' : m'.shelves.Filed)
    (hcategory : m.category = m'.category)
    (hat : ∀ k₁ k₂, m.shelves.at? k₁ k₂ = m'.shelves.at? k₁ k₂) (hnodup : m.records.Nodup)
    (hnodup' : m'.records.Nodup) : m.Alike m' := by
  have hkeys : ∀ k₁ k₂, (m.shelves.at? k₁ k₂).isSome ↔ (m'.shelves.at? k₁ k₂).isSome := by
    simp [hat]
  have hrecords : m.records.Perm m'.records := by
    apply (List.perm_ext_iff_of_nodup hnodup hnodup').mpr
    intro r
    simp only [VersionedMap.records, h.mem_items_iff, h'.mem_items_iff, hat]
  refine ⟨?_, Shelves.available_alike h h' hkeys, Shelves.versions_alike h h' hkeys, ?_, ?_,
    hrecords, hrecords.length_eq⟩
  · unfold VersionedMap.get
    rw [hcategory]
    exact Shelves.get_alike h h' hat _
  · unfold VersionedMap.recommendedVersion
    rw [hcategory]
    exact Shelves.recommendedVersion_alike h h' hkeys _
  · unfold VersionedMap.fileTypes
    rw [Table.keys_labels, Table.keys_labels]
    exact Shelves.perm_keys h h' hkeys

theorem setAll_presents (category : String) (hrs : ∀ r ∈ rs, ∃ c, (records r).BuiltIn c) :
    ((empty category).setAll records rs).Presents (lastAt records rs) := by
  have hat : ((empty category).setAll records rs).shelves.at? = lastAt records rs :=
    funext fun k₁ => funext fun k₂ => at?_setAll category hrs k₁ k₂
  rw [← hat]
  apply presents_of_filed (filed_setAll category hrs)
  intro k₁ k₂ r hr
  rw [hat] at hr
  exact (mem_of_lastOf hr).2

/-- Sets of records that were built make a finite map: every query answers by the last record of each
file type and version, a set warns if and only if its keys were set before, and the order of sets with
different keys makes no difference to any answer. -/
theorem finite_map (category : String) (rs : List RecordRef)
    (hrs : ∀ r ∈ rs, ∃ c, (records r).BuiltIn c) :
    ((empty category).setAll records rs).category = category ∧
    ((empty category).setAll records rs).Presents (lastAt records rs) ∧
    (RecordMap.versioned ((empty category).setAll records rs)).size =
      (rs.map fun r => (records r).place?).dedup.length ∧
    (∀ rs₁ r rs₂, rs = rs₁ ++ r :: rs₂ →
      (((empty category).setAll records rs₁).set r (records r)).2 =
        ⟨(if ∃ q ∈ rs₁, (records q).place? = (records r).place? then
            [.replacing ⟨category, (records r).fileType, (records r).fileVersion, none⟩] else []) ++
          [.stored ⟨category, (records r).fileType, (records r).fileVersion, none⟩], .ok ()⟩) ∧
    ∀ rs', Reordered records rs rs' →
      ((empty category).setAll records rs).Alike ((empty category).setAll records rs') := by
  have hpresents := setAll_presents category hrs
  refine ⟨category_setAll category hrs, hpresents, hpresents.size_eq hrs, ?_, ?_⟩
  · intro rs₁ r rs₂ heq
    subst heq
    obtain ⟨c, hr⟩ := hrs r (by simp)
    exact set_setAll category (fun q hq => hrs q (List.mem_append_left _ hq)) hr
  · intro rs' hre
    have hrs' : ∀ r ∈ rs', ∃ c, (records r).BuiltIn c :=
      fun r hr => hrs r (hre.perm.mem_iff.mpr hr)
    apply alike_of_at? (filed_setAll category hrs) (filed_setAll category hrs')
    · rw [category_setAll category hrs, category_setAll category hrs']
    · intro k₁ k₂
      rw [at?_setAll category hrs, at?_setAll category hrs', hre.lastAt_eq]
    · exact hpresents.records.1
    · exact (setAll_presents category hrs').records.1

/-! ## Hydrogen's data of two categories in one map -/

def mixed (r : RecordRef) : Record :=
  let e : Energy := ⟨1.0, Double.isMagnitude_one⟩
  match r.index with
  | 0 => .hydrogen 0 e
  | 1 => .hydrogen 1 e
  | _ => .boundHydrogen (.text "H2O" .shared) e

theorem mixed_built (r : RecordRef) : ∃ c, (mixed r).BuiltIn c := by
  obtain ⟨i⟩ := r
  match i with
  | 0 => exact ⟨_, Record.hydrogen_built 0 _⟩
  | 1 => exact ⟨_, Record.hydrogen_built 1 _⟩
  | _ + 2 => exact ⟨_, Record.boundHydrogen_built _ _⟩

theorem mixed_reordered : Reordered mixed [⟨0⟩, ⟨1⟩, ⟨2⟩] [⟨1⟩, ⟨0⟩, ⟨2⟩] := by
  refine ⟨List.Perm.swap _ _ _, ?_⟩
  intro k₁ k₂
  have h₀ : (mixed ⟨0⟩).place? = some (.text "ACE", .number (.int 0)) := rfl
  have h₁ : (mixed ⟨1⟩).place? = some (.text "ACE", .number (.int 1)) := rfl
  by_cases h : (mixed ⟨0⟩).place? = some (k₁, k₂)
  · rw [h₀] at h
    cases h
    simp [List.filter_cons, h₀, h₁]
  · simp [List.filter_cons, h]

theorem finite_map_mixed :
    (∀ r ∈ [(⟨0⟩ : RecordRef), ⟨1⟩, ⟨2⟩], ∃ c, (mixed r).BuiltIn c) ∧
    Reordered mixed [⟨0⟩, ⟨1⟩, ⟨2⟩] [⟨1⟩, ⟨0⟩, ⟨2⟩] ∧
    ((empty "nuclear").setAll mixed [⟨0⟩, ⟨1⟩, ⟨2⟩]).get (.text "ACE" .shared) (.int 0 .shared) =
      .ok ⟨2⟩ ∧
    ((empty "nuclear").setAll mixed [⟨0⟩, ⟨1⟩, ⟨2⟩]).Alike
      ((empty "nuclear").setAll mixed [⟨1⟩, ⟨0⟩, ⟨2⟩]) := by
  obtain ⟨-, hpresents, -, -, halike⟩ :=
    finite_map "nuclear" [⟨0⟩, ⟨1⟩, ⟨2⟩] fun r _ => mixed_built r
  refine ⟨fun r _ => mixed_built r, mixed_reordered, ?_, halike _ mixed_reordered⟩
  rw [hpresents.get _ _ (.text "ACE") (.number (.int 0)) rfl rfl]
  rfl

/-- The least version with one digit more than can be written. Nothing was set under it, but the message
that would say so cannot be written either. -/
theorem get_overlong :
    let fileType : Value := .text "ACE" .shared
    let version : Value := .int (10 ^ Decimal.maxDigits) .shared
    (empty "nuclear").available fileType version = .ok false ∧
      (empty "nuclear").get fileType version = .error (.numeralTooLong none) := by
  intro fileType version
  have hlong : version.isUnwritable = true := Decimal.isTooLong_pow
  refine ⟨rfl, ?_⟩
  change Except.error (Fault.raised _) = _
  rw [Fault.raised, if_pos (by simp [Fault.values, RequestFault.values, Value.isAnyUnwritable, hlong])]

end VersionedMap

end ScatteringData
