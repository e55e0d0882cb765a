import Mathlib
import ScatteringData.Proofs.TemperatureMap.Exact
import ScatteringData.Proofs.TemperatureMap.Alike
import ScatteringData.Proofs.VersionedMap.LastWrite
import ScatteringData.RecordMap

/-!
# The last write wins

Where temperatures are equal or match in neither direction, a map is a finite map from addresses to
the records that were set there last. Its content does not depend on the order in which records of
different addresses were set.
-/

namespace ScatteringData

/-- A file type, a version and a temperature in MeV. -/
structure Address where
  fileType : Key
  version : Key
  mev : ℚ
deriving DecidableEq

/-- The keys under which a record is set. -/
def Record.address? (r : Record) : Option Address := do
  let fileType ← r.fileType.key?
  let version ← r.fileVersion.key?
  let e ← r.energy?
  some ⟨fileType, version, e.value⟩

theorem Record.address?_eq_some_iff (r : Record) (a : Address) :
    r.address? = some a ↔ r.fileType.key? = some a.fileType ∧
      r.fileVersion.key? = some a.version ∧ ∃ e, r.energy? = some e ∧ e.value = a.mev := by
  obtain ⟨k₁, k₂, x⟩ := a
  unfold address?
  simp only [Option.bind_eq_bind, Option.bind_eq_some_iff, Option.some.injEq, Address.mk.injEq]
  constructor
  · rintro ⟨k₁', h₁, k₂', h₂, e, he, rfl, rfl, hv⟩
    exact ⟨h₁, h₂, e, he, hv⟩
  · rintro ⟨h₁, h₂, e, he, hv⟩
    exact ⟨k₁, h₁, k₂, h₂, e, he, rfl, rfl, hv⟩

namespace TemperatureMap

section
variable (records : RecordRef → Record)

/-- Two temperatures under one file type and version are equal, or they match in neither direction. -/
def Separated (rs : List RecordRef) : Prop :=
  ∀ r ∈ rs, ∀ q ∈ rs, (records r).fileType.key? = (records q).fileType.key? →
    (records r).fileVersion.key? = (records q).fileVersion.key? →
    ∀ e f, (records r).energy? = some e → (records q).energy? = some f →
      e.value = f.value ∨ Grid.isMatch e.mev f.mev = false ∧ Grid.isMatch f.mev e.mev = false

/-- The record that was set last at an address. -/
def lastAt (rs : List RecordRef) (a : Address) : Option RecordRef :=
  (rs.filter fun r => (records r).address? = some a).getLast?

/-- The same records in another order, in which those of one address keep theirs. -/
structure Reordered (rs rs' : List RecordRef) : Prop where
  perm : rs.Perm rs'
  kept : ∀ a : Address, (rs.filter fun r => (records r).address? = some a) =
    rs'.filter fun r => (records r).address? = some a

end

variable {records : RecordRef → Record} {m : TemperatureMap} {rs rs' : List RecordRef}
  {k₁ k₂ : Key}

/-! ## The last record of an address -/

theorem lastAt_snoc (rs : List RecordRef) (r : RecordRef) (a : Address) :
    lastAt records (rs ++ [r]) a =
      if (records r).address? = some a then some r else lastAt records rs a :=
  lastOf_snoc rs r a

theorem mem_of_lastAt {a : Address} {r : RecordRef} (h : lastAt records rs a = some r) :
    r ∈ rs ∧ (records r).address? = some a :=
  mem_of_lastOf h

theorem exists_lastAt {a : Address} {r : RecordRef} (hr : r ∈ rs)
    (ha : (records r).address? = some a) : ∃ q, lastAt records rs a = some q :=
  Option.isSome_iff_exists.mp ((isSome_lastOf_iff a).mpr ⟨r, hr, ha⟩)

theorem Reordered.lastAt_eq (h : Reordered records rs rs') (a : Address) :
    lastAt records rs a = lastAt records rs' a := by
  unfold lastAt
  rw [h.kept a]

theorem Separated.left {rs rs' : List RecordRef} (h : Separated records (rs ++ rs')) :
    Separated records rs := by
  intro r hr q hq
  exact h r (List.mem_append_left _ hr) q (List.mem_append_left _ hq)

theorem Separated.apart (h : Separated records rs) {q r : RecordRef} (hq : q ∈ rs) (hr : r ∈ rs)
    {k₁ k₂ : Key} {d e : Energy} (ha : (records q).address? = some ⟨k₁, k₂, d.value⟩)
    (hb : (records r).address? = some ⟨k₁, k₂, e.value⟩) (hd : (records q).energy? = some d)
    (he : (records r).energy? = some e) : d.value = e.value ∨ Grid.isMatch d.mev e.mev = false := by
  obtain ⟨hq₁, hq₂, -⟩ := (Record.address?_eq_some_iff _ _).mp ha
  obtain ⟨hr₁, hr₂, -⟩ := (Record.address?_eq_some_iff _ _).mp hb
  exact (h q hq r hr (hq₁.trans hr₁.symm) (hq₂.trans hr₂.symm) d e hd he).imp_right And.left

/-! ## Setting one more record -/

theorem setAll_snoc (m : TemperatureMap) (rs : List RecordRef) (r : RecordRef) :
    m.setAll records (rs ++ [r]) = ((m.setAll records rs).set r (records r)).1 := by
  unfold setAll
  rw [List.foldl_append]
  rfl

/-- Where exactly the entries of an energy match it, entering a record replaces these. -/
theorem mem_entered_iff {es : List (Energy × RecordRef)} (h : Bucket.Ascending es) {e : Energy}
    (hhit : ∀ x ∈ es, Bucket.isHit e.mev x = true → x.1.value = e.value) (r : RecordRef)
    (x : Energy × RecordRef) :
    x ∈ entered es e r ↔ x = (e, r) ∨ x ∈ es ∧ x.1.value ≠ e.value := by
  have hrest : ∀ x, x ∈ es.eraseP (Bucket.isHit e.mev) ↔ x ∈ es ∧ x.1.value ≠ e.value := by
    intro x
    constructor
    · intro hx
      have hmem := List.mem_of_mem_eraseP hx
      refine ⟨hmem, fun hv => ?_⟩
      have hit : Bucket.isHit e.mev x = true := Grid.isMatch_of_value_eq hv
      obtain ⟨y, l₁, l₂, -, hy, rfl, hl⟩ := List.exists_of_eraseP hmem hit
      have heq : x = y := by
        refine h.eq_of_value_eq hmem (by simp) ?_
        rw [hv, hhit y (by simp) hy]
      rw [hl] at hx
      have hnodup := h.nodup
      rw [List.nodup_middle, List.nodup_cons, ← heq] at hnodup
      exact hnodup.1 hx
    · rintro ⟨hx, hne⟩
      refine (List.mem_eraseP_of_neg fun hit => ?_).mpr hx
      exact hne (hhit x hx hit)
  obtain ⟨d, hd, hfrom, hmem⟩ :=
    Bucket.exists_mem_insert (List.Pairwise.eraseP (Bucket.isHit e.mev) h) e r
  have hde : d = e := by
    rcases hfrom with rfl | ⟨q, hq⟩
    · rfl
    · exact absurd hd ((hrest _).mp hq).2
  unfold entered
  rw [hmem, hrest, hde]
  tauto

theorem category_set (m : TemperatureMap) (ref : RecordRef) (r : Record) :
    (m.set ref r).1.category = m.category := by
  unfold TemperatureMap.set
  split
  · rfl
  · split
    · rfl
    · split
      · rfl
      · dsimp only
        split
        · rfl
        · rfl

theorem category_setAll (m : TemperatureMap) (rs : List RecordRef) :
    (m.setAll records rs).category = m.category := by
  induction rs generalizing m with
  | nil => rfl
  | cons r rs ih => exact (ih _).trans (category_set m r _)

section
variable (category : String) (hrs : ∀ r ∈ rs, (records r).IsGraded)
include hrs

theorem setAll_sound : ((empty category).setAll records rs).Sound (Belongs records) :=
  (Sound.empty category).setAll hrs

/-- The entries of a bucket are the records set last at its addresses, each with its own energy. -/
theorem mem_entriesAt_iff (hsep : Separated records rs) (k₁ k₂ : Key) (x : Energy × RecordRef) :
    x ∈ ((empty category).setAll records rs).entriesAt k₁ k₂ ↔
      (records x.2).energy? = some x.1 ∧ lastAt records rs ⟨k₁, k₂, x.1.value⟩ = some x.2 := by
  induction rs using List.reverseRecOn generalizing x with
  | nil =>
    refine ⟨fun h => (by cases h), ?_⟩
    rintro ⟨-, h⟩
    cases h
  | append_singleton rs r ih =>
    have hrs' : ∀ q ∈ rs, (records q).IsGraded := fun q hq => hrs q (List.mem_append_left _ hq)
    have ih := ih hrs' hsep.left
    have hr : r ∈ rs ++ [r] := List.mem_append_right _ (List.mem_singleton_self r)
    have hm := setAll_sound category hrs'
    obtain ⟨l₁, l₂, e, hl₁, hl₂, he, heq⟩ := hm.set_eq r (hrs r hr)
    have h₁ : (records r).fileType.key? = some l₁.key := hl₁ ▸ l₁.key_shown
    have h₂ : (records r).fileVersion.key? = some l₂.key := hl₂ ▸ l₂.key_shown
    have haddress : (records r).address? = some ⟨k₁, k₂, x.1.value⟩ ↔
        (l₁.key = k₁ ∧ l₂.key = k₂) ∧ e.value = x.1.value := by
      rw [Record.address?_eq_some_iff, h₁, h₂, he]
      simp [and_assoc]
    rw [setAll_snoc, heq, entriesAt_enter, lastAt_snoc]
    by_cases hk : l₁.key = k₁ ∧ l₂.key = k₂
    · obtain ⟨rfl, rfl⟩ := hk
      -- as energies are separated, the new one hits none but entries of its own energy
      have hhit : ∀ y ∈ ((empty category).setAll records rs).entriesAt l₁.key l₂.key,
          Bucket.isHit e.mev y = true → y.1.value = e.value := by
        intro y hy hit
        obtain ⟨hd, hlast⟩ := (ih y).mp hy
        obtain ⟨hq, ha⟩ := mem_of_lastAt hlast
        have hb : (records r).address? = some ⟨l₁.key, l₂.key, e.value⟩ :=
          (Record.address?_eq_some_iff _ _).mpr ⟨h₁, h₂, e, he, rfl⟩
        rcases hsep.apart (List.mem_append_left _ hq) hr ha hb hd he with hv | hmiss
        · exact hv
        · rw [show Bucket.isHit e.mev y = false from hmiss] at hit
          cases hit
      rw [if_pos ⟨rfl, rfl⟩, mem_entered_iff (hm.ascending _ _) hhit, ih x]
      by_cases hv : e.value = x.1.value
      · rw [if_pos (haddress.mpr ⟨⟨rfl, rfl⟩, hv⟩)]
        constructor
        · rintro (rfl | ⟨-, hne⟩)
          · exact ⟨he, rfl⟩
          · exact absurd hv.symm hne
        · rintro ⟨hx, hlast⟩
          cases hlast
          rw [he] at hx
          cases hx
          exact Or.inl rfl
      · rw [if_neg fun h => hv (haddress.mp h).2]
        constructor
        · rintro (rfl | ⟨hx, -⟩)
          · exact absurd rfl hv
          · exact hx
        · intro hx
          exact Or.inr ⟨hx, Ne.symm hv⟩
    · rw [if_neg hk, if_neg fun h => hk (haddress.mp h).1, ih]

end

/-! ## Counting records -/

theorem Belongs.address {x : Energy × RecordRef} (h : Belongs records k₁ k₂ x) :
    (records x.2).address? = some ⟨k₁, k₂, x.1.value⟩ :=
  (Record.address?_eq_some_iff _ _).mpr ⟨h.fileType, h.version, h.energy⟩

theorem Sound.mem_records_iff (h : m.Sound (Belongs records)) (r : RecordRef) :
    r ∈ m.records ↔ ∃ k₁ k₂, ∃ x ∈ m.entriesAt k₁ k₂, x.2 = r := by
  simp only [TemperatureMap.records, List.mem_flatMap, h.filed.mem_items_iff]
  constructor
  · intro hr
    obtain ⟨b, ⟨k₁, k₂, hat⟩, hr⟩ := hr
    rw [(h.bucket_of_at? hat).graded] at hr
    obtain ⟨x, hx, hxr⟩ := List.mem_map.mp hr
    refine ⟨k₁, k₂, x, ?_, hxr⟩
    simpa [entriesAt, hat] using hx
  · intro hr
    obtain ⟨k₁, k₂, x, hx, rfl⟩ := hr
    have hat := h.at?_eq k₁ k₂
    rw [if_neg (List.ne_nil_of_mem hx)] at hat
    exact ⟨_, ⟨k₁, k₂, hat⟩, List.mem_map.mpr ⟨x, hx, rfl⟩⟩

theorem Sound.nodup_addresses (h : m.Sound (Belongs records)) :
    (m.records.map fun r => (records r).address?).Nodup := by
  have haddress : ∀ {k₁ k₂ : Key} {b : Bucket}, Bucket.Sound (Belongs records) k₁ k₂ b →
      ∀ a ∈ b.records.map fun r => (records r).address?, ∃ v, a = some ⟨k₁, k₂, v⟩ := by
    intro k₁ k₂ b hb a ha
    rw [hb.graded, Bucket.records, List.map_map] at ha
    obtain ⟨x, hx, rfl⟩ := List.mem_map.mp ha
    exact ⟨_, Belongs.address (hb.belongs x hx)⟩
  rw [TemperatureMap.records, List.map_flatMap]
  refine List.nodup_flatMap.mpr ⟨?_, h.filed.pairwise_items ?_⟩
  · intro b hb
    obtain ⟨k₁, k₂, hat⟩ := (h.filed.mem_items_iff b).mp hb
    have hb := h.bucket_of_at? hat
    rw [hb.graded, Bucket.records, List.map_map, List.Nodup, List.pairwise_map]
    refine hb.ascending.imp_of_mem fun {x y} hx hy hlt heq => ?_
    simp only [Function.comp_apply, Belongs.address (hb.belongs x hx),
      Belongs.address (hb.belongs y hy), Option.some.injEq, Address.mk.injEq] at heq
    exact hlt.ne heq.2.2
  · intro k₁ k₂ b l₁ l₂ c hb hc hne a ha ha'
    obtain ⟨v, rfl⟩ := haddress (h.bucket_of_at? hb) a ha
    obtain ⟨w, hw⟩ := haddress (h.bucket_of_at? hc) _ ha'
    simp only [Option.some.injEq, Address.mk.injEq] at hw
    exact hne (by rw [hw.1, hw.2.1])

/-! ## The map of last records -/

section
variable (category : String) (hrs : ∀ r ∈ rs, (records r).IsGraded) (hsep : Separated records rs)
include hrs hsep

theorem exists_entry {r : RecordRef} (hr : r ∈ rs) {a : Address}
    (ha : (records r).address? = some a) :
    ∃ x ∈ ((empty category).setAll records rs).entriesAt a.fileType a.version,
      x.1.value = a.mev ∧ lastAt records rs a = some x.2 := by
  obtain ⟨q, hq⟩ := exists_lastAt hr ha
  obtain ⟨-, hqa⟩ := mem_of_lastAt hq
  obtain ⟨-, -, e, he, hv⟩ := (Record.address?_eq_some_iff _ _).mp hqa
  refine ⟨(e, q), (mem_entriesAt_iff category hrs hsep _ _ _).mpr ⟨he, ?_⟩, hv, hq⟩
  rw [hv]
  exact hq

theorem get_last {r : RecordRef} (hr : r ∈ rs) {e : Energy} (he : (records r).energy? = some e)
    {fileType version t : Value} (h₁ : fileType.key? = (records r).fileType.key?)
    (h₂ : version.key? = (records r).fileVersion.key?) (ht : t.toMev = .ok e.mev) :
    ∃ a q, (records r).address? = some a ∧ lastAt records rs a = some q ∧
      (((empty category).setAll records rs).get fileType version t true).result = .ok q := by
  have hm := setAll_sound category hrs
  obtain ⟨_, _, _, _, _, hft, hfv, -⟩ := (hrs r hr).fields
  obtain ⟨k₁, hk₁⟩ : ∃ k, (records r).fileType.key? = some k := by rw [hft]; exact ⟨_, rfl⟩
  obtain ⟨k₂, hk₂⟩ : ∃ k, (records r).fileVersion.key? = some k := by rw [hfv]; exact ⟨_, rfl⟩
  have ha : (records r).address? = some ⟨k₁, k₂, e.value⟩ :=
    (Record.address?_eq_some_iff _ _).mpr ⟨hk₁, hk₂, e, he, rfl⟩
  obtain ⟨x, hx, hv, hlast⟩ := exists_entry category hrs hsep hr ha
  obtain ⟨y, hy, hget, hiff⟩ := hm.get_stored (h₁.trans hk₁) (h₂.trans hk₂) hx hv ht
  refine ⟨_, x.2, ha, hlast, ?_⟩
  rw [hget, hiff.mpr]
  intro z hz
  obtain ⟨hd, hzlast⟩ := (mem_entriesAt_iff category hrs hsep _ _ z).mp hz
  obtain ⟨hzmem, hza⟩ := mem_of_lastAt hzlast
  unfold Energy.shadows
  rcases hsep.apart hzmem hr hza ha hd he with hvalue | hmiss
  · have hlt : ¬ z.1.mev < e.mev := by
      rw [z.1.lt_iff, hvalue]
      exact lt_irrefl _
    simp only [hlt, decide_false, Bool.false_and]
  · rw [hmiss, Bool.and_false]

theorem size_eq : (RecordMap.temperature ((empty category).setAll records rs)).size =
    (rs.map fun r => (records r).address?).dedup.length := by
  have hm := setAll_sound category hrs
  have hperm : (((empty category).setAll records rs).records.map fun r => (records r).address?).Perm
      (rs.map fun r => (records r).address?).dedup := by
    refine (List.perm_ext_iff_of_nodup hm.nodup_addresses (List.nodup_dedup _)).mpr fun a => ?_
    rw [List.mem_dedup, List.mem_map, List.mem_map]
    constructor
    · rintro ⟨r, hr, rfl⟩
      obtain ⟨k₁, k₂, x, hx, rfl⟩ := (hm.mem_records_iff r).mp hr
      obtain ⟨-, hlast⟩ := (mem_entriesAt_iff category hrs hsep _ _ _).mp hx
      exact ⟨x.2, (mem_of_lastAt hlast).1, rfl⟩
    · rintro ⟨r, hr, rfl⟩
      obtain ⟨_, _, _, e, _, hft, hfv, het⟩ := (hrs r hr).fields
      have ha : (records r).address? = some ⟨_, _, e.value⟩ :=
        (Record.address?_eq_some_iff _ ⟨_, _, _⟩).mpr
          ⟨by rw [hft]; rfl, by rw [hfv]; rfl, e, Record.energy?_of_energy het, rfl⟩
      obtain ⟨x, hx, -, hlast⟩ := exists_entry category hrs hsep hr ha
      refine ⟨x.2, (hm.mem_records_iff _).mpr ⟨_, _, x, hx, rfl⟩, ?_⟩
      rw [(mem_of_lastAt hlast).2, ha]
  have hlength := hperm.length_eq
  rw [List.length_map] at hlength
  exact hlength

theorem energies_last {fileType version : Value} (h₁ : fileType.key? = some k₁)
    (h₂ : version.key? = some k₂) :
    ∃ es, ((empty category).setAll records rs).energies fileType version = .ok es ∧
      (es.Pairwise fun d e => d.value < e.value) ∧
      ∀ v, v ∈ es.map Energy.value ↔ ∃ r ∈ rs, (records r).address? = some ⟨k₁, k₂, v⟩ := by
  have hm := setAll_sound category hrs
  refine ⟨_, energies_eq hm h₁ h₂, List.pairwise_map.mpr (hm.ascending k₁ k₂), fun v => ?_⟩
  rw [List.map_map, List.mem_map]
  constructor
  · rintro ⟨x, hx, rfl⟩
    obtain ⟨-, hlast⟩ := (mem_entriesAt_iff category hrs hsep _ _ _).mp hx
    exact ⟨x.2, mem_of_lastAt hlast⟩
  · rintro ⟨r, hr, ha⟩
    obtain ⟨x, hx, hv, -⟩ := exists_entry category hrs hsep hr ha
    exact ⟨x, hx, hv⟩

/-- Another order of the same sets leads to a map that answers alike. -/
theorem alike_of_reordered (hre : Reordered records rs rs') :
    ((empty category).setAll records rs).Alike ((empty category).setAll records rs') := by
  have hrs' : ∀ r ∈ rs', (records r).IsGraded := fun r hr => hrs r (hre.perm.mem_iff.mpr hr)
  have hsep' : Separated records rs' := fun r hr q hq =>
    hsep r (hre.perm.mem_iff.mpr hr) q (hre.perm.mem_iff.mpr hq)
  have hm := setAll_sound category hrs
  have hm' := setAll_sound category hrs'
  refine alike_of_entriesAt hm hm' (fun k₁ k₂ => ?_) ?_
  · refine (hm.ascending k₁ k₂).ext (hm'.ascending k₁ k₂) fun x => ?_
    rw [mem_entriesAt_iff category hrs hsep, mem_entriesAt_iff category hrs' hsep', hre.lastAt_eq]
  · rw [category_setAll, category_setAll]

end

/-- Sets of records whose temperatures are well separated make a finite map: the last record of each
address is found, addresses are counted, temperatures are listed ascending, and the order of sets at
different addresses makes no difference to any answer. -/
theorem last_write_wins (category : String) (rs : List RecordRef)
    (hrs : ∀ r ∈ rs, (records r).IsGraded) (hsep : Separated records rs) :
    (∀ r ∈ rs, ∀ e, (records r).energy? = some e → ∀ fileType version t : Value,
      fileType.key? = (records r).fileType.key? → version.key? = (records r).fileVersion.key? →
      t.toMev = .ok e.mev → ∃ a q, (records r).address? = some a ∧ lastAt records rs a = some q ∧
        (((empty category).setAll records rs).get fileType version t true).result = .ok q) ∧
    (RecordMap.temperature ((empty category).setAll records rs)).size =
      (rs.map fun r => (records r).address?).dedup.length ∧
    (∀ (fileType version : Value) k₁ k₂, fileType.key? = some k₁ → version.key? = some k₂ →
      ∃ es, ((empty category).setAll records rs).energies fileType version = .ok es ∧
        (es.Pairwise fun d e => d.value < e.value) ∧
        ∀ v, v ∈ es.map Energy.value ↔ ∃ r ∈ rs, (records r).address? = some ⟨k₁, k₂, v⟩) ∧
    ∀ rs', Reordered records rs rs' →
      ((empty category).setAll records rs).Alike ((empty category).setAll records rs') := by
  refine ⟨?_, size_eq category hrs hsep, ?_, ?_⟩
  · intro r hr e he fileType version t h₁ h₂ ht
    exact get_last category hrs hsep hr he h₁ h₂ ht
  · intro fileType version k₁ k₂ h₁ h₂
    exact energies_last category hrs hsep h₁ h₂
  · intro rs' hre
    exact alike_of_reordered category hrs hsep hre

/-! ## Two temperatures, one of them used twice -/

def cold : Energy := ⟨0.0, by decide +kernel⟩

def warm : Energy := ⟨1.0, Double.isMagnitude_one⟩

def couple (r : RecordRef) : Record := .hydrogen 0 ([cold].getD r.index warm)

theorem couple_energy {r : RecordRef} {e : Energy} (h : (couple r).energy? = some e) :
    e = cold ∨ e = warm := by
  obtain ⟨i⟩ := r
  cases i with
  | zero =>
    cases h
    exact Or.inl rfl
  | succ i =>
    cases h
    exact Or.inr rfl

theorem couple_separated (rs : List RecordRef) : Separated couple rs := by
  intro r _ q _ _ _ e f he hf
  have hapart : Grid.isMatch cold.mev warm.mev = false ∧ Grid.isMatch warm.mev cold.mev = false := by
    decide +kernel
  rcases couple_energy he with rfl | rfl
  · rcases couple_energy hf with rfl | rfl
    · exact Or.inl rfl
    · exact Or.inr hapart
  · rcases couple_energy hf with rfl | rfl
    · exact Or.inr hapart.symm
    · exact Or.inl rfl

theorem couple_reordered : Reordered couple [⟨0⟩, ⟨1⟩, ⟨2⟩] [⟨1⟩, ⟨0⟩, ⟨2⟩] := by
  refine ⟨List.Perm.swap _ _ _, fun a => ?_⟩
  have hlt : cold.mev < warm.mev := by decide +kernel
  have hne : ¬ ((couple ⟨0⟩).address? = some a ∧ (couple ⟨1⟩).address? = some a) := by
    rintro ⟨h₀, h₁⟩
    obtain ⟨-, -, d, hd, hv⟩ := (Record.address?_eq_some_iff _ _).mp h₀
    obtain ⟨-, -, e, he, hw⟩ := (Record.address?_eq_some_iff _ _).mp h₁
    cases hd
    cases he
    exact ((cold.lt_iff warm).mp hlt).ne (hv.trans hw.symm)
  by_cases h₀ : (couple ⟨0⟩).address? = some a
  · by_cases h₁ : (couple ⟨1⟩).address? = some a
    · exact absurd ⟨h₀, h₁⟩ hne
    · simp [List.filter_cons, h₀, h₁]
  · simp [List.filter_cons, h₀]

theorem last_write_wins_couple :
    (∀ r ∈ [(⟨0⟩ : RecordRef), ⟨1⟩, ⟨2⟩], (couple r).IsGraded) ∧
    Separated couple [⟨0⟩, ⟨1⟩, ⟨2⟩] ∧ Reordered couple [⟨0⟩, ⟨1⟩, ⟨2⟩] [⟨1⟩, ⟨0⟩, ⟨2⟩] ∧
    (∃ a, (couple ⟨1⟩).address? = some a ∧ lastAt couple [⟨0⟩, ⟨1⟩, ⟨2⟩] a = some ⟨2⟩ ∧
      (((empty "nuclear").setAll couple [⟨0⟩, ⟨1⟩, ⟨2⟩]).get (.text "ACE" .shared) (.int 0 .shared)
        (.energy warm .shared) true).result = .ok ⟨2⟩) ∧
    ((empty "nuclear").setAll couple [⟨0⟩, ⟨1⟩, ⟨2⟩]).Alike
      ((empty "nuclear").setAll couple [⟨1⟩, ⟨0⟩, ⟨2⟩]) := by
  have hgraded : ∀ r ∈ [(⟨0⟩ : RecordRef), ⟨1⟩, ⟨2⟩], (couple r).IsGraded :=
    fun r _ => Record.hydrogen_isGraded 0 _
  obtain ⟨hget, -, -, halike⟩ := last_write_wins "nuclear" _ hgraded (couple_separated _)
  refine ⟨hgraded, couple_separated _, couple_reordered, ?_, halike _ couple_reordered⟩
  obtain ⟨a, q, ha, hlast, hq⟩ := hget ⟨1⟩ (by simp) warm rfl (.text "ACE" .shared)
    (.int 0 .shared) (.energy warm .shared) rfl rfl rfl
  have hfound : (((empty "nuclear").setAll couple [⟨0⟩, ⟨1⟩, ⟨2⟩]).get (.text "ACE" .shared)
      (.int 0 .shared) (.energy warm .shared) true).result = .ok ⟨2⟩ := by
    with_unfolding_all rfl
  rw [hfound] at hq
  cases hq
  exact ⟨a, ha, hlast, hfound⟩

end TemperatureMap

end ScatteringData
