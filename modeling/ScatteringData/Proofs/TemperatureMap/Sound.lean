import Mathlib
import ScatteringData.Proofs.Bucket.Ascending
import ScatteringData.Proofs.Record.Built
import ScatteringData.Proofs.Table

/-!
# What setting records keeps of a map with temperatures

Setting records that were built keeps every bucket ascending and not empty, and every record under
keys that are its own. The entries of two keys then say all that a map answers about them.
-/

namespace ScatteringData

namespace Bucket

def entries : Bucket → List (Energy × RecordRef)
  | graded es => es
  | lone _ _ => []

end Bucket

/-- A record belongs under a file type, a version and an energy that equal its own. -/
structure Belongs (records : RecordRef → Record) (k₁ k₂ : Key) (x : Energy × RecordRef) : Prop where
  graded : (records x.2).IsGraded
  fileType : (records x.2).fileType.key? = some k₁
  version : (records x.2).fileVersion.key? = some k₂
  energy : ∃ e, (records x.2).energy? = some e ∧ e.value = x.1.value

section
variable (B : Key → Key → Energy × RecordRef → Prop)

structure Bucket.Sound (k₁ k₂ : Key) (b : Bucket) : Prop where
  graded : b = .graded b.entries
  nonempty : b.entries ≠ []
  ascending : Bucket.Ascending b.entries
  belongs : ∀ x ∈ b.entries, B k₁ k₂ x

namespace TemperatureMap

structure SoundShelf (k₁ : Key) (shelf : Table Bucket) : Prop where
  distinct : shelf.Distinct
  nonempty : shelf.entries ≠ []
  labels : ∀ e ∈ shelf.entries, ∃ n mark, e.1.shown = .int n mark
  buckets : ∀ e ∈ shelf.entries, Bucket.Sound B k₁ e.1.key e.2

structure Sound (m : TemperatureMap) : Prop where
  distinct : m.shelves.Distinct
  labels : ∀ e ∈ m.shelves.entries, ∃ t, e.1.shown = .fileType t
  shelves : ∀ e ∈ m.shelves.entries, SoundShelf B e.1.key e.2

end TemperatureMap

end

namespace TemperatureMap

section
variable (records : RecordRef → Record)

def setAll (m : TemperatureMap) (rs : List RecordRef) : TemperatureMap :=
  rs.foldl (fun m r => (m.set r (records r)).1) m

/-- The maps that come of the empty one by setting records that were built. -/
inductive Reachable : TemperatureMap → Prop
  | empty (category : String) : Reachable (empty category)
  | set {m : TemperatureMap} {r : RecordRef} (h : Reachable m) (hr : (records r).IsGraded) :
    Reachable (m.set r (records r)).1

end

/-- The entries of the bucket of two keys. -/
def entriesAt (m : TemperatureMap) (k₁ k₂ : Key) : List (Energy × RecordRef) :=
  ((m.shelves.at? k₁ k₂).map Bucket.entries).getD []

def entered (es : List (Energy × RecordRef)) (e : Energy) (r : RecordRef) :
    List (Energy × RecordRef) :=
  Bucket.insert e r (es.eraseP (Bucket.isHit e.mev))

def enter (m : TemperatureMap) (l₁ l₂ : Label) (e : Energy) (r : RecordRef) : TemperatureMap :=
  let b := Bucket.graded (entered (m.entriesAt l₁.key l₂.key) e r)
  { m with shelves := m.shelves.putAt l₁ l₂ b }

variable {B : Key → Key → Energy × RecordRef → Prop} {m : TemperatureMap}

/-! ## The parts of a sound map -/

theorem Sound.shelf_of_get? (h : m.Sound B) {k₁ : Key} {shelf : Table Bucket}
    (hs : Table.get? m.shelves k₁ = some shelf) : SoundShelf B k₁ shelf := by
  obtain ⟨l, hl, rfl⟩ := Table.mem_of_get? hs
  exact h.shelves _ hl

theorem Sound.bucket_of_at? (h : m.Sound B) {k₁ k₂ : Key} {b : Bucket}
    (hb : m.shelves.at? k₁ k₂ = some b) : Bucket.Sound B k₁ k₂ b := by
  obtain ⟨shelf, hs, hb⟩ := Option.bind_eq_some_iff.mp hb
  obtain ⟨l, hl, rfl⟩ := Table.mem_of_get? hb
  exact (h.shelf_of_get? hs).buckets _ hl

theorem Sound.at?_eq (h : m.Sound B) (k₁ k₂ : Key) :
    m.shelves.at? k₁ k₂ =
      if m.entriesAt k₁ k₂ = [] then none else some (.graded (m.entriesAt k₁ k₂)) := by
  unfold entriesAt
  cases hb : m.shelves.at? k₁ k₂ with
  | none => rfl
  | some b =>
    have hsound := h.bucket_of_at? hb
    rw [Option.map_some, Option.getD_some, if_neg hsound.nonempty, ← hsound.graded]

theorem Sound.ascending (h : m.Sound B) (k₁ k₂ : Key) :
    Bucket.Ascending (m.entriesAt k₁ k₂) := by
  unfold entriesAt
  cases hb : m.shelves.at? k₁ k₂ with
  | none => exact List.Pairwise.nil
  | some b => exact (h.bucket_of_at? hb).ascending

theorem Sound.belongs (h : m.Sound B) {k₁ k₂ : Key} {x : Energy × RecordRef}
    (hx : x ∈ m.entriesAt k₁ k₂) : B k₁ k₂ x := by
  unfold entriesAt at hx
  cases hb : m.shelves.at? k₁ k₂ with
  | none =>
    rw [hb] at hx
    cases hx
  | some b =>
    rw [hb] at hx
    exact (h.bucket_of_at? hb).belongs x hx

theorem Sound.not_null (h : m.Sound B) {k₁ k₂ : Key} {x : Energy × RecordRef}
    (hx : x ∈ m.entriesAt k₁ k₂) : k₁ ≠ .null ∧ k₂ ≠ .null := by
  have hat := h.at?_eq k₁ k₂
  rw [if_neg (List.ne_nil_of_mem hx)] at hat
  obtain ⟨shelf, hs, hb⟩ := Option.bind_eq_some_iff.mp hat
  obtain ⟨l₁, hl₁, rfl⟩ := Table.mem_of_get? hs
  obtain ⟨l₂, hl₂, rfl⟩ := Table.mem_of_get? hb
  obtain ⟨t, ht⟩ := h.labels _ hl₁
  obtain ⟨n, mark, hn⟩ := (h.shelves _ hl₁).labels _ hl₂
  have h₁ := l₁.key_shown
  have h₂ := l₂.key_shown
  rw [show l₁.shown = .fileType t from ht] at h₁
  rw [show l₂.shown = .int n mark from hn] at h₂
  rw [← Option.some.inj h₁, ← Option.some.inj h₂]
  exact ⟨by simp, by simp⟩

/-! ## Setting a record -/

theorem entered_sound {k₁ k₂ : Key} {es : List (Energy × RecordRef)} {e : Energy} {r : RecordRef}
    (hasc : Bucket.Ascending es) (hes : ∀ x ∈ es, B k₁ k₂ x)
    (hr : ∀ d : Energy, d.value = e.value → B k₁ k₂ (d, r)) :
    Bucket.Sound B k₁ k₂ (.graded (entered es e r)) := by
  have hrest : Bucket.Ascending (es.eraseP (Bucket.isHit e.mev)) := List.Pairwise.eraseP _ hasc
  obtain ⟨d, hd, -, hmem⟩ := Bucket.exists_mem_insert hrest e r
  refine ⟨rfl, ?_, hrest.insert e r, ?_⟩
  · exact List.ne_nil_of_mem ((hmem (d, r)).mpr (Or.inl rfl))
  · intro x hx
    rcases (hmem x).mp hx with rfl | ⟨hx, -⟩
    · exact hr d hd
    · exact hes x (List.mem_of_mem_eraseP hx)

/-- What setting a record with all three keys does to entries that are there or to an empty bucket. -/
theorem set_graded {m : TemperatureMap} {r : Record} {l₁ l₂ : Label} {e : Energy} {mark : Mark}
    {es : List (Energy × RecordRef)} (h₁ : l₁.shown = r.fileType) (h₂ : l₂.shown = r.fileVersion)
    (he : r.evaluationTemperature = some (.energy e mark))
    (hes : (m.shelves.at? l₁.key l₂.key).getD .empty = .graded es) (ref : RecordRef) :
    m.set ref r =
      ({ m with shelves := m.shelves.putAt l₁ l₂ (.graded (entered es e ref)) },
        ⟨m.setEntries r (.energy e) (es.any (Bucket.isHit e.mev)), .ok ()⟩) := by
  have hat : (((Table.get? m.shelves l₁.key).getD Table.empty).get? l₂.key).getD .empty =
      .graded es := by
    rw [← hes, Shelves.at?]
    cases Table.get? m.shelves l₁.key with
    | none => rfl
    | some shelf => rfl
  have hlabel₁ : Label.ofValue r.fileType = .ok l₁ := h₁ ▸ l₁.ofValue_shown
  have hlabel₂ : Label.ofValue r.fileVersion = .ok l₂ := h₂ ▸ l₂.ofValue_shown
  unfold TemperatureMap.set
  simp only [hlabel₁, hlabel₂, Record.grade_of_energy he, hat, Bucket.set_energy]
  rfl

/-- What setting a record that was built does: its bucket gets it, and nothing else changes. -/
theorem Sound.set_eq (h : m.Sound B) (ref : RecordRef) {r : Record} (hr : r.IsGraded) :
    ∃ (l₁ l₂ : Label) (e : Energy), l₁.shown = r.fileType ∧ l₂.shown = r.fileVersion ∧
      r.energy? = some e ∧
      m.set ref r =
        (m.enter l₁ l₂ e ref, ⟨m.setEntries r (.energy e)
          ((m.entriesAt l₁.key l₂.key).any (Bucket.isHit e.mev)), .ok ()⟩) := by
  obtain ⟨t, n, mark, e, mark', ht, hn, he⟩ := hr.fields
  have h₁ : r.fileType.key? = some (.text t.text) := by rw [ht]; rfl
  have h₂ : r.fileVersion.key? = some (.number (.int n)) := by rw [hn]; rfl
  refine ⟨⟨_, _, h₁⟩, ⟨_, _, h₂⟩, e, rfl, rfl, Record.energy?_of_energy he, ?_⟩
  refine set_graded rfl rfl he ?_ ref
  rw [h.at?_eq]
  split
  · rename_i hnil
    rw [hnil]
    rfl
  · rfl

theorem entriesAt_enter (m : TemperatureMap) (l₁ l₂ : Label) (e : Energy) (r : RecordRef)
    (k₁ k₂ : Key) :
    (m.enter l₁ l₂ e r).entriesAt k₁ k₂ =
      if l₁.key = k₁ ∧ l₂.key = k₂ then entered (m.entriesAt k₁ k₂) e r else m.entriesAt k₁ k₂ := by
  unfold enter
  rw [entriesAt, Shelves.at?_putAt]
  by_cases h : l₁.key = k₁ ∧ l₂.key = k₂
  · obtain ⟨rfl, rfl⟩ := h
    rw [if_pos ⟨rfl, rfl⟩, if_pos ⟨rfl, rfl⟩]
    rfl
  · rw [if_neg h, if_neg h]
    rfl

theorem Sound.empty (category : String) : (empty category).Sound B :=
  ⟨Table.Distinct.empty, (fun _ he => by cases he), (fun _ he => by cases he)⟩

theorem SoundShelf.put {k₁ : Key} {shelf : Table Bucket} {l : Label} {b : Bucket}
    (h : shelf = Table.empty ∨ SoundShelf B k₁ shelf)
    (hl : ∃ n mark, l.shown = .int n mark) (hb : Bucket.Sound B k₁ l.key b) :
    SoundShelf B k₁ (shelf.put l b) := by
  have hparts : shelf.Distinct ∧
      (∀ e ∈ shelf.entries, ∃ n mark, e.1.shown = .int n mark) ∧
      ∀ e ∈ shelf.entries, Bucket.Sound B k₁ e.1.key e.2 := by
    rcases h with rfl | h
    · exact ⟨Table.Distinct.empty, (fun _ he => by cases he), (fun _ he => by cases he)⟩
    · exact ⟨h.distinct, h.labels, h.buckets⟩
  obtain ⟨hdistinct, hlabels, hbuckets⟩ := hparts
  refine ⟨hdistinct.put l b, fun hnil => ?_, fun e he => ?_, fun e he => ?_⟩
  · have hk : l.key ∈ (shelf.put l b).keys := (Table.mem_keys_put shelf l b l.key).mpr (Or.inl rfl)
    rw [Table.keys, hnil] at hk
    cases hk
  · rcases Table.mem_put he with he | ⟨-, -, he | he⟩
    · exact hlabels e he
    · rw [he]
      exact hl
    · obtain ⟨e', he', heq⟩ := List.mem_map.mp he
      rw [← heq]
      exact hlabels e' he'
  · rcases Table.mem_put he with he | ⟨he, hk, -⟩
    · exact hbuckets e he
    · rw [he, hk]
      exact hb

theorem Sound.enter (h : m.Sound B) {l₁ l₂ : Label} {e : Energy} {r : RecordRef}
    (hl₁ : ∃ t, l₁.shown = .fileType t) (hl₂ : ∃ n mark, l₂.shown = .int n mark)
    (hr : ∀ d : Energy, d.value = e.value → B l₁.key l₂.key (d, r)) :
    (m.enter l₁ l₂ e r).Sound B := by
  have hb := entered_sound (h.ascending l₁.key l₂.key) (fun x hx => h.belongs hx) hr
  have hshelf : SoundShelf B l₁.key (((Table.get? m.shelves l₁.key).getD Table.empty).put l₂
      (.graded (entered (m.entriesAt l₁.key l₂.key) e r))) := by
    refine SoundShelf.put ?_ hl₂ hb
    cases hs : Table.get? m.shelves l₁.key with
    | none => exact Or.inl rfl
    | some shelf => exact Or.inr (h.shelf_of_get? hs)
  refine ⟨h.distinct.put l₁ _, fun d hd => ?_, fun d hd => ?_⟩
  · rcases Table.mem_put hd with hd | ⟨-, -, hd | hd⟩
    · exact h.labels d hd
    · rw [hd]
      exact hl₁
    · obtain ⟨d', hd', heq⟩ := List.mem_map.mp hd
      rw [← heq]
      exact h.labels d' hd'
  · rcases Table.mem_put hd with hd | ⟨hd, hk, -⟩
    · exact h.shelves d hd
    · rw [hd, hk]
      exact hshelf

theorem Sound.set_of (h : m.Sound B) (ref : RecordRef) {r : Record} (hr : r.IsGraded)
    (hB : ∀ k₁ k₂ e d, r.fileType.key? = some k₁ → r.fileVersion.key? = some k₂ →
      r.energy? = some e → d.value = e.value → B k₁ k₂ (d, ref)) : (m.set ref r).1.Sound B := by
  obtain ⟨l₁, l₂, e, h₁, h₂, he, heq⟩ := h.set_eq ref hr
  obtain ⟨t, n, mark, -, -, ht, hn, -⟩ := hr.fields
  rw [heq]
  refine h.enter ⟨t, h₁.trans ht⟩ ⟨n, mark, h₂.trans hn⟩ fun d hd => hB _ _ e d ?_ ?_ he hd
  · rw [← h₁]
    exact l₁.key_shown
  · rw [← h₂]
    exact l₂.key_shown

variable {records : RecordRef → Record}

theorem Sound.set (h : m.Sound (Belongs records)) {r : RecordRef} (hr : (records r).IsGraded) :
    (m.set r (records r)).1.Sound (Belongs records) :=
  h.set_of r hr fun _ _ e _ h₁ h₂ he hd => ⟨hr, h₁, h₂, e, he, hd.symm⟩

theorem Reachable.sound (h : m.Reachable records) : m.Sound (Belongs records) := by
  induction h with
  | empty category => exact Sound.empty category
  | set _ hr ih => exact ih.set hr

theorem Sound.setAll (h : m.Sound (Belongs records)) {rs : List RecordRef}
    (hrs : ∀ r ∈ rs, (records r).IsGraded) : (m.setAll records rs).Sound (Belongs records) := by
  induction rs generalizing m with
  | nil => exact h
  | cons r rs ih =>
    exact ih (h.set (hrs r (List.mem_cons_self ..))) fun q hq => hrs q (List.mem_cons_of_mem _ hq)

end TemperatureMap

end ScatteringData
