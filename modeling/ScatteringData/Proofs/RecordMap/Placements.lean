import Mathlib
import ScatteringData.Proofs.RecordMap.Places
import ScatteringData.Proofs.RecordMap.Related

/-!
# Records in their places

The records of a map with the keys under which it holds them. Setting a record adds one placement, whose
keys are the fields of the record, and replacing the records of a map changes no key.
-/

namespace ScatteringData

/-- A record and the keys under which a map holds it. Some maps have no names, and some no energies. -/
structure Placement where
  name : Option Key
  fileType : Key
  version : Key
  energy : Option Energy
  record : RecordRef

def Shelves.spots {α : Type} (s : Shelves α) : List (Key × Key × α) :=
  s.entries.flatMap fun e => e.2.entries.map fun d => (e.1.key, d.1.key, d.2)

def Bucket.placed : Bucket → List (Option Energy × RecordRef)
  | graded es => es.map fun x => (some x.1, x.2)
  | lone _ r => [(none, r)]

def VersionedMap.placements (m : VersionedMap) : List Placement :=
  m.shelves.spots.map fun x => ⟨none, x.1, x.2.1, none, x.2.2⟩

def TemperatureMap.placements (m : TemperatureMap) (name : Option Key) : List Placement :=
  m.shelves.spots.flatMap fun x => x.2.2.placed.map fun y => ⟨name, x.1, x.2.1, y.1, y.2⟩

def NamedMap.placements (m : NamedMap) : List Placement :=
  m.maps.entries.flatMap fun e => e.2.placements (some e.1.key)

def RecordMap.placements : RecordMap → List Placement
  | versioned m => m.placements
  | temperature m => m.placements none
  | named m => m.placements

/-! ## Members -/

theorem Shelves.mem_spots {α : Type} {s : Shelves α} {x : Key × Key × α} :
    x ∈ s.spots ↔ ∃ e ∈ s.entries, ∃ d ∈ e.2.entries, (e.1.key, d.1.key, d.2) = x := by
  simp only [spots, List.mem_flatMap, List.mem_map]

theorem VersionedMap.mem_placements {m : VersionedMap} {p : Placement} :
    p ∈ m.placements ↔ ∃ e ∈ m.shelves.entries, ∃ d ∈ e.2.entries,
      ⟨none, e.1.key, d.1.key, none, d.2⟩ = p := by
  simp only [placements, List.mem_map, Shelves.mem_spots]
  constructor
  · rintro ⟨_, ⟨e, he, d, hd, rfl⟩, rfl⟩
    exact ⟨e, he, d, hd, rfl⟩
  · rintro ⟨e, he, d, hd, rfl⟩
    exact ⟨_, ⟨e, he, d, hd, rfl⟩, rfl⟩

theorem TemperatureMap.mem_placements {m : TemperatureMap} {name : Option Key} {p : Placement} :
    p ∈ m.placements name ↔ ∃ e ∈ m.shelves.entries, ∃ d ∈ e.2.entries, ∃ x ∈ d.2.placed,
      ⟨name, e.1.key, d.1.key, x.1, x.2⟩ = p := by
  simp only [placements, List.mem_flatMap, List.mem_map, Shelves.mem_spots]
  constructor
  · rintro ⟨_, ⟨e, he, d, hd, rfl⟩, x, hx, rfl⟩
    exact ⟨e, he, d, hd, x, hx, rfl⟩
  · rintro ⟨e, he, d, hd, x, hx, rfl⟩
    exact ⟨_, ⟨e, he, d, hd, rfl⟩, x, hx, rfl⟩

theorem Bucket.placed_records (b : Bucket) : b.placed.map (·.2) = b.records := by
  cases b with
  | graded es => rw [placed, List.map_map]; rfl
  | lone text r => rfl

theorem TemperatureMap.placements_records (m : TemperatureMap) (name : Option Key) :
    (m.placements name).map (·.record) = m.records := by
  unfold placements TemperatureMap.records Shelves.items Table.contents Shelves.spots
  simp only [List.map_flatMap, List.map_map, List.flatMap_map, List.flatMap_assoc,
    ← Bucket.placed_records]
  rfl

theorem RecordMap.placements_records (m : RecordMap) : m.placements.map (·.record) = m.records := by
  cases m with
  | versioned m =>
    change m.placements.map (·.record) = m.shelves.items
    unfold VersionedMap.placements Shelves.items Table.contents Shelves.spots
    simp only [List.map_flatMap, List.map_map, List.flatMap_map]
    rfl
  | temperature m => exact m.placements_records none
  | named m =>
    change m.placements.map (·.record) = m.maps.contents.flatMap TemperatureMap.records
    unfold NamedMap.placements Table.contents
    simp only [List.map_flatMap, List.flatMap_map, TemperatureMap.placements_records]

theorem RecordMap.placements_empty (shape : Shape) (category : String) :
    (empty shape category).placements = [] := by
  cases shape <;> rfl

/-! ## Setting a record -/

/-- The keys of a placement are the fields of a record. A name that refers to objects need not be the
field unless all names are. -/
structure Placement.Fits (allNames : Prop) (shape : Shape) (p : Placement) (r : Record) : Prop where
  fileType : r.fileType.key? = some p.fileType
  version : r.fileVersion.key? = some p.version
  energy : shape ≠ .versioned →
    ∃ d e, p.energy = some d ∧ r.energy? = some e ∧ d.value = e.value
  name : shape = .named →
    ∃ k v, p.name = some k ∧ r.name = some v ∧ (allNames ∨ v.nodes = [] → v.key? = some k)

namespace Shelves

variable {α : Type} {s : Shelves α}

theorem mem_spots_shelf {k : Key} {d : Label × α}
    (hd : d ∈ ((Table.get? s k).getD Table.empty).entries) : (k, d.1.key, d.2) ∈ s.spots := by
  cases hs : Table.get? s k with
  | none =>
    rw [hs] at hd
    cases hd
  | some shelf =>
    rw [hs] at hd
    obtain ⟨l, hl, rfl⟩ := Table.mem_of_get? hs
    exact mem_spots.mpr ⟨(l, shelf), hl, d, hd, rfl⟩

theorem mem_spots_addShelf {l : Label} {x : Key × Key × α} (h : x ∈ (s.addShelf l).spots) :
    x ∈ s.spots := by
  obtain ⟨e, he, d, hd, rfl⟩ := mem_spots.mp h
  rcases Table.mem_put he with he | ⟨heq, hk, -⟩
  · exact mem_spots.mpr ⟨e, he, d, hd, rfl⟩
  · rw [hk]
    exact mem_spots_shelf (heq ▸ hd)

theorem mem_spots_putAt {l₁ l₂ : Label} {a : α} {x : Key × Key × α}
    (h : x ∈ (s.putAt l₁ l₂ a).spots) : x ∈ s.spots ∨ x = (l₁.key, l₂.key, a) := by
  obtain ⟨e, he, d, hd, rfl⟩ := mem_spots.mp h
  rcases Table.mem_put he with he | ⟨heq, hk, -⟩
  · exact Or.inl (mem_spots.mpr ⟨e, he, d, hd, rfl⟩)
  · rw [heq] at hd
    rw [hk]
    rcases Table.mem_put hd with hd | ⟨heq', hk', -⟩
    · exact Or.inl (mem_spots_shelf hd)
    · exact Or.inr (by rw [hk', heq'])

theorem mem_spots_of_at? {k₁ k₂ : Key} {a : α} (h : s.at? k₁ k₂ = some a) : (k₁, k₂, a) ∈ s.spots := by
  obtain ⟨shelf, hs, ha⟩ := Option.bind_eq_some_iff.mp h
  obtain ⟨l, hl, rfl⟩ := Table.mem_of_get? hs
  obtain ⟨l', hl', rfl⟩ := Table.mem_of_get? ha
  exact mem_spots.mpr ⟨_, hl, _, hl', rfl⟩

end Shelves

section
variable {ref : RecordRef} {r : Record} {p : Placement} (allNames : Prop)

theorem VersionedMap.mem_placements_set {m : VersionedMap} (h : p ∈ (m.set ref r).1.placements) :
    p ∈ m.placements ∨ p.record = ref ∧ p.Fits allNames .versioned r := by
  unfold VersionedMap.set at h
  split at h
  · exact Or.inl h
  · rename_i l₁ h₁
    split at h
    · obtain ⟨x, hx, rfl⟩ := List.mem_map.mp h
      exact Or.inl (List.mem_map_of_mem (Shelves.mem_spots_addShelf hx))
    · rename_i l₂ h₂
      obtain ⟨x, hx, rfl⟩ := List.mem_map.mp h
      rcases Shelves.mem_spots_putAt hx with hx | rfl
      · exact Or.inl (List.mem_map_of_mem hx)
      · exact Or.inr ⟨rfl, Label.key_of_ofValue h₁, Label.key_of_ofValue h₂,
          fun hshape => absurd rfl hshape, fun hshape => by cases hshape⟩

theorem Bucket.value_of_mem_insert {e : Energy} {es : List (Energy × RecordRef)}
    {x : Energy × RecordRef} (hx : x ∈ Bucket.insert e ref es) :
    x ∈ es ∨ x.2 = ref ∧ x.1.value = e.value := by
  induction es with
  | nil =>
    cases List.mem_singleton.mp hx
    exact Or.inr ⟨rfl, rfl⟩
  | cons y es ih =>
    unfold Bucket.insert at hx
    split at hx
    · rcases List.mem_cons.mp hx with rfl | hx
      · exact Or.inr ⟨rfl, rfl⟩
      · exact Or.inl hx
    · split at hx
      · rename_i heq
        rcases List.mem_cons.mp hx with rfl | hx
        · exact Or.inr ⟨rfl, ((e.beq_iff y.1).mp heq).symm⟩
        · exact Or.inl (List.mem_cons_of_mem _ hx)
      · rcases List.mem_cons.mp hx with rfl | hx
        · exact Or.inl (List.mem_cons_self ..)
        · exact (ih hx).imp_left (List.mem_cons_of_mem _)

theorem Bucket.mem_placed_set {b b' : Bucket} {e : Energy} {replaced : Bool}
    (hb : b.set (.energy e) ref = .ok (b', replaced)) {x : Option Energy × RecordRef}
    (hx : x ∈ b'.placed) : x ∈ b.placed ∨ x.2 = ref ∧ ∃ d, x.1 = some d ∧ d.value = e.value := by
  cases b with
  | lone text q => cases hb
  | graded es =>
    rw [Bucket.set_energy] at hb
    cases hb
    obtain ⟨y, hy, rfl⟩ := List.mem_map.mp hx
    rcases Bucket.value_of_mem_insert hy with hy | ⟨hy, hvalue⟩
    · exact Or.inl (List.mem_map_of_mem (List.mem_of_mem_eraseP hy))
    · exact Or.inr ⟨hy, y.1, rfl, hvalue⟩

theorem TemperatureMap.mem_placements_set {m : TemperatureMap} {name : Option Key}
    (hr : ∀ g, r.grade = .ok g → ∃ e, g = .energy e)
    (h : p ∈ (m.set ref r).1.placements name) :
    p ∈ m.placements name ∨ p.record = ref ∧ p.name = name ∧ p.Fits allNames .temperature r := by
  have hspot : ∀ x ∈ m.shelves.spots, ∀ y ∈ x.2.2.placed,
      ⟨name, x.1, x.2.1, y.1, y.2⟩ ∈ m.placements name := fun x hx y hy =>
    List.mem_flatMap.mpr ⟨x, hx, List.mem_map_of_mem hy⟩
  unfold TemperatureMap.set at h
  split at h
  · exact Or.inl h
  · rename_i l₁ h₁
    split at h
    · obtain ⟨x, hx, hp⟩ := List.mem_flatMap.mp h
      exact Or.inl (List.mem_flatMap.mpr ⟨x, Shelves.mem_spots_addShelf hx, hp⟩)
    · rename_i l₂ h₂
      simp only [Shelves.getD_get?] at h
      -- putting the old bucket once more adds no placement
      have hold : ∀ y ∈ ((m.shelves.at? l₁.key l₂.key).getD Bucket.empty).placed,
          ⟨name, l₁.key, l₂.key, y.1, y.2⟩ ∈ m.placements name := by
        intro y hy
        cases hat : m.shelves.at? l₁.key l₂.key with
        | none =>
          rw [hat] at hy
          cases hy
        | some b =>
          rw [hat] at hy
          exact hspot _ (Shelves.mem_spots_of_at? hat) y hy
      have hentered : ∀ b : Bucket,
          p ∈ TemperatureMap.placements { m with shelves := m.shelves.putAt l₁ l₂ b } name →
          p ∈ m.placements name ∨ ∃ y ∈ b.placed, ⟨name, l₁.key, l₂.key, y.1, y.2⟩ = p := by
        intro b hp
        obtain ⟨x, hx, hp⟩ := List.mem_flatMap.mp hp
        obtain ⟨y, hy, rfl⟩ := List.mem_map.mp hp
        rcases Shelves.mem_spots_putAt hx with hx | rfl
        · exact Or.inl (hspot x hx y hy)
        · exact Or.inr ⟨y, hy, rfl⟩
      split at h
      · rcases hentered _ h with hp | ⟨y, hy, rfl⟩
        · exact Or.inl hp
        · exact Or.inl (hold y hy)
      · rename_i g hg
        obtain ⟨e, rfl⟩ := hr g hg
        split at h
        · rcases hentered _ h with hp | ⟨y, hy, rfl⟩
          · exact Or.inl hp
          · exact Or.inl (hold y hy)
        · rename_i b replaced hb
          rcases hentered _ h with hp | ⟨y, hy, rfl⟩
          · exact Or.inl hp
          · rcases Bucket.mem_placed_set hb hy with hy | ⟨href, d, hd, hvalue⟩
            · exact Or.inl (hold y hy)
            · refine Or.inr ⟨href, rfl, Label.key_of_ofValue h₁, Label.key_of_ofValue h₂, fun _ => ?_,
                fun hshape => by cases hshape⟩
              exact ⟨d, e, hd, by rw [Record.energy?, hg], hvalue⟩

theorem NamedMap.mem_placements_inner {m : NamedMap} {l : Label} {x : TemperatureMap}
    (hx : m.inner l = .ok x) (h : p ∈ x.placements (some l.key)) : p ∈ m.placements := by
  rcases NamedMap.inner_eq_ok hx with hget | ⟨-, category, rfl⟩
  · obtain ⟨l', hl', hkey⟩ := Table.mem_of_get? hget
    exact List.mem_flatMap.mpr ⟨_, hl', by rwa [hkey]⟩
  · cases h

theorem NamedMap.mem_placements_set {m : NamedMap} (hr : ∀ g, r.grade = .ok g → ∃ e, g = .energy e)
    (h : p ∈ (m.set ref r).1.placements) :
    p ∈ m.placements ∨ p.record = ref ∧ p.Fits allNames .named r := by
  rcases NamedMap.set_cases m ref r with ⟨f, hset⟩ | ⟨name, l, x, hname, hl, hx, hset⟩
  · rw [hset] at h
    exact Or.inl h
  · rw [hset] at h
    obtain ⟨e, he, hp⟩ := List.mem_flatMap.mp h
    rcases Table.mem_put he with he | ⟨heq, hk, -⟩
    · exact Or.inl (List.mem_flatMap.mpr ⟨e, he, hp⟩)
    · rw [heq, hk] at hp
      rcases TemperatureMap.mem_placements_set allNames hr hp with hp | ⟨href, hpname, hfits⟩
      · exact Or.inl (NamedMap.mem_placements_inner hx hp)
      · refine Or.inr ⟨href, hfits.fileType, hfits.version, fun _ => hfits.energy (by decide), fun _ => ?_⟩
        exact ⟨l.key, name, hpname, hname, fun _ => Label.key_of_ofValue hl⟩

/-- Setting a record that has an energy or none adds at most a placement whose keys are its fields. -/
theorem RecordMap.mem_placements_set {m : RecordMap} (hr : ∀ g, r.grade = .ok g → ∃ e, g = .energy e)
    (h : p ∈ (m.set ref r).1.placements) :
    p ∈ m.placements ∨ p.record = ref ∧ p.Fits allNames m.shape r := by
  cases m with
  | versioned m => exact VersionedMap.mem_placements_set allNames h
  | temperature m =>
    rcases TemperatureMap.mem_placements_set allNames hr h with hp | ⟨href, -, hfits⟩
    · exact Or.inl hp
    · exact Or.inr ⟨href, hfits⟩
  | named m => exact NamedMap.mem_placements_set allNames hr h

theorem NamedMap.mem_placements_setUnusable {m : NamedMap} {name : Value}
    (h : p ∈ (m.setUnusable name).1.placements) : p ∈ m.placements := by
  rcases NamedMap.setUnusable_cases m name with ⟨f, hset⟩ | ⟨l, x, -, hx, hset⟩
  · rwa [hset] at h
  · rw [hset] at h
    obtain ⟨e, he, hp⟩ := List.mem_flatMap.mp h
    rcases Table.mem_put he with he | ⟨heq, hk, -⟩
    · exact List.mem_flatMap.mpr ⟨e, he, hp⟩
    · rw [heq, hk] at hp
      exact NamedMap.mem_placements_inner hx hp

theorem RecordMap.shape_set (m : RecordMap) (ref : RecordRef) (r : Record) :
    (m.set ref r).1.shape = m.shape := by
  cases m <;> rfl

end

/-! ## Related maps -/

section
variable {R : RecordRef → RecordRef → Prop} {q : Placement}

theorem Shelves.Related.exists_spot {α β : Type} {Q : α → β → Prop} {s : Shelves α} {t : Shelves β}
    (h : Table.Related (Table.Related Q) s t) {y : Key × Key × β} (hy : y ∈ t.spots) :
    ∃ x ∈ s.spots, x.1 = y.1 ∧ x.2.1 = y.2.1 ∧ Q x.2.2 y.2.2 := by
  obtain ⟨e', he', d', hd', rfl⟩ := mem_spots.mp hy
  obtain ⟨e, he, hlabel, hshelf⟩ := h.exists_of_mem he'
  obtain ⟨d, hd, hlabel', hQ⟩ := hshelf.exists_of_mem hd'
  exact ⟨_, mem_spots.mpr ⟨e, he, d, hd, rfl⟩, by rw [hlabel], by rw [hlabel'], hQ⟩

theorem Bucket.Related.exists_placed {b c : Bucket} (h : b.Related R c) {y : Option Energy × RecordRef}
    (hy : y ∈ c.placed) : ∃ x ∈ b.placed, x.1 = y.1 ∧ R x.2 y.2 := by
  cases h with
  | graded h =>
    obtain ⟨z, hz, rfl⟩ := List.mem_map.mp hy
    obtain ⟨x, hx, henergy, hR⟩ := forall₂_exists_of_mem h hz
    exact ⟨_, List.mem_map_of_mem hx, congrArg some henergy, hR⟩
  | lone h =>
    cases List.mem_singleton.mp hy
    exact ⟨_, List.mem_singleton_self _, rfl, h⟩

theorem TemperatureMap.Related.exists_placement {m n : TemperatureMap} (h : m.Related R n)
    {name : Option Key} (hq : q ∈ n.placements name) :
    ∃ p ∈ m.placements name, q = { p with record := q.record } ∧ R p.record q.record := by
  obtain ⟨y, hy, hq⟩ := List.mem_flatMap.mp hq
  obtain ⟨w, hw, rfl⟩ := List.mem_map.mp hq
  obtain ⟨x, hx, h₁, h₂, hbucket⟩ := Shelves.Related.exists_spot h.shelves hy
  obtain ⟨z, hz, henergy, hR⟩ := hbucket.exists_placed hw
  refine ⟨_, List.mem_flatMap.mpr ⟨x, hx, List.mem_map_of_mem hz⟩, ?_, hR⟩
  rw [h₁, h₂, henergy]

theorem RecordMap.Related.exists_placement {m n : RecordMap} (h : m.Related R n)
    (hq : q ∈ n.placements) :
    ∃ p ∈ m.placements, q = { p with record := q.record } ∧ R p.record q.record := by
  cases h with
  | versioned _ h =>
    obtain ⟨y, hy, rfl⟩ := List.mem_map.mp hq
    obtain ⟨x, hx, h₁, h₂, hR⟩ := Shelves.Related.exists_spot h hy
    exact ⟨_, List.mem_map_of_mem hx, by rw [h₁, h₂], hR⟩
  | temperature h => exact h.exists_placement hq
  | named _ h =>
    obtain ⟨e', he', hq⟩ := List.mem_flatMap.mp hq
    obtain ⟨e, he, hlabel, hmap⟩ := h.exists_of_mem he'
    obtain ⟨p, hp, heq, hR⟩ := hmap.exists_placement (hlabel ▸ hq)
    exact ⟨p, List.mem_flatMap.mpr ⟨e, he, hp⟩, heq, hR⟩

end

end ScatteringData
