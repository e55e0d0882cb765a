import Mathlib
import ScatteringData.Proofs.RecordMap.Setting
import ScatteringData.Proofs.TemperatureMap.Query

/-!
# Places without records

A map makes the places for a record before it reads all of it. A record that cannot be set leaves
them behind: the map has the same records and finds the same, but it lists the places.
-/

namespace ScatteringData

/-! ## Making places -/

def Label.leading : List Value → List Label
  | [] => []
  | v :: vs =>
    match Label.ofValue v with
    | .error _ => []
    | .ok l => l :: leading vs

/-- The values that a map of a shape makes places for before it puts a record there. -/
def Record.path (r : Record) : Shape → List Value
  | .versioned => [r.fileType]
  | .temperature => [r.fileType, r.fileVersion]
  | .named =>
    match r.name with
    | none => []
    | some name => [name, r.fileType, r.fileVersion]

namespace Shelves

variable {α : Type}

def addShelf (s : Shelves α) (l : Label) : Shelves α :=
  Table.put s l ((Table.get? s l.key).getD Table.empty)

theorem at?_addShelf (s : Shelves α) (l : Label) (k₁ k₂ : Key) :
    (s.addShelf l).at? k₁ k₂ = s.at? k₁ k₂ := by
  unfold addShelf at?
  rw [Table.get?_put]
  by_cases h : l.key = k₁
  · subst h
    rw [if_pos rfl]
    cases Table.get? s l.key with
    | none => rfl
    | some shelf => rfl
  · rw [if_neg h]

end Shelves

def VersionedMap.addPlaces (m : VersionedMap) : List Label → VersionedMap
  | [] => m
  | l :: _ => { m with shelves := m.shelves.addShelf l }

def TemperatureMap.addPlaces (m : TemperatureMap) : List Label → TemperatureMap
  | [] => m
  | [l] => { m with shelves := m.shelves.addShelf l }
  | l₁ :: l₂ :: _ =>
    { m with shelves := m.shelves.putAt l₁ l₂ ((m.shelves.at? l₁.key l₂.key).getD .empty) }

def NamedMap.addPlaces (m : NamedMap) : List Label → NamedMap
  | [] => m
  | l :: ls =>
    match m.inner l with
    | .ok inner => { m with maps := m.maps.put l (inner.addPlaces ls) }
    | .error _ => m

def RecordMap.addPlaces (m : RecordMap) (ls : List Label) : RecordMap :=
  match m with
  | versioned m => versioned (m.addPlaces ls)
  | temperature m => temperature (m.addPlaces ls)
  | named m => named (m.addPlaces ls)

/-! ## What a record that cannot be set leaves -/

section
variable {ref : RecordRef} {r : Record} {f : Fault}

theorem Shelves.getD_get? {α : Type} (s : Shelves α) (k₁ k₂ : Key) :
    ((Table.get? s k₁).getD Table.empty).get? k₂ = s.at? k₁ k₂ := by
  unfold Shelves.at?
  cases Table.get? s k₁ with
  | none => rfl
  | some shelf => rfl

theorem VersionedMap.set_failed {m : VersionedMap} (h : (m.set ref r).2.result = .error f) :
    m.set ref r = (m.addPlaces (Label.leading (r.path .versioned)), .fail f) := by
  unfold VersionedMap.set at h ⊢
  unfold Record.path Label.leading
  cases hl : Label.ofValue r.fileType with
  | error g =>
    rw [hl] at h
    cases h
    rfl
  | ok l =>
    rw [hl] at h
    dsimp only at h ⊢
    cases hv : Label.ofValue r.fileVersion with
    | error g =>
      rw [hv] at h
      cases h
      rfl
    | ok l₂ =>
      rw [hv] at h
      cases h

theorem TemperatureMap.set_failed {m : TemperatureMap} (h : (m.set ref r).2.result = .error f) :
    m.set ref r = (m.addPlaces (Label.leading (r.path .temperature)), .fail f) := by
  unfold TemperatureMap.set at h ⊢
  unfold Record.path
  simp only [Label.leading]
  cases hl₁ : Label.ofValue r.fileType with
  | error g =>
    rw [hl₁] at h
    cases h
    rfl
  | ok l₁ =>
    rw [hl₁] at h
    cases hl₂ : Label.ofValue r.fileVersion with
    | error g =>
      rw [hl₂] at h
      cases h
      rfl
    | ok l₂ =>
      rw [hl₂] at h
      simp only [Shelves.getD_get?] at h ⊢
      -- the bucket is put before the grade is read, and again after that
      cases hg : r.grade with
      | error g =>
        rw [hg] at h
        cases h
        rfl
      | ok grade =>
        rw [hg] at h
        dsimp only at h ⊢
        cases hb : ((m.shelves.at? l₁.key l₂.key).getD .empty).set grade ref with
        | error g =>
          rw [hb] at h
          cases h
          rfl
        | ok b =>
          rw [hb] at h
          cases h

theorem NamedMap.set_failed {m : NamedMap} (h : (m.set ref r).2.result = .error f) :
    m.set ref r = (m.addPlaces (Label.leading (r.path .named)), .fail f) := by
  unfold NamedMap.set at h ⊢
  unfold Record.path
  cases hn : r.name with
  | none =>
    rw [hn] at h
    cases h
    rfl
  | some name =>
    rw [hn] at h
    unfold Label.leading
    dsimp only at h ⊢
    cases hl : Label.ofValue name with
    | error g =>
      rw [hl] at h
      cases h
      rfl
    | ok l =>
      rw [hl] at h
      dsimp only at h ⊢
      rw [NamedMap.addPlaces]
      cases hx : m.inner l with
      | error g =>
        rw [hx] at h
        cases h
        rfl
      | ok x =>
        rw [hx] at h
        dsimp only at h ⊢
        rw [TemperatureMap.set_failed h]
        rfl

/-- A record that cannot be set leaves the places that were made for it, and nothing is reported. -/
theorem RecordMap.set_failed {m : RecordMap} (h : (m.set ref r).2.result = .error f) :
    m.set ref r = (m.addPlaces (Label.leading (r.path m.shape)), .fail f) := by
  cases m with
  | versioned m =>
    have heq := VersionedMap.set_failed h
    exact congrArg (fun x => (versioned x.1, x.2)) heq
  | temperature m =>
    have heq := TemperatureMap.set_failed h
    exact congrArg (fun x => (temperature x.1, x.2)) heq
  | named m =>
    have heq := NamedMap.set_failed h
    exact congrArg (fun x => (named x.1, x.2)) heq

theorem NamedMap.setUnusable_eq (m : NamedMap) (name : Value) :
    (m.setUnusable name).1 = m.addPlaces (Label.leading [name]) := by
  unfold NamedMap.setUnusable Label.leading
  cases hl : Label.ofValue name with
  | error g => rfl
  | ok l =>
    dsimp only
    rw [NamedMap.addPlaces]
    cases m.inner l with
    | error g => rfl
    | ok x => rfl

end

/-! ## Places that are there already -/

def VersionedMap.HasPlaces (m : VersionedMap) : List Label → Prop
  | [] => True
  | l :: _ => l.key ∈ Table.keys m.shelves

def TemperatureMap.HasPlaces (m : TemperatureMap) : List Label → Prop
  | [] => True
  | [l] => l.key ∈ Table.keys m.shelves
  | l₁ :: l₂ :: _ => (m.shelves.at? l₁.key l₂.key).isSome

/-- A new name that is too long to be written gets no place. -/
def NamedMap.HasPlaces (m : NamedMap) : List Label → Prop
  | [] => True
  | l :: ls => ∀ x, m.inner l = .ok x → m.maps.get? l.key = some x ∧ x.HasPlaces ls

def RecordMap.HasPlaces (m : RecordMap) (ls : List Label) : Prop :=
  match m with
  | versioned m => m.HasPlaces ls
  | temperature m => m.HasPlaces ls
  | named m => m.HasPlaces ls

theorem Shelves.addShelf_eq {α : Type} {s : Shelves α} {l : Label} (h : l.key ∈ Table.keys s) :
    s.addShelf l = s := by
  obtain ⟨shelf, hs⟩ := Option.isSome_iff_exists.mp ((Table.isSome_get?_iff s l.key).mpr h)
  unfold Shelves.addShelf
  rw [hs]
  exact Table.put_of_get? hs

theorem Shelves.putAt_eq {α : Type} {s : Shelves α} {l₁ l₂ : Label} {a : α}
    (h : s.at? l₁.key l₂.key = some a) : s.putAt l₁ l₂ a = s := by
  obtain ⟨shelf, hs, ha⟩ := Option.bind_eq_some_iff.mp h
  unfold Shelves.putAt
  rw [hs, Option.getD_some, Table.put_of_get? ha]
  exact Table.put_of_get? hs

theorem VersionedMap.addPlaces_eq {m : VersionedMap} {ls : List Label} (h : m.HasPlaces ls) :
    m.addPlaces ls = m := by
  cases ls with
  | nil => rfl
  | cons l ls =>
    rw [VersionedMap.addPlaces, Shelves.addShelf_eq h]

theorem TemperatureMap.addPlaces_eq {m : TemperatureMap} {ls : List Label} (h : m.HasPlaces ls) :
    m.addPlaces ls = m := by
  match ls, h with
  | [], _ => rfl
  | [l], h =>
    rw [TemperatureMap.addPlaces, Shelves.addShelf_eq h]
  | l₁ :: l₂ :: ls, h =>
    obtain ⟨b, hb⟩ := Option.isSome_iff_exists.mp h
    rw [TemperatureMap.addPlaces, hb, Option.getD_some, Shelves.putAt_eq hb]

theorem NamedMap.addPlaces_eq {m : NamedMap} {ls : List Label} (h : m.HasPlaces ls) :
    m.addPlaces ls = m := by
  cases ls with
  | nil => rfl
  | cons l ls =>
    rw [NamedMap.addPlaces]
    cases hx : m.inner l with
    | error f => rfl
    | ok x =>
      obtain ⟨hget, hplaces⟩ := h x hx
      dsimp only
      rw [TemperatureMap.addPlaces_eq hplaces, Table.put_of_get? hget]

theorem RecordMap.addPlaces_eq {m : RecordMap} {ls : List Label} (h : m.HasPlaces ls) :
    m.addPlaces ls = m := by
  cases m with
  | versioned m => exact congrArg versioned (VersionedMap.addPlaces_eq h)
  | temperature m => exact congrArg temperature (TemperatureMap.addPlaces_eq h)
  | named m => exact congrArg named (NamedMap.addPlaces_eq h)

theorem RecordMap.addPlaces_nil (m : RecordMap) : m.addPlaces [] = m := by
  cases m with
  | versioned m => rfl
  | temperature m => rfl
  | named m => rfl

/-! ## Places that are listed -/

theorem Shelves.mem_of_listed {α : Type} {s : Shelves α} {l : Label}
    (h : Table.labels (s.addShelf l) = Table.labels s) : l.key ∈ Table.keys s :=
  Table.keys_eq_of_labels h ▸ (Table.mem_keys_put s l _ l.key).mpr (Or.inl rfl)

theorem TemperatureMap.hasPlaces_of_listed {m : TemperatureMap} {ls : List Label}
    (htypes : (m.addPlaces ls).fileTypes = m.fileTypes)
    (hversions : ∀ fileType, (m.addPlaces ls).versions fileType = m.versions fileType) :
    m.HasPlaces ls := by
  match ls with
  | [] => trivial
  | [l] => exact Shelves.mem_of_listed htypes
  | l₁ :: l₂ :: ls =>
    have hmem : l₁.key ∈ Table.keys m.shelves :=
      Table.keys_eq_of_labels htypes ▸ (Table.mem_keys_put m.shelves l₁ _ l₁.key).mpr (Or.inl rfl)
    obtain ⟨shelf, hs⟩ := Option.isSome_iff_exists.mp ((Table.isSome_get?_iff _ _).mpr hmem)
    have hlisted := hversions l₁.shown
    unfold TemperatureMap.versions at hlisted
    rw [Shelves.versions_eq_labels _ l₁.key_shown, Shelves.versions_eq_labels _ l₁.key_shown]
      at hlisted
    rw [TemperatureMap.addPlaces, Shelves.putAt, Table.get?_put, if_pos rfl, hs] at hlisted
    have hkeys := Table.keys_eq_of_labels (Except.ok.inj hlisted)
    rw [TemperatureMap.HasPlaces, Shelves.at?, hs, Option.bind_some, Table.isSome_get?_iff, ← hkeys]
    exact (Table.mem_keys_put shelf l₂ _ l₂.key).mpr (Or.inl rfl)

theorem answered_inj {α : Type} {f : α → Answer} (hf : Function.Injective f) {x y : Except Fault α}
    (h : answered f x = answered f y) : x = y := by
  have hmap : x.map f = y.map f := congrArg Outcome.result h
  cases x with
  | error e =>
    cases y with
    | error d => exact congrArg Except.error (Except.error.inj hmap)
    | ok b => cases hmap
  | ok a =>
    cases y with
    | error d => cases hmap
    | ok b => exact congrArg Except.ok (hf (Except.ok.inj hmap))

theorem Answer.keys_injective : Function.Injective Answer.keys := fun _ _ h => Answer.keys.inj h

theorem RecordMap.hasPlaces_of_ask {m : RecordMap} {ls : List Label}
    (h : ∀ q args, (m.addPlaces ls).ask q args = m.ask q args) : m.HasPlaces ls := by
  cases m with
  | versioned m =>
    cases ls with
    | nil => trivial
    | cons l ls =>
      have hlisted := answered_inj Answer.keys_injective (h .fileTypes [])
      exact Shelves.mem_of_listed (Except.ok.inj hlisted)
  | temperature m =>
    refine TemperatureMap.hasPlaces_of_listed ?_ fun fileType => ?_
    · exact Except.ok.inj (answered_inj Answer.keys_injective (h .fileTypes []))
    · exact answered_inj Answer.keys_injective (h .versions [fileType])
  | named m =>
    cases ls with
    | nil => trivial
    | cons l ls =>
      intro inner hinner
      have hadd : (m.addPlaces (l :: ls)).maps = m.maps.put l (inner.addPlaces ls) := by
        rw [NamedMap.addPlaces, hinner]
      have hnames : (m.addPlaces (l :: ls)).maps.labels = m.maps.labels :=
        Except.ok.inj (answered_inj Answer.keys_injective (h .names []))
      rw [hadd] at hnames
      have hmem : l.key ∈ m.maps.keys :=
        Table.keys_eq_of_labels hnames ▸ (Table.mem_keys_put m.maps l _ l.key).mpr (Or.inl rfl)
      -- a name that is listed already is not new, so its map is the one that was there
      have hget : m.maps.get? l.key = some inner := by
        rcases NamedMap.inner_eq_ok hinner with hget | ⟨hnone, -⟩
        · exact hget
        · exact absurd hmem ((Table.get?_eq_none_iff _ _).mp hnone)
      have hfind : m.maps.find l.shown = .ok (some inner) := by rw [Table.find_eq _ l.key_shown, hget]
      have hfind' : (m.addPlaces (l :: ls)).maps.find l.shown = .ok (some (inner.addPlaces ls)) := by
        rw [Table.find_eq _ l.key_shown, hadd, Table.get?_put, if_pos rfl]
      refine ⟨hget, TemperatureMap.hasPlaces_of_listed ?_ fun fileType => ?_⟩
      · have hlisted := answered_inj Answer.keys_injective (h .fileTypes [l.shown])
        change (m.addPlaces (l :: ls)).fileTypes l.shown = m.fileTypes l.shown at hlisted
        unfold NamedMap.fileTypes at hlisted
        rw [hfind, hfind'] at hlisted
        exact Except.ok.inj hlisted
      · have hlisted := answered_inj Answer.keys_injective (h .versions [l.shown, fileType])
        change (m.addPlaces (l :: ls)).versions l.shown fileType = m.versions l.shown fileType
          at hlisted
        unfold NamedMap.versions at hlisted
        rw [hfind, hfind'] at hlisted
        exact hlisted

/-! ## What places do not change -/

theorem VersionedMap.at?_addPlaces (m : VersionedMap) (ls : List Label) (k₁ k₂ : Key) :
    (m.addPlaces ls).shelves.at? k₁ k₂ = m.shelves.at? k₁ k₂ := by
  cases ls with
  | nil => rfl
  | cons l ls => exact Shelves.at?_addShelf _ l k₁ k₂

theorem TemperatureMap.at?_addPlaces (m : TemperatureMap) (ls : List Label) (k₁ k₂ : Key) :
    ((m.addPlaces ls).shelves.at? k₁ k₂).getD .empty = (m.shelves.at? k₁ k₂).getD .empty := by
  match ls with
  | [] => rfl
  | [l] => rw [TemperatureMap.addPlaces, Shelves.at?_addShelf]
  | l₁ :: l₂ :: ls =>
    rw [TemperatureMap.addPlaces, Shelves.at?_putAt]
    by_cases h : l₁.key = k₁ ∧ l₂.key = k₂
    · rw [if_pos h, h.1, h.2]
      rfl
    · rw [if_neg h]

theorem TemperatureMap.category_addPlaces (m : TemperatureMap) (ls : List Label) :
    (m.addPlaces ls).category = m.category := by
  match ls with
  | [] => rfl
  | [l] => rfl
  | l₁ :: l₂ :: ls => rfl

section
variable {fileType version : Value} {k₁ k₂ : Key} (h₁ : fileType.key? = some k₁)
  (h₂ : version.key? = some k₂) (ls : List Label)
include h₁ h₂

theorem TemperatureMap.bucket_addPlaces (m : TemperatureMap) :
    (m.addPlaces ls).bucket fileType version = m.bucket fileType version := by
  rw [bucket_of_keys h₁ h₂, bucket_of_keys h₁ h₂, at?_addPlaces]

theorem TemperatureMap.energies_addPlaces (m : TemperatureMap) :
    (m.addPlaces ls).energies fileType version = m.energies fileType version := by
  unfold TemperatureMap.energies
  rw [bucket_addPlaces h₁ h₂]

theorem TemperatureMap.temperatures_addPlaces (m : TemperatureMap) :
    (m.addPlaces ls).temperatures fileType version = m.temperatures fileType version := by
  unfold TemperatureMap.temperatures
  rw [bucket_addPlaces h₁ h₂]

theorem TemperatureMap.get_addPlaces (m : TemperatureMap) (temperature : Value) (exact : Bool) :
    (m.addPlaces ls).get fileType version temperature exact =
      m.get fileType version temperature exact :=
  get_congr (category_addPlaces m ls) h₁ h₂ (at?_addPlaces m ls k₁ k₂) temperature exact

theorem VersionedMap.get_addPlaces (m : VersionedMap) :
    (m.addPlaces ls).get fileType version = m.get fileType version := by
  have hcategory : (m.addPlaces ls).category = m.category := by cases ls <;> rfl
  unfold VersionedMap.get
  rw [Shelves.get_eq _ _ h₁ h₂, Shelves.get_eq _ _ h₁ h₂, at?_addPlaces, hcategory]

end

theorem NamedMap.category_addPlaces (m : NamedMap) (ls : List Label) :
    (m.addPlaces ls).category = m.category := by
  cases ls with
  | nil => rfl
  | cons l ls =>
    rw [addPlaces]
    split <;> rfl

namespace NamedMap

variable {name : Value} {k : Key} (hname : name.key? = some k) (m : NamedMap) (ls : List Label)
include hname

theorem find_addPlaces : (m.addPlaces ls).maps.find name = m.maps.find name ∨
    ∃ inner, (m.maps.find name = .ok (some inner) ∨
        m.maps.find name = .ok none ∧ inner.shelves = Table.empty) ∧
      ∃ ls', (m.addPlaces ls).maps.find name = .ok (some (inner.addPlaces ls')) := by
  cases ls with
  | nil => exact Or.inl rfl
  | cons l ls =>
    rw [Table.find_eq _ hname, Table.find_eq _ hname, NamedMap.addPlaces]
    cases hx : m.inner l with
    | error f => exact Or.inl rfl
    | ok x =>
      dsimp only
      rw [Table.get?_put]
      by_cases hk : l.key = k
      · subst hk
        rw [if_pos rfl]
        rcases NamedMap.inner_eq_ok hx with hget | ⟨hnone, category, rfl⟩
        · exact Or.inr ⟨x, Or.inl (by rw [hget]), ls, rfl⟩
        · exact Or.inr ⟨_, Or.inr ⟨by rw [hnone], rfl⟩, ls, rfl⟩
      · rw [if_neg hk]
        exact Or.inl rfl

variable {fileType version : Value} {k₁ k₂ : Key} (h₁ : fileType.key? = some k₁)
  (h₂ : version.key? = some k₂)
include h₁ h₂

theorem energies_addPlaces :
    (m.addPlaces ls).energies name fileType version = m.energies name fileType version := by
  unfold NamedMap.energies
  rcases find_addPlaces hname m ls with heq | ⟨inner, hfound | ⟨hnone, hempty⟩, ls', heq⟩
  · rw [heq]
  · rw [heq, hfound]
    exact inner.energies_addPlaces h₁ h₂ ls'
  · rw [heq, hnone]
    refine (inner.energies_addPlaces h₁ h₂ ls').trans ?_
    unfold TemperatureMap.energies
    rw [TemperatureMap.bucket_of_keys h₁ h₂, hempty]
    rfl

theorem temperatures_addPlaces :
    (m.addPlaces ls).temperatures name fileType version = m.temperatures name fileType version := by
  unfold NamedMap.temperatures
  rcases find_addPlaces hname m ls with heq | ⟨inner, hfound | ⟨hnone, hempty⟩, ls', heq⟩
  · rw [heq]
  · rw [heq, hfound]
    exact inner.temperatures_addPlaces h₁ h₂ ls'
  · rw [heq, hnone]
    refine (inner.temperatures_addPlaces h₁ h₂ ls').trans ?_
    unfold TemperatureMap.temperatures
    rw [TemperatureMap.bucket_of_keys h₁ h₂, hempty]
    rfl

/-- A look-up under a name that is new fails as before, but because of the file type. -/
theorem get_addPlaces (temperature : Value) (exact : Bool) :
    (m.addPlaces ls).get name fileType version temperature exact =
        m.get name fileType version temperature exact ∨
      m.get name fileType version temperature exact =
          .fail (.raised (.request (.unknownName m.category name))) ∧
        ∃ category, (m.addPlaces ls).get name fileType version temperature exact =
          .fail (.raised (.request (.unknownVersion category fileType version))) := by
  have hcategory := m.category_addPlaces ls
  unfold NamedMap.get NamedMap.under
  rw [hcategory]
  rcases find_addPlaces hname m ls with heq | ⟨inner, hfound | ⟨hnone, hempty⟩, ls', heq⟩
  · rw [heq]
    exact Or.inl rfl
  · rw [heq, hfound]
    exact Or.inl (inner.get_addPlaces h₁ h₂ ls' temperature exact)
  · rw [heq, hnone]
    refine Or.inr ⟨rfl, inner.category, ?_⟩
    refine (inner.get_addPlaces h₁ h₂ ls' temperature exact).trans ?_
    unfold TemperatureMap.get
    rw [Shelves.get_eq _ _ h₁ h₂, hempty]
    rfl

end NamedMap

/-! ## The records of a map with places -/

theorem Shelves.flatMap_addShelf {α β : Type} (f : Table α → List β) (hf : f Table.empty = [])
    (s : Shelves α) (l : Label) :
    (Table.contents (s.addShelf l)).flatMap f = (Table.contents s).flatMap f := by
  refine Table.flatMap_put f ?_
  cases Table.get? s l.key with
  | none => exact hf
  | some shelf => rfl

theorem VersionedMap.records_addPlaces (m : VersionedMap) (ls : List Label) :
    (m.addPlaces ls).records = m.records := by
  cases ls with
  | nil => rfl
  | cons l ls => exact Shelves.flatMap_addShelf Table.contents rfl m.shelves l

theorem TemperatureMap.records_addPlaces (m : TemperatureMap) (ls : List Label) :
    (m.addPlaces ls).records = m.records := by
  unfold TemperatureMap.records Shelves.items
  rw [List.flatMap_assoc, List.flatMap_assoc]
  match ls with
  | [] => rfl
  | [l] => exact Shelves.flatMap_addShelf _ rfl m.shelves l
  | l₁ :: l₂ :: ls =>
    refine Table.flatMap_put _ ((Table.flatMap_put Bucket.records ?_).trans ?_)
    · rw [Shelves.getD_get?]
      cases m.shelves.at? l₁.key l₂.key with
      | none => rfl
      | some b => rfl
    · cases Table.get? m.shelves l₁.key with
      | none => rfl
      | some shelf => rfl

theorem NamedMap.records_addPlaces (m : NamedMap) (ls : List Label) :
    (m.addPlaces ls).records = m.records := by
  cases ls with
  | nil => rfl
  | cons l ls =>
    rw [addPlaces]
    cases hx : m.inner l with
    | error f => rfl
    | ok x =>
      refine Table.flatMap_put TemperatureMap.records ((x.records_addPlaces ls).trans ?_)
      rcases inner_eq_ok hx with hget | ⟨hnone, category, rfl⟩
      · rw [hget]
        rfl
      · rw [hnone]
        rfl

theorem RecordMap.records_addPlaces (m : RecordMap) (ls : List Label) :
    (m.addPlaces ls).records = m.records := by
  cases m with
  | versioned m => exact m.records_addPlaces ls
  | temperature m => exact m.records_addPlaces ls
  | named m => exact m.records_addPlaces ls

/-! ## The answers of a map with places -/

def Value.AllKeys (args : List Value) : Prop := ∀ v ∈ args, v.key?.isSome

theorem exists_argument_key {args : List Value} (h : Value.AllKeys args) (i : Nat) :
    ∃ k, (argument args i .null).key? = some k := by
  unfold argument
  rw [List.getD_eq_getElem?_getD]
  cases hi : args[i]? with
  | none => exact ⟨.null, rfl⟩
  | some v => exact Option.isSome_iff_exists.mp (h v (List.mem_of_getElem? hi))

/-- How a map with places at the labels compares with the map without: it has the same records, and
it finds the same ones and the same temperatures; it answers everything as before if and only if the
places were there. -/
structure RecordMap.Padded (m : RecordMap) (ls : List Label) (n : RecordMap) : Prop where
  shape : n.shape = m.shape
  records : n.records = m.records
  energies : ∀ args, Value.AllKeys args → n.ask .energies args = m.ask .energies args
  temperatures : ∀ args, Value.AllKeys args → n.ask .temperatures args = m.ask .temperatures args
  get : ∀ args, Value.AllKeys args → n.ask .get args = m.ask .get args ∨
    ∃ f g, m.ask .get args = .fail (.raised (.request f)) ∧
      n.ask .get args = .fail (.raised (.request g))
  unchanged_iff : (∀ q args, n.ask q args = m.ask q args) ↔ m.HasPlaces ls

theorem RecordMap.ask_addPlaces {P : Outcome Answer → Outcome Answer → Prop} (hP : ∀ x, P x x)
    {ls : List Label} {q : Query} {args : List Value}
    (hversioned : ∀ m : VersionedMap, P ((m.addPlaces ls).ask q args) (m.ask q args))
    (htemperature : ∀ m : TemperatureMap, P ((m.addPlaces ls).ask q args) (m.ask q args))
    (hnamed : ∀ m : NamedMap, P ((m.addPlaces ls).ask q args) (m.ask q args)) (m : RecordMap) :
    P ((m.addPlaces ls).ask q args) (m.ask q args) := by
  have hguarded : ∀ (bad : Prop) [Decidable bad] {x y : Outcome Answer}, P x y →
      P (if bad then .fail .wrongType else x) (if bad then .fail .wrongType else y) := by
    intro bad _ x y hxy
    split
    · exact hP _
    · exact hxy
  cases m with
  | versioned m =>
    unfold RecordMap.ask RecordMap.addPlaces
    dsimp only [shape]
    cases q.arity? .versioned with
    | none => exact hP _
    | some bounds => exact hguarded _ (hversioned m)
  | temperature m =>
    unfold RecordMap.ask RecordMap.addPlaces
    dsimp only [shape]
    cases q.arity? .temperature with
    | none => exact hP _
    | some bounds => exact hguarded _ (htemperature m)
  | named m =>
    unfold RecordMap.ask RecordMap.addPlaces
    dsimp only [shape]
    cases q.arity? .named with
    | none => exact hP _
    | some bounds => exact hguarded _ (hnamed m)

theorem RecordMap.addPlaces_padded (m : RecordMap) (ls : List Label) :
    m.Padded ls (m.addPlaces ls) where
  shape := by cases m <;> rfl
  records := m.records_addPlaces ls
  energies args h := by
    obtain ⟨k₀, h₀⟩ := exists_argument_key h 0
    obtain ⟨k₁, h₁⟩ := exists_argument_key h 1
    obtain ⟨k₂, h₂⟩ := exists_argument_key h 2
    refine ask_addPlaces (P := Eq) (fun _ => rfl) (fun m => ?_) (fun m => ?_) (fun m => ?_) m
    · unfold VersionedMap.ask
      rfl
    · exact congrArg (answered Answer.energies) (m.energies_addPlaces h₀ h₁ ls)
    · exact congrArg (answered Answer.energies) (m.energies_addPlaces h₀ ls h₁ h₂)
  temperatures args h := by
    obtain ⟨k₀, h₀⟩ := exists_argument_key h 0
    obtain ⟨k₁, h₁⟩ := exists_argument_key h 1
    obtain ⟨k₂, h₂⟩ := exists_argument_key h 2
    refine ask_addPlaces (P := Eq) (fun _ => rfl) (fun m => ?_) (fun m => ?_) (fun m => ?_) m
    · unfold VersionedMap.ask
      rfl
    · exact congrArg (answered Answer.temperatures) (m.temperatures_addPlaces h₀ h₁ ls)
    · exact congrArg (answered Answer.temperatures) (m.temperatures_addPlaces h₀ ls h₁ h₂)
  get args h := by
    obtain ⟨k₀, h₀⟩ := exists_argument_key h 0
    obtain ⟨k₁, h₁⟩ := exists_argument_key h 1
    obtain ⟨k₂, h₂⟩ := exists_argument_key h 2
    refine ask_addPlaces
      (P := fun x y => x = y ∨
        ∃ f g, y = .fail (.raised (.request f)) ∧ x = .fail (.raised (.request g)))
      (fun _ => .inl rfl) (fun m => ?_) (fun m => ?_) (fun m => ?_) m
    · exact .inl (congrArg (answered Answer.record) (m.get_addPlaces h₀ h₁ ls))
    · exact .inl (congrArg (Outcome.map Answer.record) (m.get_addPlaces h₀ h₁ ls _ _))
    · rcases m.get_addPlaces h₀ ls h₁ h₂ (argument args 3 .null)
        (argument args 4 (.bool true)).truthy with heq | ⟨heq, category, heq'⟩
      · exact .inl (congrArg (Outcome.map Answer.record) heq)
      · refine .inr ⟨.unknownName m.category (argument args 0 .null),
          .unknownVersion category (argument args 1 .null) (argument args 2 .null), ?_, ?_⟩
        · exact congrArg (Outcome.map Answer.record) heq
        · exact congrArg (Outcome.map Answer.record) heq'
  unchanged_iff := ⟨hasPlaces_of_ask, fun h q args => by rw [addPlaces_eq h]⟩

end ScatteringData
