import Mathlib
import ScatteringData.Proofs.RecordMap.Answers

/-!
# Related maps change alike

Setting related records in related maps leaves related maps behind, with the same outcome: what a set
does depends on the keys of a map only.
-/

namespace ScatteringData

/-! ## Tables -/

namespace Table.Related

variable {α β : Type} {Q : α → β → Prop} {t : Table α} {u : Table β}

theorem empty : (Table.empty : Table α).Related Q (Table.empty : Table β) := List.Forall₂.nil

theorem put (h : t.Related Q u) (l : Label) {a : α} {b : β} (hab : Q a b) :
    (t.put l a).Related Q (u.put l b) := by
  obtain ⟨es⟩ := t
  obtain ⟨ds⟩ := u
  unfold Table.Related at h ⊢
  simp only [Table.put] at h ⊢
  induction h with
  | nil => exact .cons ⟨rfl, hab⟩ .nil
  | @cons e d es ds hed hrest ih =>
    simp only [putIn, ← hed.1]
    by_cases hk : e.1.key = l.key
    · simp only [hk, if_true]
      exact .cons ⟨rfl, hab⟩ hrest
    · simp only [hk, if_false]
      exact .cons hed ih

theorem getD_get? (h : t.Related Q u) (k : Key) {a : α} {b : β} (hab : Q a b) :
    Q ((t.get? k).getD a) ((u.get? k).getD b) := by
  have hget := h.get? k
  generalize t.get? k = c at hget ⊢
  generalize u.get? k = d at hget ⊢
  cases hget with
  | none => exact hab
  | some hcd => exact hcd

theorem contains_eq (h : t.Related Q u) (k : Key) : t.contains k = u.contains k := by
  have hget := h.get? k
  unfold Table.contains
  cases ht : t.get? k <;> cases hu : u.get? k <;> simp [ht, hu] at hget ⊢

theorem eq {u : Table α} (h : t.Related Eq u) : t = u := by
  obtain ⟨es⟩ := t
  obtain ⟨ds⟩ := u
  unfold Table.Related at h
  simp only at h
  have heq : es = ds := by
    induction h with
    | nil => rfl
    | cons hed _ ih => rw [ih, Prod.ext hed.1 hed.2]
  rw [heq]

end Table.Related

variable {R : RecordRef → RecordRef → Prop} {ref ref' : RecordRef}

/-! ## Buckets -/

namespace Bucket

variable {es fs : List (Energy × RecordRef)}
  (h : List.Forall₂ (fun x y => x.1 = y.1 ∧ R x.2 y.2) es fs)
include h

theorem any_isHit_eq (query : Float) : es.any (isHit query) = fs.any (isHit query) := by
  induction h with
  | nil => rfl
  | cons hxy _ ih => simp only [List.any_cons, ih, isHit, hxy.1]

theorem eraseP_isHit_related (query : Float) :
    List.Forall₂ (fun x y => x.1 = y.1 ∧ R x.2 y.2) (es.eraseP (isHit query))
      (fs.eraseP (isHit query)) := by
  induction h with
  | nil => exact .nil
  | @cons x y es fs hxy hrest ih =>
    have hit : isHit query x = isHit query y := by simp only [isHit, hxy.1]
    simp only [List.eraseP_cons, hit]
    cases isHit query y with
    | true => exact hrest
    | false => exact .cons hxy ih

theorem insert_related (e : Energy) (hr : R ref ref') :
    List.Forall₂ (fun x y => x.1 = y.1 ∧ R x.2 y.2) (insert e ref es) (insert e ref' fs) := by
  induction h with
  | nil => exact .cons ⟨rfl, hr⟩ .nil
  | @cons x y es fs hxy hrest ih =>
    simp only [insert, ← hxy.1]
    by_cases hlt : e.mev < x.1.mev
    · simp only [hlt, if_true]
      exact .cons ⟨rfl, hr⟩ (.cons hxy hrest)
    · by_cases heq : (e.mev == x.1.mev) = true
      · simp only [hlt, heq, if_true, if_false]
        exact .cons ⟨rfl, hr⟩ hrest
      · simp only [hlt, heq, if_false]
        exact .cons hxy ih

end Bucket

theorem Bucket.Related.set {b c : Bucket} (h : b.Related R c) (g : Grade) (hr : R ref ref') :
    SameResult (fun x y => x.1.Related R y.1 ∧ x.2 = y.2) (b.set g ref) (c.set g ref') := by
  cases h with
  | lone h => exact rfl
  | @graded es fs h =>
    cases g with
    | energy e =>
      rw [Bucket.set_energy, Bucket.set_energy]
      refine SameResult.ok ⟨.graded ?_, Bucket.any_isHit_eq h e.mev⟩
      exact Bucket.insert_related (Bucket.eraseP_isHit_related h e.mev) e hr
    | text s =>
      cases h with
      | nil => exact SameResult.ok ⟨.lone hr, rfl⟩
      | cons _ _ => exact rfl

theorem Bucket.Related.eq {b c : Bucket} (h : b.Related Eq c) : b = c := by
  cases h with
  | lone h => rw [h]
  | graded h =>
    have heq := h.imp (fun _ _ hxy => Prod.ext hxy.1 hxy.2)
    rw [List.forall₂_eq_eq_eq] at heq
    rw [heq]

/-! ## Maps -/

variable (r : Record) (hr : R ref ref')

section
include hr

theorem VersionedMap.set_related {m n : VersionedMap} (hcategory : m.category = n.category)
    (h : Table.Related (Table.Related R) m.shelves n.shelves) :
    (m.set ref r).1.category = (n.set ref' r).1.category ∧
      Table.Related (Table.Related R) (m.set ref r).1.shelves (n.set ref' r).1.shelves ∧
      (m.set ref r).2 = (n.set ref' r).2 := by
  unfold VersionedMap.set
  cases Label.ofValue r.fileType with
  | error f => exact ⟨hcategory, h, rfl⟩
  | ok fileType =>
    have hshelf := h.getD_get? fileType.key (Table.Related.empty (Q := R))
    cases Label.ofValue r.fileVersion with
    | error f => exact ⟨hcategory, h.put fileType hshelf, rfl⟩
    | ok version =>
      refine ⟨hcategory, h.put fileType (hshelf.put version hr), ?_⟩
      simp only [hcategory, hshelf.contains_eq]

theorem TemperatureMap.Related.set {m n : TemperatureMap} (h : m.Related R n) :
    (m.set ref r).1.Related R (n.set ref' r).1 ∧ (m.set ref r).2 = (n.set ref' r).2 := by
  obtain ⟨hcategory, h⟩ := h
  unfold TemperatureMap.set
  cases Label.ofValue r.fileType with
  | error f => exact ⟨⟨hcategory, h⟩, rfl⟩
  | ok fileType =>
    have hshelf := h.getD_get? fileType.key (Table.Related.empty (Q := Bucket.Related R))
    cases Label.ofValue r.fileVersion with
    | error f => exact ⟨⟨hcategory, h.put fileType hshelf⟩, rfl⟩
    | ok version =>
      have hbucket := hshelf.getD_get? version.key
        (show Bucket.Related R .empty .empty from .graded .nil)
      have hentered : ∀ {b c : Bucket}, b.Related R c →
          Table.Related (Table.Related (Bucket.Related R))
            (m.shelves.put fileType (((m.shelves.get? fileType.key).getD Table.empty).put version b))
            (n.shelves.put fileType (((n.shelves.get? fileType.key).getD Table.empty).put version c)) :=
        fun hbc => h.put fileType (hshelf.put version hbc)
      simp only
      generalize (((m.shelves.get? fileType.key).getD Table.empty).get? version.key).getD
        Bucket.empty = b at hbucket ⊢
      generalize (((n.shelves.get? fileType.key).getD Table.empty).get? version.key).getD
        Bucket.empty = c at hbucket ⊢
      cases r.grade with
      | error f => exact ⟨⟨hcategory, hentered hbucket⟩, rfl⟩
      | ok g =>
        have hset := hbucket.set g hr
        simp only
        generalize b.set g ref = x at hset ⊢
        generalize c.set g ref' = y at hset ⊢
        cases x <;> cases y
        · exact ⟨⟨hcategory, hentered hbucket⟩, by rw [show _ = _ from hset]⟩
        · exact hset.elim
        · exact hset.elim
        · obtain ⟨hbc, hreplaced⟩ := hset
          refine ⟨⟨hcategory, hentered hbc⟩, ?_⟩
          simp only [setEntries, hcategory, hreplaced]

end

theorem TemperatureMap.Related.empty (category : String) :
    (TemperatureMap.empty category).Related R (TemperatureMap.empty category) :=
  ⟨rfl, Table.Related.empty⟩

theorem TemperatureMap.Related.eq {m n : TemperatureMap} (h : m.Related Eq n) : m = n := by
  obtain ⟨category, shelves⟩ := m
  obtain ⟨hcategory, hshelves⟩ := h
  have heq : shelves = n.shelves :=
    (hshelves.imp fun _ _ hs => (hs.imp fun _ _ hb => hb.eq).eq).eq
  simp only at hcategory
  rw [hcategory, heq]

section
variable {m n : NamedMap} (hcategory : m.category = n.category)
  (h : Table.Related (TemperatureMap.Related R) m.maps n.maps)
include hcategory h

theorem NamedMap.inner_related (l : Label) :
    SameResult (TemperatureMap.Related R) (m.inner l) (n.inner l) := by
  unfold NamedMap.inner
  have hget := h.get? l.key
  generalize m.maps.get? l.key = c at hget ⊢
  generalize n.maps.get? l.key = d at hget ⊢
  cases hget with
  | some hxy => exact hxy
  | none =>
    rw [hcategory]
    cases subcategory n.category l.shown with
    | error f => exact rfl
    | ok category => exact TemperatureMap.Related.empty category

include hr in
theorem NamedMap.set_related :
    (m.set ref r).1.category = (n.set ref' r).1.category ∧
      Table.Related (TemperatureMap.Related R) (m.set ref r).1.maps (n.set ref' r).1.maps ∧
      (m.set ref r).2 = (n.set ref' r).2 := by
  unfold NamedMap.set
  cases r.name with
  | none => exact ⟨hcategory, h, rfl⟩
  | some name =>
    simp only
    cases Label.ofValue name with
    | error f => exact ⟨hcategory, h, rfl⟩
    | ok label =>
      have hinner := inner_related hcategory h label
      dsimp only
      generalize m.inner label = x at hinner ⊢
      generalize n.inner label = y at hinner ⊢
      cases x <;> cases y
      · exact ⟨hcategory, h, by rw [show _ = _ from hinner]⟩
      · exact hinner.elim
      · exact hinner.elim
      · have hset := TemperatureMap.Related.set r hr hinner
        exact ⟨hcategory, h.put label hset.1, hset.2⟩

theorem NamedMap.setUnusable_related (name : Value) :
    (m.setUnusable name).1.category = (n.setUnusable name).1.category ∧
      Table.Related (TemperatureMap.Related R) (m.setUnusable name).1.maps
        (n.setUnusable name).1.maps ∧
      (m.setUnusable name).2 = (n.setUnusable name).2 := by
  unfold NamedMap.setUnusable
  cases Label.ofValue name with
  | error f => exact ⟨hcategory, h, rfl⟩
  | ok label =>
    have hinner := inner_related hcategory h label
    dsimp only
    generalize m.inner label = x at hinner ⊢
    generalize n.inner label = y at hinner ⊢
    cases x <;> cases y
    · exact ⟨hcategory, h, by rw [show _ = _ from hinner]⟩
    · exact hinner.elim
    · exact hinner.elim
    · exact ⟨hcategory, h.put label hinner, rfl⟩

end

include hr in
theorem RecordMap.Related.set {m n : RecordMap} (h : m.Related R n) :
    (m.set ref r).1.Related R (n.set ref' r).1 ∧ (m.set ref r).2 = (n.set ref' r).2 := by
  cases h with
  | versioned hcategory h =>
    obtain ⟨hcategory, h, hout⟩ := VersionedMap.set_related r hr hcategory h
    exact ⟨.versioned hcategory h, hout⟩
  | temperature h =>
    obtain ⟨h, hout⟩ := h.set r hr
    exact ⟨.temperature h, hout⟩
  | named hcategory h =>
    obtain ⟨hcategory, h, hout⟩ := NamedMap.set_related r hr hcategory h
    exact ⟨.named hcategory h, hout⟩

theorem RecordMap.Related.eq {m n : RecordMap} (h : m.Related Eq n) : m = n := by
  cases h with
  | @versioned m n hcategory h =>
    obtain ⟨category, shelves⟩ := m
    have heq : shelves = n.shelves := (h.imp fun _ _ hs => hs.eq).eq
    simp only at hcategory
    rw [hcategory, heq]
  | temperature h => rw [h.eq]
  | @named m n hcategory h =>
    obtain ⟨category, maps⟩ := m
    have heq : maps = n.maps := (h.imp fun _ _ hm => hm.eq).eq
    simp only at hcategory
    rw [hcategory, heq]

end ScatteringData
