import Mathlib
import ScatteringData.Heap.Setting
import ScatteringData.Proofs.Heap.Rewrites

/-!
# What a set in place does

A set that changes containers where they lie does to the map that is read from them what the set does
to the map as a value, and it changes no container of any other map.
-/

namespace ScatteringData

namespace Layout

variable {h k : Heap} {x y : Ref} {within : List Location}

theorem emptyTable_read {α : Type} (L : Layout α) (k : Heap) (a : Location)
    (ha : k.get? a = some (.table .empty)) : table L k (.container a) = some (.empty, [a]) :=
  table_eq_some.mpr ⟨a, .empty, [], rfl, ha, rfl, rfl⟩

theorem emptyBucket_read (k : Heap) (a : Location) (ha : k.get? a = some (.bucket .empty)) :
    bucket k (.container a) = some (.empty, [a]) :=
  bucket_eq_some.mpr ⟨a, rfl, ha, rfl⟩

theorem Shows.bucketAt {b : Bucket} (hx : bucket.Shows h x b within) : h.bucketAt x = b := by
  obtain ⟨a, rfl, ha, -⟩ := bucket_eq_some.mp hx.1
  rw [Heap.bucketAt, ha]

theorem Shows.putRecord {b : Bucket} (hx : bucket.Shows h x b within) (g : Grade) (ref : RecordRef) :
    bucket.Rewrites x h within (h.putRecord x g ref) (b.put g ref) within := by
  have hat := hx.bucketAt
  obtain ⟨a, rfl, ha, rfl⟩ := bucket_eq_some.mp hx.1
  have hput : h.putRecord (.container a) g ref = h.write a (.bucket (b.put g ref)) := by
    rw [Heap.putRecord, hat]
  rw [hput]
  refine ⟨⟨bucket_eq_some.mpr ⟨a, rfl, ?_, rfl⟩, hx.2⟩, (Heap.size_write ..).ge, ?_, fun b hb hnot => ?_⟩
  · exact Heap.get?_write_self h (Heap.lt_size_of_get? ha) _
  · exact fun b hb => Or.inl hb
  · refine Heap.get?_write_of_ne h ?_ _
    rintro rfl
    exact hnot (List.mem_singleton_self a)

section
variable {k : Heap} {after : List Location} (category : String)

theorem Rewrites.versioned {s : Shelves RecordRef}
    (hk : (table (table record)).Rewrites x h within k s after) :
    (ofShape .versioned).Rewrites (.map category x) h within k (.versioned ⟨category, s⟩) after :=
  hk.map (fun category shelves => RecordMap.versioned ⟨category, shelves⟩) category

theorem Rewrites.named {t : Table TemperatureMap} (hk : (table graded).Rewrites x h within k t after) :
    (ofShape .named).Rewrites (.map category x) h within k (.named ⟨category, t⟩) after :=
  hk.map (fun category maps => RecordMap.named ⟨category, maps⟩) category

end

section
variable (category : String) (ref : RecordRef) (r : Record)

theorem Shows.setVersioned {s : Shelves RecordRef}
    (hx : (table (table record)).Shows h x s within) :
    ∃ after, (ofShape .versioned).Rewrites (.map category x) h within
        (h.setVersioned category x ref r).1 (.versioned ((VersionedMap.mk category s).set ref r).1)
        after ∧
      (h.setVersioned category x ref r).2 = ((VersionedMap.mk category s).set ref r).2 := by
  have hshelves := table_lawful record_lawful
  unfold Heap.setVersioned VersionedMap.set
  cases hfileType : Label.ofValue r.fileType with
  | error f => exact ⟨within, (Rewrites.refl hx).versioned category, rfl⟩
  | ok fileType =>
    obtain ⟨mid, own, henter, hat, hshelf⟩ :=
      hx.enter hshelves (emptyTable_read record) fileType
    dsimp only
    generalize h.enter x fileType (.table .empty) = k at henter hat hshelf ⊢
    cases hversion : Label.ofValue r.fileVersion with
    | error f => exact ⟨mid, henter.versioned category, rfl⟩
    | ok version =>
      have hrecord : record.Shows k.1 (.record ref) ref [] :=
        ⟨record_eq_some.mpr ⟨rfl, rfl⟩, List.nodup_nil⟩
      obtain ⟨own', hput⟩ := (Rewrites.refl hshelf).put record_lawful hrecord
        (fun a ha => absurd ha List.not_mem_nil) (List.disjoint_nil_left own) version
      obtain ⟨after, hafter⟩ := henter.under hshelves hat hshelf hput
      rw [Table.put_put] at hafter
      refine ⟨after, hafter.versioned category, ?_⟩
      dsimp only
      rw [hshelf.contains]

theorem Shows.setGraded {s : Shelves Bucket}
    (hx : (table (table bucket)).Shows h x s within) :
    ∃ after, graded.Rewrites (.map category x) h within (h.setGraded category x ref r).1
        ((TemperatureMap.mk category s).set ref r).1 after ∧
      (h.setGraded category x ref r).2 = ((TemperatureMap.mk category s).set ref r).2 := by
  have hshelves := table_lawful bucket_lawful
  unfold Heap.setGraded TemperatureMap.set
  cases hfileType : Label.ofValue r.fileType with
  | error f => exact ⟨within, (Rewrites.refl hx).map _ category, rfl⟩
  | ok fileType =>
    obtain ⟨mid, own, henter, hat, hshelf⟩ :=
      hx.enter hshelves (emptyTable_read bucket) fileType
    dsimp only
    generalize h.enter x fileType (.table .empty) = k at henter hat hshelf ⊢
    cases hversion : Label.ofValue r.fileVersion with
    | error f => exact ⟨mid, henter.map _ category, rfl⟩
    | ok version =>
      -- all that follows is a change of the shelf
      obtain ⟨own', leaf, henter', hat', hleaf⟩ :=
        hshelf.enter bucket_lawful emptyBucket_read version
      dsimp only
      generalize k.1.enter k.2 version (.bucket .empty) = l at henter' hat' hleaf ⊢
      rw [hleaf.bucketAt]
      obtain ⟨entered, hentered⟩ := henter.under hshelves hat hshelf henter'
      rw [Table.put_put] at hentered
      cases hgrade : r.grade with
      | error f => exact ⟨entered, hentered.map _ category, rfl⟩
      | ok g =>
        dsimp only
        cases hset : Bucket.set _ g ref with
        | error f => exact ⟨entered, hentered.map _ category, rfl⟩
        | ok result =>
          obtain ⟨sorted, replaced⟩ := result
          obtain ⟨written, hunder⟩ := henter'.under bucket_lawful hat' hleaf (hleaf.putRecord g ref)
          have hgrown := hunder.grows hshelves ((l.1.putRecord l.2 g ref).grows_new (.bucket sorted))
          have hsize := hunder.size
          have hheld := hshelves.held hunder.shows.1
          generalize l.1.putRecord l.2 g ref = n at hgrown hsize hheld ⊢
          have hsorted : bucket.Shows (n.new (.bucket sorted)).1 (n.new (.bucket sorted)).2 sorted
              [n.size] := by
            refine ⟨bucket_eq_some.mpr ⟨n.size, rfl, ?_, rfl⟩, List.nodup_singleton _⟩
            rw [Heap.get?_new, if_pos rfl]
          have hapart : List.Disjoint [n.size] written :=
            List.singleton_disjoint.mpr fun hin => lt_irrefl _ (hheld _ hin)
          obtain ⟨final, hput⟩ := hgrown.put bucket_lawful hsorted
            (fun a ha => Or.inr (List.mem_singleton.mp ha ▸ hsize)) hapart version
          obtain ⟨after, hafter⟩ := henter.under hshelves hat hshelf hput
          rw [Table.put_put, Table.put_put, Table.put_put] at hafter
          exact ⟨after, hafter.map _ category, rfl⟩

theorem Shows.inner {t : Table TemperatureMap} {l : Label}
    (hx : (table graded).Shows h x t within) :
    match (NamedMap.mk category t).inner l with
    | .error f => h.inner category x l = .error f
    | .ok m => ∃ k y mid own, h.inner category x l = .ok (k, y) ∧
        (table graded).Rewrites x h within k (t.put l m) mid ∧
        (k.tableAt x).get? l.key = some y ∧ graded.Shows k y m own := by
  unfold Heap.inner NamedMap.inner
  cases hy : (h.tableAt x).get? l.key with
  | some y =>
    obtain ⟨m, own, hm, hshows, -⟩ := hx.get?_some hy
    rw [hm]
    dsimp only
    refine ⟨h, y, within, own, rfl, ?_, hy, hshows⟩
    rw [Table.put_of_get? hm]
    exact Rewrites.refl hx
  | none =>
    rw [(hx.get?_none l.key).mpr hy]
    dsimp only
    cases hcategory : NamedMap.subcategory category l.shown with
    | error f => rfl
    | ok name =>
      have hcell : (h.new (.table .empty)).1.get? h.size = some (.table .empty) := by
        rw [Heap.get?_new, if_pos rfl]
      have hnew : graded.Shows (h.new (.table .empty)).1 (.map name (h.new (.table .empty)).2)
          (.empty name) [h.size] :=
        ⟨map_eq_some.mpr ⟨name, _, .empty, rfl, emptyTable_read _ _ _ hcell, rfl⟩,
          List.nodup_singleton _⟩
      obtain ⟨mid, hput⟩ := hx.putNew graded_lawful hnew l
      exact ⟨_, _, mid, [h.size], rfl, hput⟩

theorem Shows.setNamed {t : Table TemperatureMap}
    (hx : (table graded).Shows h x t within) :
    ∃ after, (ofShape .named).Rewrites (.map category x) h within (h.setNamed category x ref r).1
        (.named ((NamedMap.mk category t).set ref r).1) after ∧
      (h.setNamed category x ref r).2 = ((NamedMap.mk category t).set ref r).2 := by
  unfold Heap.setNamed NamedMap.set
  cases hname : r.name with
  | none => exact ⟨within, (Rewrites.refl hx).named category, rfl⟩
  | some name =>
    dsimp only
    cases hlabel : Label.ofValue name with
    | error f => exact ⟨within, (Rewrites.refl hx).named category, rfl⟩
    | ok l =>
      have hinner := hx.inner category (l := l)
      dsimp only
      cases hm : (NamedMap.mk category t).inner l with
      | error f =>
        rw [hm] at hinner
        rw [hinner]
        exact ⟨within, (Rewrites.refl hx).named category, rfl⟩
      | ok m =>
        rw [hm] at hinner
        obtain ⟨k, y, mid, own, heq, henter, hat, hshows⟩ := hinner
        obtain ⟨inner, shelves, s, rfl, hs, rfl⟩ := map_eq_some.mp hshows.1
        obtain ⟨own', hset, hout⟩ := Shows.setGraded inner ref r ⟨hs, hshows.2⟩
        obtain ⟨after, hafter⟩ := henter.under graded_lawful hat hshows hset
        rw [Table.put_put] at hafter
        rw [heq]
        exact ⟨after, hafter.named category, hout⟩

theorem Shows.setUnusable {t : Table TemperatureMap} {name : Value}
    (hx : (table graded).Shows h x t within) :
    ∃ after, (ofShape .named).Rewrites (.map category x) h within
        (h.setUnusable ⟨.named, .map category x⟩ name).1
        (.named ((NamedMap.mk category t).setUnusable name).1) after ∧
      (h.setUnusable ⟨.named, .map category x⟩ name).2 =
        ((NamedMap.mk category t).setUnusable name).2 := by
  unfold Heap.setUnusable NamedMap.setUnusable
  dsimp only
  cases hlabel : Label.ofValue name with
  | error f => exact ⟨within, (Rewrites.refl hx).named category, rfl⟩
  | ok l =>
    have hinner := hx.inner category (l := l)
    dsimp only
    cases hm : (NamedMap.mk category t).inner l with
    | error f =>
      rw [hm] at hinner
      rw [hinner]
      exact ⟨within, (Rewrites.refl hx).named category, rfl⟩
    | ok m =>
      rw [hm] at hinner
      obtain ⟨k, y, mid, own, heq, henter, -, -⟩ := hinner
      rw [heq]
      exact ⟨mid, henter.named category, rfl⟩

end

end Layout

namespace Heap

variable {h : Heap} {x : Root} {m : RecordMap} {within : List Location}

theorem set_rewrites (hx : (Layout.ofShape x.shape).Shows h x.ref m within) (ref : RecordRef)
    (r : Record) :
    ∃ after, (Layout.ofShape x.shape).Rewrites x.ref h within (h.set x ref r).1 (m.set ref r).1 after ∧
      (h.set x ref r).2 = (m.set ref r).2 := by
  obtain ⟨shape, y⟩ := x
  cases shape with
  | versioned =>
    obtain ⟨category, z, s, rfl, hz, rfl⟩ := Layout.versioned_eq_some.mp hx.1
    exact Layout.Shows.setVersioned category ref r ⟨hz, hx.2⟩
  | temperature =>
    obtain ⟨category, z, s, rfl, hz, rfl⟩ := Layout.temperature_eq_some.mp hx.1
    obtain ⟨after, hset, hout⟩ := Layout.Shows.setGraded category ref r ⟨hz, hx.2⟩
    exact ⟨after, hset.comp RecordMap.temperature, hout⟩
  | named =>
    obtain ⟨category, z, t, rfl, hz, rfl⟩ := Layout.named_eq_some.mp hx.1
    exact Layout.Shows.setNamed category ref r ⟨hz, hx.2⟩

theorem setUnusable_rewrites (hx : (Layout.ofShape x.shape).Shows h x.ref m within) (name : Value) :
    ∃ after, (Layout.ofShape x.shape).Rewrites x.ref h within (h.setUnusable x name).1
        (match m with
        | .named n => .named (n.setUnusable name).1
        | m => m) after ∧
      (h.setUnusable x name).2 =
        match m with
        | .named n => (n.setUnusable name).2
        | _ => .fail .noAttribute := by
  obtain ⟨shape, y⟩ := x
  cases shape with
  | named =>
    obtain ⟨category, z, t, rfl, hz, rfl⟩ := Layout.named_eq_some.mp hx.1
    exact Layout.Shows.setUnusable category ⟨hz, hx.2⟩
  | versioned =>
    obtain ⟨category, z, s, rfl, -, rfl⟩ := Layout.versioned_eq_some.mp hx.1
    exact ⟨within, Layout.Rewrites.refl hx, rfl⟩
  | temperature =>
    obtain ⟨category, z, s, rfl, -, rfl⟩ := Layout.temperature_eq_some.mp hx.1
    exact ⟨within, Layout.Rewrites.refl hx, rfl⟩

end Heap

end ScatteringData
