import Mathlib
import ScatteringData.Proofs.Store.Closed
import ScatteringData.Proofs.World.Placing
import ScatteringData.World.Copying

/-!
# Copying containers

A copy of containers level by level is read as the map that is rebuilt level by level, and it is made of
new containers only. So a world in which something was copied is seen as the store with the copy.
-/

namespace ScatteringData

namespace World

variable {α β : Type} {w v : World} {P : List Location} {s t : Store}

/-- What can be read at a reference, whatever containers it is made of. -/
def Reads {ρ : Type} (read : Heap → ρ → Option (β × List Location)) (h : Heap) (x : ρ) (v : β) : Prop :=
  ∃ own, read h x = some (v, own)

theorem lasts_reads {L : Layout β} (hL : L.Lawful) : Lasts (Reads L) :=
  ⟨fun ⟨own, hx⟩ hk => ⟨own, hL.grows hx hk⟩⟩

theorem lasts_read? : Lasts (Reads Heap.read?) := ⟨fun ⟨own, hx⟩ hk => ⟨own, Heap.read?_grows hx hk⟩⟩

theorem readAll_related {L : Layout β} {h : Heap} {es : List (Label × Ref)} {vs : List (Label × β)}
    {own : List Location} (hes : Layout.readAll L h es = some (vs, own)) :
    Table.Related (Reads L h) ⟨es⟩ ⟨vs⟩ := by
  induction es generalizing vs own with
  | nil =>
    cases hes
    exact .nil
  | cons e es ih =>
    obtain ⟨v, first, rest, others, hv, hrest, rfl, -⟩ := Layout.readAll_cons_eq_some.mp hes
    exact .cons ⟨rfl, first, hv⟩ (ih hrest)

/-! ## Copies of containers -/

section
variable {f : World → RecordRef → World × RecordRef} {F : Store → RecordRef → Store × RecordRef}
  (hf : Follows f F)
include hf

theorem copyRecordRef_yields : Yields Layout.record (Reads Layout.record) (copyRecordRef f) F := by
  refine ⟨fun {w P x r} hw ⟨own, hx⟩ => ?_⟩
  obtain ⟨rfl, rfl⟩ := Layout.record_eq_some.mp hx
  obtain ⟨hmade, heq⟩ := hf.pass r hw
  refine ⟨[], ?_, Layout.record_eq_some.mpr ⟨congrArg Ref.record heq, rfl⟩⟩
  rw [List.append_nil]
  exact hmade

theorem copyBucket_yields :
    Yields Layout.bucket (Reads Layout.bucket) (copyBucket f) (Bucket.rebuild F) := by
  refine ⟨fun {w P x b} hw ⟨own, hx⟩ => ?_⟩
  obtain ⟨a, rfl, ha, rfl⟩ := Layout.bucket_eq_some.mp hx
  refine hf.yields.make hw ?_
  rw [Heap.bucketAt, ha]

end

section
variable {L : Layout β} {g : World → Ref → World × Ref} {F : Store → β → Store × β}
  (hg : Yields L (Reads L) g F)
include hg

theorem Yields.copyTable (hL : L.Lawful) :
    Yields (Layout.table L) (Reads (Layout.table L)) (World.copyTable g) (Table.rebuild F) := by
  refine ⟨fun {w P x t} hw ⟨own, hx⟩ => ?_⟩
  obtain ⟨a, u, rest, rfl, ha, hrest, rfl⟩ := Layout.table_eq_some.mp hx
  refine (hg.table hL (lasts_reads hL)).make hw ?_
  rw [Layout.tableAt_eq ha]
  exact readAll_related hrest

theorem Yields.copyContents {γ : Type} (make : String → β → γ) {G : Store → γ → Store × γ}
    (hG : ∀ s category v, G s (make category v) = ((F s v).1, make category (F s v).2)) :
    Yields (Layout.map make L) (Reads (Layout.map make L)) (World.copyContents g) G := by
  refine ⟨fun {w P x u} hw ⟨own, hx⟩ => ?_⟩
  obtain ⟨category, y, v, rfl, hy, rfl⟩ := Layout.map_eq_some.mp hx
  obtain ⟨own', hmade, hread⟩ := hg.make hw ⟨own, hy⟩
  rw [hG]
  exact ⟨own', hmade, Layout.map_eq_some.mpr ⟨category, _, _, rfl, hread, rfl⟩⟩

end

section
variable {f : World → RecordRef → World × RecordRef} {F : Store → RecordRef → Store × RecordRef}
  (hf : Follows f F)
include hf

theorem copyGraded_yields :
    Yields Layout.graded (Reads Layout.graded) (copyGraded f) (TemperatureMap.rebuild F) :=
  (((copyBucket_yields hf).copyTable Layout.bucket_lawful).copyTable
    (Layout.table_lawful Layout.bucket_lawful)).copyContents TemperatureMap.mk fun _ _ _ => rfl

theorem copyRoot_yields :
    Yields Heap.read? (Reads Heap.read?) (copyRoot f) (RecordMap.rebuild F) := by
  refine ⟨fun {w P x m} hw ⟨own, hx⟩ => ?_⟩
  obtain ⟨shape, x⟩ := x
  cases shape with
  | versioned =>
    have hshelves := ((copyRecordRef_yields hf).copyTable Layout.record_lawful).copyTable
      (Layout.table_lawful Layout.record_lawful)
    exact (hshelves.copyContents (fun category shelves => RecordMap.versioned ⟨category, shelves⟩)
      (G := RecordMap.rebuild F) fun _ _ _ => rfl).make hw ⟨own, hx⟩
  | temperature =>
    have hshelves := ((copyBucket_yields hf).copyTable Layout.bucket_lawful).copyTable
      (Layout.table_lawful Layout.bucket_lawful)
    exact (hshelves.copyContents (fun category shelves => RecordMap.temperature ⟨category, shelves⟩)
      (G := RecordMap.rebuild F) fun _ _ _ => rfl).make hw ⟨own, hx⟩
  | named =>
    have hmaps := (copyGraded_yields hf).copyTable Layout.graded_lawful
    exact (hmaps.copyContents (fun category maps => RecordMap.named ⟨category, maps⟩)
      (G := RecordMap.rebuild F) fun _ _ _ => rfl).make hw ⟨own, hx⟩

end

theorem passRecord_follows (deep : Bool) : Follows (passRecord deep) (Store.passRecord deep) := by
  cases deep with
  | false => exact ⟨fun r hw => ⟨hw.made, rfl⟩⟩
  | true => exact cloneRecord_follows

theorem passMap_yields (deep : Bool) :
    Yields Heap.read? (Reads Heap.read?) (passMap deep) (Store.passMap deep) :=
  copyRoot_yields (passRecord_follows deep)

/-! ## Copies of objects -/

section
variable {m : MapRef} {a : AtomRef} {n : NuclideRef}

theorem mapObject_store (hm : w.store.Holds (.map m)) :
    w.store.mapObject m = (w.objects.mapObject m).mapMaps w.heap.mapAt ∧
      w.objects.at? (.map m) = some (w.objects.mapObject m).content := by
  have hlt : m.index < w.objects.maps.size := hm.trans_eq Array.size_map
  simp [store, Store.mapMaps, Store.mapObject, Store.at?, hlt]

theorem atom_store (ha : w.store.Holds (.center (.atom a))) :
    w.store.atom a = (w.objects.atom a).mapMaps w.heap.mapAt ∧
      ∀ k, w.objects.at? (.atomic a k) = some ((w.objects.atom a).maps.get k) := by
  have hlt : a.index < w.objects.atoms.size := ha.trans_eq Array.size_map
  simp [store, Store.mapMaps, Store.atom, Store.at?, hlt]

theorem nuclide_store (hn : w.store.Holds (.center (.nuclide n))) :
    w.store.nuclide n = (w.objects.nuclide n).mapMaps w.heap.mapAt ∧
      ∀ k, w.objects.at? (.nuclide n k) = some ((w.objects.nuclide n).maps.get k) := by
  have hlt : n.index < w.objects.nuclides.size := hn.trans_eq Array.size_map
  simp [store, Store.mapMaps, Store.nuclide, Store.at?, hlt]

theorem Sound.reads {p : Seat} {x : Root} (hw : w.Sound P) (hx : w.objects.at? p = some x) :
    Reads Heap.read? w.heap x (w.heap.mapAt x) := by
  obtain ⟨m, own, hm⟩ := hw.seated hx
  rw [Heap.mapAt_eq hm]
  exact ⟨own, hm⟩

theorem copyMap_made (hw : w.Sound P) (hm : w.store.Holds (.map m)) (deep : Bool) :
    w.Made P (w.copyMap m deep).1 (w.store.copyMap m deep).1 ∧
      (w.copyMap m deep).2 = (w.store.copyMap m deep).2 := by
  obtain ⟨hobject, hat⟩ := mapObject_store hm
  obtain ⟨own, hmade, hread⟩ := (passMap_yields deep).make hw (hw.reads hat)
  unfold copyMap Store.copyMap Store.map
  rw [hobject]
  exact ⟨hmade.addMap hread _, hmade.mapRef⟩

theorem copyAtom_made (hw : w.Sound P) (ha : w.store.Holds (.center (.atom a))) (deep : Bool) :
    w.Made P (w.copyAtom a deep).1 (w.store.copyAtom a deep).1 ∧
      (w.copyAtom a deep).2 = (w.store.copyAtom a deep).2 := by
  obtain ⟨hatom, hat⟩ := atom_store ha
  obtain ⟨own, hmade, hread⟩ := (passMap_yields deep).atomicMaps lasts_read?
    (w.objects.atom a).maps ((w.objects.atom a).maps.mapMaps w.heap.mapAt) hw fun k => by
      rw [AtomicMaps.mapMaps, AtomicMaps.get_ofFunction]
      exact hw.reads (hat k)
  unfold copyAtom Store.copyAtom
  rw [hatom]
  exact ⟨hmade.addAtom hread _, Prod.ext rfl hmade.atomRef⟩

/-- The maps of the nuclide may have been read before other things were made. -/
theorem addNuclideOn_made (hv : w.Made P v t) {x : Nuclide Root}
    (hx : ∀ k, Reads Heap.read? w.heap (x.maps.get k) (w.heap.mapAt (x.maps.get k))) (b : AtomRef)
    (deep : Bool) :
    w.Made P (v.addNuclideOn x b deep).1 (t.addNuclideOn (x.mapMaps w.heap.mapAt) b deep).1 ∧
      (v.addNuclideOn x b deep).2 = (t.addNuclideOn (x.mapMaps w.heap.mapAt) b deep).2 := by
  obtain ⟨own, hmade, hread⟩ := (passMap_yields deep).nuclideMaps lasts_read? x.maps
    (x.maps.mapMaps w.heap.mapAt) hv.sound fun k => by
      rw [NuclideMaps.mapMaps, NuclideMaps.get_ofFunction]
      exact lasts_read?.grows (hx k) hv.grows
  rw [hv.store] at hmade hread
  exact ⟨hv.trans (hmade.addNuclide hread _ _), hmade.nuclideRef⟩

theorem copyNuclide_made (hw : w.Sound P) (hn : w.store.Holds (.center (.nuclide n)))
    (ha : w.store.Holds (.center (.atom (w.store.nuclide n).atom))) (depth : Depth) :
    w.Made P (w.copyNuclide n depth).1 (w.store.copyNuclide n depth).1 ∧
      (w.copyNuclide n depth).2 = (w.store.copyNuclide n depth).2 := by
  obtain ⟨hnuclide, hat⟩ := nuclide_store hn
  have hx := fun k => hw.reads (hat k)
  unfold copyNuclide Store.copyNuclide
  rw [hnuclide] at ha ⊢
  generalize w.objects.nuclide n = x at ha hx ⊢
  change w.store.Holds (.center (.atom x.atom)) at ha
  cases depth with
  | maps =>
    obtain ⟨hmade, heq⟩ := addNuclideOn_made hw.made hx x.atom false
    exact ⟨hmade, Prod.ext rfl heq⟩
  | records =>
    obtain ⟨hmade, heq⟩ := addNuclideOn_made hw.made hx x.atom true
    exact ⟨hmade, Prod.ext rfl heq⟩
  | everything =>
    obtain ⟨hatom, hcopied⟩ := copyAtom_made hw ha true
    dsimp only [Nuclide.mapMaps]
    generalize w.copyAtom x.atom true = y at hatom hcopied ⊢
    generalize w.store.copyAtom x.atom true = z at hatom hcopied ⊢
    obtain ⟨v, entries, b⟩ := y
    obtain ⟨t, _, _⟩ := z
    cases hcopied
    obtain ⟨hmade, heq⟩ := addNuclideOn_made hatom hx b true
    exact ⟨hmade, Prod.ext rfl heq⟩

end

theorem copyCenter_made (hw : w.Sound P) (hs : w.store.Closed) {c : CenterRef}
    (hc : w.store.Holds (.center c)) (depth : Depth) :
    w.Made P (w.copyCenter c depth).1 (w.store.copyCenter c depth).1 ∧
      (w.copyCenter c depth).2 = (w.store.copyCenter c depth).2 := by
  cases c with
  | atom a =>
    obtain ⟨hmade, heq⟩ := copyAtom_made hw hc (depth ≠ .maps)
    exact ⟨hmade, congrArg (fun x => (x.1, CenterRef.atom x.2)) heq⟩
  | nuclide n =>
    obtain ⟨hmade, heq⟩ := copyNuclide_made hw hc (Store.holds_atomOf hs hc) depth
    exact ⟨hmade, congrArg (fun x => (x.1, CenterRef.nuclide x.2)) heq⟩

end World

end ScatteringData
