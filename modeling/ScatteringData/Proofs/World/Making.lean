import Mathlib
import ScatteringData.Proofs.RecordMap.Related
import ScatteringData.Proofs.World.Sound

/-!
# Making containers

What is made in a sound world, container after container, is read as what the rebuilding of the same
map as a value gives, and the containers are new. They are pending until their map has a seat.
-/

namespace ScatteringData

namespace World

/-- A later world is sound and is seen as a certain store. -/
structure Made (w : World) (pending : List Location) (v : World) (t : Store) : Prop where
  sound : v.Sound pending
  grows : w.heap.Grows v.heap
  store : v.store = t

/-- Records are passed on in a world as they are in the store that is seen. -/
structure Follows (f : World → RecordRef → World × RecordRef)
    (F : Store → RecordRef → Store × RecordRef) : Prop where
  pass : ∀ {w P} r, w.Sound P → w.Made P (f w r).1 (F w.store r).1 ∧ (f w r).2 = (F w.store r).2

/-- Something is made of a source that stands for a value, and it is read as what becomes of the value
in the store that is seen. -/
structure Yields {α β γ ρ : Type} (read : Heap → ρ → Option (β × List Location))
    (Src : Heap → α → γ → Prop) (g : World → α → World × ρ) (F : Store → γ → Store × β) : Prop where
  make : ∀ {w P a c}, w.Sound P → Src w.heap a c → ∃ own,
    w.Made (P ++ own) (g w a).1 (F w.store c).1 ∧
      read (g w a).1.heap (g w a).2 = some ((F w.store c).2, own)

/-- A source that is still the same in later heaps. -/
structure Lasts {α γ : Type} (Src : Heap → α → γ → Prop) : Prop where
  grows : ∀ {h k a c}, Src h a c → h.Grows k → Src k a c

variable {α β γ ρ : Type} {w v u : World} {P Q : List Location} {s t : Store}

theorem Sound.made (hw : w.Sound P) : w.Made P w w.store := ⟨hw, .refl _, rfl⟩

theorem Made.trans (hv : w.Made P v s) (hu : v.Made Q u t) : w.Made Q u t :=
  ⟨hu.sound, hv.grows.trans hu.grows, hu.store⟩

/-! ## One container -/

section
variable {f : World → RecordRef → World × RecordRef} {F : Store → RecordRef → Store × RecordRef}
  (hf : Follows f F)
include hf

theorem Follows.entries (hw : w.Sound P) (es : List (Energy × RecordRef)) :
    w.Made P (Bucket.rebuildEntries f w es).1 (Bucket.rebuildEntries F w.store es).1 ∧
      (Bucket.rebuildEntries f w es).2 = (Bucket.rebuildEntries F w.store es).2 := by
  induction es generalizing w with
  | nil => exact ⟨hw.made, rfl⟩
  | cons x es ih =>
    obtain ⟨hmade, heq⟩ := hf.pass x.2 hw
    obtain ⟨hrest, hes⟩ := ih hmade.sound
    unfold Bucket.rebuildEntries
    dsimp only
    rw [← hmade.store, ← heq, ← hes]
    exact ⟨hmade.trans hrest, rfl⟩

theorem Follows.bucket (hw : w.Sound P) (b : Bucket) :
    w.Made P (b.rebuild f w).1 (b.rebuild F w.store).1 ∧
      (b.rebuild f w).2 = (b.rebuild F w.store).2 := by
  cases b with
  | lone text r =>
    obtain ⟨hmade, heq⟩ := hf.pass r hw
    exact ⟨hmade, congrArg (Bucket.lone text) heq⟩
  | graded es =>
    obtain ⟨hmade, heq⟩ := hf.entries hw es
    exact ⟨hmade, congrArg Bucket.graded heq⟩

end

/-- A container whose contents were made is new, and so it is pending with them. -/
theorem Made.new {own : List Location} (hv : w.Made (P ++ own) v t) (c : Cell) :
    w.Made (P ++ v.heap.size :: own) (v.new c).1 t where
  sound := hv.sound.new c
  grows := hv.grows.trans (v.heap.grows_new c)
  store := (hv.sound.store_grows (v.heap.grows_new c)).trans hv.store

theorem Follows.yields {f : World → RecordRef → World × RecordRef}
    {F : Store → RecordRef → Store × RecordRef} (hf : Follows f F) :
    Yields Layout.bucket (fun _ b c => b = c) (makeBucket f) (Bucket.rebuild F) := by
  refine ⟨?_⟩
  rintro w P b c hw rfl
  obtain ⟨hmade, heq⟩ := hf.bucket hw b
  have hmade' : w.Made (P ++ []) (b.rebuild f w).1 (b.rebuild F w.store).1 := by
    rw [List.append_nil]
    exact hmade
  refine ⟨[(b.rebuild f w).1.heap.size], hmade'.new _, ?_⟩
  rw [← heq]
  refine Layout.bucket_eq_some.mpr ⟨_, rfl, ?_, rfl⟩
  exact (Heap.get?_new ..).trans (if_pos rfl)

section
variable {L : Layout β} {Src : Heap → α → γ → Prop} {g : World → α → World × Ref}
  {F : Store → γ → Store × β} (hL : L.Lawful) (hlasts : Lasts Src) (hg : Yields L Src g F)
include hL hlasts hg

theorem Yields.entries {es : List (Label × α)} {cs : List (Label × γ)} (hw : w.Sound P)
    (hes : List.Forall₂ (fun e c => e.1 = c.1 ∧ Src w.heap e.2 c.2) es cs) :
    ∃ own, w.Made (P ++ own) (Table.rebuildIn g w es).1 (Table.rebuildIn F w.store cs).1 ∧
      Layout.readAll L (Table.rebuildIn g w es).1.heap (Table.rebuildIn g w es).2 =
        some ((Table.rebuildIn F w.store cs).2, own) := by
  induction es generalizing w P cs with
  | nil =>
    cases hes
    refine ⟨[], ?_, rfl⟩
    rw [List.append_nil]
    exact hw.made
  | cons e es ih =>
    obtain ⟨c, cs, ⟨hlabel, hsrc⟩, hothers, rfl⟩ := List.forall₂_cons_left_iff.mp hes
    obtain ⟨own, hmade, hread⟩ := hg.make hw hsrc
    obtain ⟨rest, hrest, hreads⟩ := ih hmade.sound
      (hothers.imp fun _ _ h => ⟨h.1, hlasts.grows h.2 hmade.grows⟩)
    unfold Table.rebuildIn
    dsimp only
    rw [← hmade.store]
    refine ⟨own ++ rest, List.append_assoc P own rest ▸ hmade.trans hrest, ?_⟩
    -- what was made first is still there when the rest was made
    exact Layout.readAll_cons_eq_some.mpr ⟨_, own, _, rest, hL.grows hread hrest.grows, hreads,
      by rw [hlabel], rfl⟩

theorem Yields.table :
    Yields (Layout.table L) (fun h t u => Table.Related (Src h) t u) (makeTable g) (Table.rebuild F) := by
  refine ⟨fun {w P t u} hw htu => ?_⟩
  have hes : List.Forall₂ (fun e c => e.1 = c.1 ∧ Src w.heap e.2 c.2) t.entries u.entries := htu
  obtain ⟨own, hmade, hread⟩ := hg.entries hL hlasts hw hes
  refine ⟨_ :: own, hmade.new _, ?_⟩
  refine Layout.table_eq_some.mpr ⟨_, ⟨(Table.rebuildIn g w t.entries).2⟩, own, rfl, ?_, ?_, rfl⟩
  · exact (Heap.get?_new ..).trans (if_pos rfl)
  · have hnew := (Table.rebuildIn g w t.entries).1.heap.grows_new
      (.table ⟨(Table.rebuildIn g w t.entries).2⟩)
    exact Layout.readAll_congr hL hread fun a ha =>
      hnew.get? a (hmade.sound.held a (List.mem_append_right P ha))

end

theorem Yields.congr {read : Heap → ρ → Option (β × List Location)} {Src : Heap → α → γ → Prop}
    {g : World → α → World × ρ} {F G : Store → γ → Store × β} (hg : Yields read Src g F)
    (hFG : ∀ s c, G s c = F s c) : Yields read Src g G := by
  refine ⟨fun hw hsrc => ?_⟩
  rw [hFG]
  exact hg.make hw hsrc

/-! ## The maps of a center -/

section
variable {Src : Heap → α → RecordMap → Prop} {g : World → α → World × Root}
  {F : Store → RecordMap → Store × RecordMap} (hlasts : Lasts Src) (hg : Yields Heap.read? Src g F)
include hlasts hg

/-- One more map is made, of a source that was there before the others were made. -/
theorem Yields.next {a : α} {m : RecordMap} (hv : w.Made P v t) (hsrc : Src w.heap a m) :
    ∃ own, w.Made (P ++ own) (g v a).1 (F t m).1 ∧ v.heap.Grows (g v a).1.heap ∧
      (g v a).1.heap.read? (g v a).2 = some ((F t m).2, own) := by
  obtain ⟨own, hmade, hread⟩ := hg.make hv.sound (hlasts.grows hsrc hv.grows)
  rw [hv.store] at hmade hread
  exact ⟨own, hv.trans hmade, hmade.grows, hread⟩

theorem Yields.atomicMaps (as : AtomicMaps α) (ms : AtomicMaps) (hw : w.Sound P)
    (hsrc : ∀ k, Src w.heap (as.get k) (ms.get k)) :
    ∃ own : AtomicCategory → List Location,
      w.Made (P ++ AtomicCategory.all.flatMap own) (as.rebuild g w).1 (ms.rebuild F w.store).1 ∧
      ∀ k, (as.rebuild g w).1.heap.read? ((as.rebuild g w).2.get k) =
        some ((ms.rebuild F w.store).2.get k, own k) := by
  -- each map is made in the world that has the containers of those before it
  obtain ⟨a, ha, -, hreada⟩ := hg.next hlasts hw.made (hsrc .photoatomic)
  obtain ⟨b, hb, hgrowb, hreadb⟩ := hg.next hlasts ha (hsrc .adjointPhotoatomic)
  obtain ⟨c, hc, hgrowc, hreadc⟩ := hg.next hlasts hb (hsrc .electroatomic)
  obtain ⟨d, hd, hgrowd, hreadd⟩ := hg.next hlasts hc (hsrc .adjointElectroatomic)
  have hall : P ++ AtomicCategory.all.flatMap (AtomicMaps.mk a b c d).get = P ++ a ++ b ++ c ++ d := by
    simp [AtomicCategory.all, AtomicMaps.get]
  refine ⟨(AtomicMaps.mk a b c d).get, ?_, fun k => ?_⟩
  · rw [hall]
    exact hd
  · have hgrow := hgrowc.trans hgrowd
    cases k with
    | photoatomic => exact Heap.read?_grows hreada (hgrowb.trans hgrow)
    | adjointPhotoatomic => exact Heap.read?_grows hreadb hgrow
    | electroatomic => exact Heap.read?_grows hreadc hgrowd
    | adjointElectroatomic => exact hreadd

theorem Yields.nuclideMaps (as : NuclideMaps α) (ms : NuclideMaps) (hw : w.Sound P)
    (hsrc : ∀ k, Src w.heap (as.get k) (ms.get k)) :
    ∃ own : NuclideCategory → List Location,
      w.Made (P ++ NuclideCategory.all.flatMap own) (as.rebuild g w).1 (ms.rebuild F w.store).1 ∧
      ∀ k, (as.rebuild g w).1.heap.read? ((as.rebuild g w).2.get k) =
        some ((ms.rebuild F w.store).2.get k, own k) := by
  obtain ⟨a, ha, -, hreada⟩ := hg.next hlasts hw.made (hsrc .nuclear)
  obtain ⟨b, hb, hgrowb, hreadb⟩ := hg.next hlasts ha (hsrc .adjointNuclear)
  obtain ⟨c, hc, hgrowc, hreadc⟩ := hg.next hlasts hb (hsrc .thermalNuclear)
  obtain ⟨d, hd, hgrowd, hreadd⟩ := hg.next hlasts hc (hsrc .adjointThermalNuclear)
  obtain ⟨e, he, hgrowe, hreade⟩ := hg.next hlasts hd (hsrc .photonuclear)
  obtain ⟨f, hf, hgrowf, hreadf⟩ := hg.next hlasts he (hsrc .adjointPhotonuclear)
  have hall : P ++ NuclideCategory.all.flatMap (NuclideMaps.mk a b c d e f).get =
      P ++ a ++ b ++ c ++ d ++ e ++ f := by
    simp [NuclideCategory.all, NuclideMaps.get]
  refine ⟨(NuclideMaps.mk a b c d e f).get, ?_, fun k => ?_⟩
  · rw [hall]
    exact hf
  · have hlast := hgrowe.trans hgrowf
    have hgrow := hgrowc.trans (hgrowd.trans hlast)
    cases k with
    | nuclear => exact Heap.read?_grows hreada (hgrowb.trans hgrow)
    | adjointNuclear => exact Heap.read?_grows hreadb hgrow
    | thermalNuclear => exact Heap.read?_grows hreadc (hgrowd.trans hlast)
    | adjointThermalNuclear => exact Heap.read?_grows hreadd hlast
    | photonuclear => exact Heap.read?_grows hreade hgrowf
    | adjointPhotonuclear => exact hreadf

end

/-! ## New seats -/

theorem Made.mapRef (hv : w.Made P v t) : MapRef.mk v.objects.maps.size = ⟨t.maps.size⟩ := by
  rw [← hv.store]
  exact congrArg MapRef.mk Array.size_map.symm

theorem Made.atomRef (hv : w.Made P v t) : AtomRef.mk v.objects.atoms.size = ⟨t.atoms.size⟩ := by
  rw [← hv.store]
  exact congrArg AtomRef.mk Array.size_map.symm

theorem Made.nuclideRef (hv : w.Made P v t) :
    NuclideRef.mk v.objects.nuclides.size = ⟨t.nuclides.size⟩ := by
  rw [← hv.store]
  exact congrArg NuclideRef.mk Array.size_map.symm

theorem Made.addMap {own : List Location} {x : Root} {m : RecordMap} (hv : w.Made (P ++ own) v t)
    (hread : v.heap.read? x = some (m, own)) (category : Value) :
    w.Made P (v.addMap ⟨x, category⟩).1 (t.addMap ⟨m, category⟩).1 where
  grows := hv.grows
  store := by
    rw [← hv.store, ← Heap.mapAt_eq hread]
    exact congrArg (fun maps => { v.store with maps }) Array.map_push
  sound := by
    have hall : w.Made (P ++ [()].flatMap fun _ => own) v t := by
      rw [List.flatMap_singleton]
      exact hv
    refine hall.sound.adopt (fun _ => .map ⟨v.objects.maps.size⟩) (fun _ => x)
      (fun _ => List.mem_singleton_self _) (fun _ => ?_) (fun q hq => ?_) fun _ => hread
    · exact congrArg (Option.map _) Array.getElem?_push_size
    · cases q with
      | map q =>
        refine congrArg (Option.map _) (Array.getElem?_push.trans (if_neg fun h => hq () ?_))
        exact congrArg (fun i => Seat.map ⟨i⟩) h
      | _ => rfl

theorem Made.addAtom {own : AtomicCategory → List Location} {roots : AtomicMaps Root} {ms : AtomicMaps}
    (hv : w.Made (P ++ AtomicCategory.all.flatMap own) v t)
    (hread : ∀ k, v.heap.read? (roots.get k) = some (ms.get k, own k)) (i : Identity) :
    w.Made P (v.addAtom ⟨i, roots⟩).1 (t.addAtom ⟨i, ms⟩).1 where
  grows := hv.grows
  store := by
    have hms : roots.mapMaps v.heap.mapAt = ms := AtomicMaps.ext_get fun k => by
      rw [AtomicMaps.mapMaps, AtomicMaps.get_ofFunction, Heap.mapAt_eq (hread k)]
    rw [← hv.store, ← hms]
    exact congrArg (fun atoms => { v.store with atoms }) Array.map_push
  sound := by
    refine hv.sound.adopt (fun k => .atomic ⟨v.objects.atoms.size⟩ k) roots.get
      (fun k => by cases k <;> decide) (fun k => ?_) (fun q hq => ?_) hread
    · exact congrArg (Option.map _) Array.getElem?_push_size
    · cases q with
      | atomic a k =>
        refine congrArg (Option.map _) (Array.getElem?_push.trans (if_neg fun h => hq k ?_))
        exact congrArg (fun i => Seat.atomic ⟨i⟩ k) h
      | _ => rfl

theorem Made.addNuclide {own : NuclideCategory → List Location} {roots : NuclideMaps Root}
    {ms : NuclideMaps} (hv : w.Made (P ++ NuclideCategory.all.flatMap own) v t)
    (hread : ∀ k, v.heap.read? (roots.get k) = some (ms.get k, own k)) (i : Identity) (a : AtomRef) :
    w.Made P (v.addNuclide ⟨i, a, roots⟩).1 (t.addNuclide ⟨i, a, ms⟩).1 where
  grows := hv.grows
  store := by
    have hms : roots.mapMaps v.heap.mapAt = ms := NuclideMaps.ext_get fun k => by
      rw [NuclideMaps.mapMaps, NuclideMaps.get_ofFunction, Heap.mapAt_eq (hread k)]
    rw [← hv.store, ← hms]
    exact congrArg (fun nuclides => { v.store with nuclides }) Array.map_push
  sound := by
    refine hv.sound.adopt (fun k => .nuclide ⟨v.objects.nuclides.size⟩ k) roots.get
      (fun k => by cases k <;> decide) (fun k => ?_) (fun q hq => ?_) hread
    · exact congrArg (Option.map _) Array.getElem?_push_size
    · cases q with
      | nuclide n k =>
        refine congrArg (Option.map _) (Array.getElem?_push.trans (if_neg fun h => hq k ?_))
        exact congrArg (fun i => Seat.nuclide ⟨i⟩ k) h
      | _ => rfl

end World

end ScatteringData
