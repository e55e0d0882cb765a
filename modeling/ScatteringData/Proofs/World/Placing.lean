import Mathlib
import ScatteringData.Proofs.Store.Clone
import ScatteringData.Proofs.World.Making

/-!
# Placing what is new

An operation that changes no map leaves the objects of a store where they are and may add some. The
world afterwards has containers for the new maps and is seen as the store that the operation gives.
-/

namespace ScatteringData

namespace World

variable {w v : World} {P : List Location} {t : Store}

/-! ## Containers for a map -/

theorem Yields.placeTable {α : Type} {L : Layout α} {g : World → α → World × Ref} (hL : L.Lawful)
    (hg : Yields L (fun _ a c => a = c) g fun s a => (s, a)) :
    Yields (Layout.table L) (fun _ t u => t = u) (makeTable g) fun s t => (s, t) := by
  refine ⟨?_⟩
  rintro w P t u hw rfl
  have hmade := (hg.table hL ⟨fun h _ => h⟩).make hw (Table.Related.refl (fun _ => rfl) t)
  rw [Table.rebuild_same fun _ _ => rfl] at hmade
  exact hmade

theorem placeRecord_yields :
    Yields Layout.record (fun _ r q => r = q) (fun w r => (w, .record r)) fun s r => (s, r) := by
  refine ⟨?_⟩
  rintro w P r q hw rfl
  refine ⟨[], ?_, Layout.record_eq_some.mpr ⟨rfl, rfl⟩⟩
  rw [List.append_nil]
  exact hw.made

theorem placeBucket_yields :
    Yields Layout.bucket (fun _ b c => b = c) (makeBucket fun w r => (w, r)) fun s b => (s, b) := by
  have hsame : Follows (fun w r => (w, r)) fun s r => (s, r) :=
    ⟨fun _ hw => ⟨hw.made, rfl⟩⟩
  exact hsame.yields.congr fun s b => (Bucket.rebuild_same (fun _ _ => rfl) s b).symm

theorem placeGraded_yields :
    Yields Layout.graded (fun _ m n => m = n) placeGraded fun s m => (s, m) := by
  refine ⟨?_⟩
  rintro w P m n hw rfl
  have hshelves := (placeBucket_yields.placeTable Layout.bucket_lawful).placeTable
    (Layout.table_lawful Layout.bucket_lawful)
  obtain ⟨own, hmade, hread⟩ := hshelves.make hw (Eq.refl m.shelves)
  exact ⟨own, hmade, Layout.map_eq_some.mpr ⟨m.category, _, m.shelves, rfl, hread, rfl⟩⟩

theorem placeMap_yields : Yields Heap.read? (fun _ m n => m = n) placeMap fun s m => (s, m) := by
  refine ⟨?_⟩
  rintro w P m n hw rfl
  cases m with
  | versioned m =>
    have hshelves := (placeRecord_yields.placeTable Layout.record_lawful).placeTable
      (Layout.table_lawful Layout.record_lawful)
    obtain ⟨own, hmade, hread⟩ := hshelves.make hw (Eq.refl m.shelves)
    exact ⟨own, hmade, Layout.versioned_eq_some.mpr ⟨m.category, _, m.shelves, rfl, hread, rfl⟩⟩
  | temperature m =>
    obtain ⟨own, hmade, hread⟩ := placeGraded_yields.make hw (Eq.refl m)
    obtain ⟨category, x, s, hx, hs, rfl⟩ := Layout.map_eq_some.mp hread
    exact ⟨own, hmade, Layout.temperature_eq_some.mpr ⟨category, x, s, hx, hs, rfl⟩⟩
  | named m =>
    obtain ⟨own, hmade, hread⟩ :=
      (placeGraded_yields.placeTable Layout.graded_lawful).make hw (Eq.refl m.maps)
    exact ⟨own, hmade, Layout.named_eq_some.mpr ⟨m.category, _, m.maps, rfl, hread, rfl⟩⟩

/-! ## Containers for an object -/

theorem placeMapObject_made (hw : w.Sound P) (m : MapObject) :
    w.Made P (w.placeMapObject m) (w.store.addMap m).1 := by
  obtain ⟨own, hmade, hread⟩ := placeMap_yields.make hw (Eq.refl m.content)
  exact hmade.addMap hread m.category

theorem placeAtom_made (hw : w.Sound P) (a : Atom) : w.Made P (w.placeAtom a) (w.store.addAtom a).1 := by
  obtain ⟨own, hmade, hread⟩ := placeMap_yields.atomicMaps ⟨fun h _ => h⟩ a.maps a.maps hw
    fun _ => rfl
  exact hmade.addAtom hread a.identity

theorem placeNuclide_made (hw : w.Sound P) (n : Nuclide) :
    w.Made P (w.placeNuclide n) (w.store.addNuclide n).1 := by
  obtain ⟨own, hmade, hread⟩ := placeMap_yields.nuclideMaps ⟨fun h _ => h⟩ n.maps n.maps hw
    fun _ => rfl
  exact hmade.addNuclide hread n.identity n.atom

theorem Made.foldl {α : Type} {place : World → α → World} (add : Store → α → Store)
    (hplace : ∀ {w : World} {P}, w.Sound P → ∀ a, w.Made P (place w a) (add w.store a))
    (hv : w.Made P v t) (as : List α) : w.Made P (as.foldl place v) (as.foldl add t) := by
  induction as generalizing v t with
  | nil => exact hv
  | cons a as ih =>
    refine ih (hv.trans ?_)
    rw [← hv.store]
    exact hplace hv.sound a

end World

/-! ## Stores that grow -/

namespace Store

/-- The centers and maps of a store are all in another one, unchanged. -/
structure Grown (s t : Store) : Prop where
  atoms : s.atoms.toList <+: t.atoms.toList
  nuclides : s.nuclides.toList <+: t.nuclides.toList
  maps : s.maps.toList <+: t.maps.toList

variable {s t u : Store}

theorem Grown.refl (s : Store) : s.Grown s :=
  ⟨List.prefix_refl _, List.prefix_refl _, List.prefix_refl _⟩

theorem Grown.trans (ht : s.Grown t) (hu : t.Grown u) : s.Grown u :=
  ⟨ht.atoms.trans hu.atoms, ht.nuclides.trans hu.nuclides, ht.maps.trans hu.maps⟩

theorem prefix_push {α : Type} (xs : Array α) (a : α) : xs.toList <+: (xs.push a).toList := by
  rw [Array.toList_push]
  exact List.prefix_append ..

theorem grown_add (s : Store) (i : Item) : s.Grown (s.add i).1 := by
  have hsame := Grown.refl s
  cases i with
  | record r => exact ⟨hsame.atoms, hsame.nuclides, hsame.maps⟩
  | atom a => exact ⟨prefix_push .., hsame.nuclides, hsame.maps⟩
  | nuclide n => exact ⟨hsame.atoms, prefix_push .., hsame.maps⟩
  | map m => exact ⟨hsame.atoms, hsame.nuclides, prefix_push ..⟩
  | cache c => exact ⟨hsame.atoms, hsame.nuclides, hsame.maps⟩

theorem prefix_setIfInBounds {α : Type} {xs ys : Array α} (h : xs.toList <+: ys.toList) {i : Nat}
    (hi : ¬ i < xs.size) (a : α) : xs.toList <+: (ys.setIfInBounds i a).toList := by
  obtain ⟨rest, hrest⟩ := h
  rw [Array.toList_setIfInBounds, ← hrest, List.set_append_right _ _ (not_lt.mp hi)]
  exact List.prefix_append ..

/-- The objects that a store does not have yet may be anything in a later one. -/
theorem Grown.put (h : s.Grown t) {n : Node} (hn : ¬ s.Holds n) (i : Item) : s.Grown (t.put n i) := by
  rcases n with r | (a | n) | m | c <;> cases i <;> try exact h
  · exact ⟨h.atoms, h.nuclides, h.maps⟩
  · exact ⟨prefix_setIfInBounds h.atoms hn _, h.nuclides, h.maps⟩
  · exact ⟨h.atoms, prefix_setIfInBounds h.nuclides hn _, h.maps⟩
  · exact ⟨h.atoms, h.nuclides, prefix_setIfInBounds h.maps hn _⟩
  · exact ⟨h.atoms, h.nuclides, h.maps⟩

theorem grown_addAllAgain (s : Store) (ns : List Node) :
    s.Grown (s.addAllAgain ns).1 ∧ ∀ p ∈ (s.addAllAgain ns).2, ¬ s.Holds p.2 := by
  induction ns generalizing s with
  | nil => exact ⟨Grown.refl s, fun p hp => absurd hp List.not_mem_nil⟩
  | cons n ns ih =>
    obtain ⟨hgrown, hfresh⟩ := ih (s.add (s.item n)).1
    unfold addAllAgain
    rw [addAgain_eq]
    refine ⟨(grown_add s _).trans hgrown, fun p hp => ?_⟩
    rcases List.mem_cons.mp hp with rfl | hp
    · exact not_holds_add s _
    · exact fun hold => hfresh p hp ((holds_add s _ _).mpr (Or.inl hold))

theorem grown_cloneRecord (s : Store) (r : RecordRef) : s.Grown (s.cloneRecord r).1 := by
  obtain ⟨hgrown, hfresh⟩ := s.grown_addAllAgain (s.reach (.record r))
  unfold cloneRecord
  generalize s.addAllAgain (s.reach (.record r)) = x at hgrown hfresh ⊢
  obtain ⟨t, places⟩ := x
  dsimp only at hgrown hfresh ⊢
  generalize (⟨s.records.size, places⟩ : Duplication) = d
  -- references are redirected in the copies only, and these are new
  induction places generalizing t with
  | nil => exact hgrown
  | cons p places ih =>
    refine ih _ ?_ fun q hq => hfresh q (List.mem_cons_of_mem _ hq)
    dsimp only
    rw [redirect_eq]
    exact hgrown.put (hfresh p (List.mem_cons_self ..)) _

theorem foldl_addAtom (s : Store) (as : List Atom) :
    as.foldl (fun s a => (s.addAtom a).1) s = { s with atoms := s.atoms ++ as.toArray } := by
  induction as generalizing s with
  | nil => simp
  | cons a as ih => rw [List.foldl_cons, ih]; simp [addAtom]

theorem foldl_addNuclide (s : Store) (ns : List Nuclide) :
    ns.foldl (fun s n => (s.addNuclide n).1) s = { s with nuclides := s.nuclides ++ ns.toArray } := by
  induction ns generalizing s with
  | nil => simp
  | cons n ns ih => rw [List.foldl_cons, ih]; simp [addNuclide]

theorem foldl_addMap (s : Store) (ms : List MapObject) :
    ms.foldl (fun s m => (s.addMap m).1) s = { s with maps := s.maps ++ ms.toArray } := by
  induction ms generalizing s with
  | nil => simp
  | cons m ms ih => rw [List.foldl_cons, ih]; simp [addMap]

theorem append_drop {α : Type} {xs ys : Array α} (h : xs.toList <+: ys.toList) :
    xs ++ (ys.toList.drop xs.size).toArray = ys := by
  refine Array.ext' ?_
  rw [Array.toList_append]
  exact List.prefix_iff_eq_append.mp h

end Store

namespace World

variable {w : World} {P : List Location} {t : Store}

/-- The world is seen as the given store, and all that is new has containers of its own. -/
theorem renew_made (hw : w.Sound P) (ht : w.store.Grown t) : w.Made P (w.renew t) t := by
  have hatoms := hw.made.foldl (fun s a => (s.addAtom a).1) placeAtom_made
    (t.atoms.toList.drop w.objects.atoms.size)
  have hnuclides := hatoms.foldl (fun s n => (s.addNuclide n).1) placeNuclide_made
    (t.nuclides.toList.drop w.objects.nuclides.size)
  have hmaps := hnuclides.foldl (fun s m => (s.addMap m).1) placeMapObject_made
    (t.maps.toList.drop w.objects.maps.size)
  rw [Store.foldl_addMap, Store.foldl_addNuclide, Store.foldl_addAtom] at hmaps
  -- a world has as many objects as are seen in it
  have hsizes : w.objects.atoms.size = w.store.atoms.size ∧
      w.objects.nuclides.size = w.store.nuclides.size ∧ w.objects.maps.size = w.store.maps.size :=
    ⟨Array.size_map.symm, Array.size_map.symm, Array.size_map.symm⟩
  have hstore := hmaps.store
  dsimp only at hstore
  rw [hsizes.1, hsizes.2.1, hsizes.2.2, Store.append_drop ht.atoms, Store.append_drop ht.nuclides,
    Store.append_drop ht.maps, ← hsizes.1, ← hsizes.2.1, ← hsizes.2.2] at hstore
  obtain ⟨hseated, honce, hapart, hfree, hnodup, hheld⟩ := hmaps.sound
  refine ⟨⟨hseated, honce, hapart, hfree, hnodup, hheld⟩, hmaps.grows, ?_⟩
  exact congrArg (fun s : Store => { s with
    records := t.records, caches := t.caches, time := t.time, listening := t.listening }) hstore

theorem cloneRecord_follows : Follows cloneRecord Store.cloneRecord :=
  ⟨fun r hw => ⟨renew_made hw (Store.grown_cloneRecord _ r), rfl⟩⟩

end World

end ScatteringData
