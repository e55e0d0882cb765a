import Mathlib
import ScatteringData.Proofs.Store.Independence
import ScatteringData.Proofs.World.Copying
import ScatteringData.World.Operation

/-!
# Worlds and stores

An operation on a world does to the store that is seen what the operation on stores does, and it answers
the same. So whatever is true of stores is true of what is seen of containers that are changed in place.
-/

namespace ScatteringData

namespace World

variable {α β : Type} {w v : World} {s t : Store} {p : Seat} {x : Root} {m : RecordMap} {c : CenterRef}
  {k : Category}

/-- A sound world with an answer, and the store that is seen with the same answer. -/
structure Mirrors (x : World × α) (y : Store × α) : Prop where
  sound : x.1.Sound []
  store : x.1.store = y.1
  answer : x.2 = y.2

theorem Sound.mirrors (hw : w.Sound []) (a : α) : Mirrors (w, a) (w.store, a) := ⟨hw, rfl, rfl⟩

theorem Mirrors.imp {x : World × α} {y : Store × α} (h : Mirrors x y) (f : Store → α → β) :
    Mirrors (x.1, f x.1.store x.2) (y.1, f y.1 y.2) :=
  ⟨h.sound, h.store, by rw [h.store, h.answer]⟩

/-! ## Sets -/

theorem putAt_self (hx : w.objects.at? p = some x) : w.store.putAt (w.heap.mapAt x) p = w.store :=
  (Store.mapMaps_putAt hx rfl fun _ _ _ _ => rfl).symm

theorem followed_cases {M N σ τ : Type} {s : Store M} {t : Store N} (hst : s.listening = t.listening)
    (old : σ) (old' : τ) {change : σ × Outcome Unit} {new : τ × Outcome Unit}
    (hout : change.2 = new.2) :
    ∃ o, (s.followed old change = (old, o) ∧ t.followed old' new = (old', o)) ∨
      (s.followed old change = (change.1, o) ∧ t.followed old' new = (new.1, o)) := by
  unfold Store.followed Outcome.heard
  rw [hst, hout]
  split
  · cases Entry.firstUnwritable? new.2.entries with
    | none => exact ⟨new.2, Or.inr ⟨rfl, rfl⟩⟩
    | some x =>
      obtain ⟨written, e, f⟩ := x
      refine ⟨⟨written, .error f⟩, ?_⟩
      by_cases he : e.announces = true
      · exact Or.inl ⟨by simp [he], by simp [he]⟩
      · exact Or.inr ⟨by simp [he], by simp [he]⟩
  · exact ⟨new.2, Or.inr ⟨by rw [← hout], rfl⟩⟩

/-- A change of the containers of a map in its seat is the change of the map. -/
theorem followed_mirrors (hw : w.Sound []) (hx : w.objects.at? p = some x) {within after : List Location}
    (hm : w.heap.read? x = some (m, within)) {change : Heap × Outcome Unit}
    {new : RecordMap × Outcome Unit}
    (hk : (Layout.ofShape x.shape).Rewrites x.ref w.heap within change.1 new.1 after)
    (hout : change.2 = new.2) :
    Mirrors (w.followed change)
      (w.store.putAt (w.store.followed m new).1 p, (w.store.followed m new).2) := by
  obtain ⟨o, ⟨hheap, hmap⟩ | ⟨hheap, hmap⟩⟩ :=
    followed_cases (s := w.objects) (t := w.store) rfl w.heap m hout
  · unfold World.followed
    rw [hheap, hmap, ← Heap.mapAt_eq hm, putAt_self hx]
    exact hw.mirrors o
  · unfold World.followed
    rw [hheap, hmap]
    exact ⟨hw.rewrites hx hm hk, hw.store_rewrites hx hm hk, rfl⟩

theorem set_other {r : MapRef} {u : Value} (hx : w.objects.at? (.map r) = some x)
    (hu : ∀ kind q, u ≠ .object (.record kind q)) :
    w.set r u = match w.store.nameOf? u with
      | none => (w, .fail .noAttribute)
      | some name =>
        ({ w with heap := (w.heap.setUnusable x name).1 }, (w.heap.setUnusable x name).2) := by
  unfold World.set
  rw [hx]
  split
  · rename_i hnone
    cases hnone
  · exact absurd rfl (hu _ _)
  · rename_i y hy _
    cases hy
    rfl

theorem changed_other {u : Value} (hu : ∀ kind q, u ≠ .object (.record kind q)) :
    s.changed m u = Store.unusable m (s.nameOf? u) := by
  unfold Store.changed
  split
  · exact absurd rfl (hu _ _)
  · rfl

theorem unusable_mirrors (hw : w.Sound []) (hx : w.objects.at? p = some x) {within : List Location}
    (hm : w.heap.read? x = some (m, within)) (name : Value) :
    Mirrors (({ w with heap := (w.heap.setUnusable x name).1 } : World), (w.heap.setUnusable x name).2)
      (w.store.putAt (Store.unusable m (some name)).1 p, (Store.unusable m (some name)).2) := by
  obtain ⟨seated, hk, hout⟩ :=
    Heap.setUnusable_rewrites ⟨hm, hw.once ⟨x, hx, hm⟩⟩ name
  cases m with
  | named n => exact ⟨hw.rewrites hx hm hk, hw.store_rewrites hx hm hk, hout⟩
  | versioned n => exact ⟨hw.rewrites hx hm hk, hw.store_rewrites hx hm hk, hout⟩
  | temperature n => exact ⟨hw.rewrites hx hm hk, hw.store_rewrites hx hm hk, hout⟩

theorem set_mirrors (hw : w.Sound []) {r : MapRef} (hr : w.store.Holds (.map r)) (u : Value) :
    Mirrors (w.set r u) (w.store.set r u) := by
  obtain ⟨hobject, hat⟩ := mapObject_store hr
  obtain ⟨m, within, hm⟩ := hw.seated hat
  have hmap : w.store.map r = m := (congrArg MapObject.content hobject).trans (Heap.mapAt_eq hm)
  rw [Store.set_eq, hmap, Store.putMap_eq]
  by_cases hu : ∀ kind q, u ≠ .object (.record kind q)
  · rw [set_other hat hu, changed_other hu]
    cases hname : w.store.nameOf? u with
    | none =>
      have hsame : Store.unusable m none = (m, .fail .noAttribute) := by cases m <;> rfl
      rw [hsame, ← Heap.mapAt_eq hm, putAt_self hat]
      exact hw.mirrors _
    | some name => exact unusable_mirrors hw hat hm name
  · push Not at hu
    obtain ⟨kind, q, rfl⟩ := hu
    obtain ⟨after, hk, hout⟩ := Heap.set_rewrites ⟨hm, hw.once ⟨_, hat, hm⟩⟩ q (w.objects.record q)
    have hset : w.set r (.object (.record kind q)) =
        w.followed (w.heap.set (w.objects.mapObject r).content q (w.objects.record q)) := by
      unfold World.set
      rw [hat]
    rw [hset]
    exact followed_mirrors hw hat hm hk hout

theorem seat?_cases (hs : w.store.Closed) (hc : w.store.Holds (.center c)) :
    (w.store.seat? c k = none ∧ w.store.centerMap? c k = none) ∨
      ∃ p x, w.store.seat? c k = some p ∧ w.objects.at? p = some x ∧
        w.store.centerMap? c k = some (w.heap.mapAt x) := by
  have hatom := Store.holds_atomOf hs hc
  cases k with
  | atomic k =>
    obtain ⟨hat, hx⟩ := atom_store hatom
    refine Or.inr ⟨_, _, rfl, hx k, congrArg some ?_⟩
    rw [hat]
    exact AtomicMaps.get_ofFunction _ k
  | nuclide k =>
    cases c with
    | atom a => exact Or.inl ⟨rfl, rfl⟩
    | nuclide n =>
      obtain ⟨hat, hx⟩ := nuclide_store hc
      refine Or.inr ⟨_, _, rfl, hx k, congrArg some ?_⟩
      rw [hat]
      exact NuclideMaps.get_ofFunction _ k

theorem setOn_mirrors (hw : w.Sound []) (hs : w.store.Closed) (hc : w.store.Holds (.center c))
    (u : Value) : Mirrors (w.setOn c k u) (w.store.setOn c k u) := by
  unfold World.setOn Store.setOn
  rcases seat?_cases (k := k) hs hc with ⟨hseat, hmap⟩ | ⟨p, x, hseat, hx, hmap⟩
  · rw [hseat, hmap]
    exact hw.mirrors _
  · obtain ⟨m, within, hm⟩ := hw.seated hx
    rw [hseat, hmap, Option.bind_some, hx, Heap.mapAt_eq hm]
    dsimp only
    cases w.store.accepted c k u with
    | error f => exact hw.mirrors _
    | ok r =>
      obtain ⟨after, hk, hout⟩ := Heap.set_rewrites ⟨hm, hw.once ⟨x, hx, hm⟩⟩ r (w.objects.record r)
      dsimp only
      rw [Store.putCenterMap_eq hseat]
      exact followed_mirrors hw hx hm hk hout

/-! ## Copies -/

theorem Made.mirrors {u : World × α} {y : Store × α} (hu : w.Made [] u.1 y.1) (h : u.2 = y.2) :
    Mirrors u y :=
  ⟨hu.sound, hu.store, h⟩

theorem copyObject_mirrors (hw : w.Sound []) (hs : w.store.Closed) {u : Value}
    (hu : ∀ n ∈ u.nodes, w.store.Holds n) : Mirrors (w.copyObject u) (w.store.copyObject u) := by
  cases u with
  | object o =>
    cases o with
    | center c caption =>
      obtain ⟨hmade, heq⟩ := copyCenter_made hw hs (hu _ (List.mem_singleton_self _)) .maps
      exact (hmade.mirrors heq).imp fun t copy =>
        (⟨copy.1, .ok (t.centerObject copy.2)⟩ : Outcome Object)
    | record kind r =>
      obtain ⟨hmade, heq⟩ := cloneRecord_follows.pass r hw
      exact (hmade.mirrors heq).imp fun _ q => (.ok (.record kind q) : Outcome Object)
    | _ => exact hw.mirrors _
  | _ => exact hw.mirrors _

theorem Sound.putCache {P : List Location} (hw : w.Sound P) (c : CacheRef) (cache : Cache) :
    (w.putCache c cache).Sound P :=
  ⟨hw.seated, hw.once, hw.apart, hw.free, hw.nodup, hw.held⟩

theorem addToCache_mirrors (hw : w.Sound []) (hs : w.store.Closed) {d : CacheRef} {u : Value}
    (hu : ∀ n ∈ u.nodes, w.store.Holds n) : Mirrors (w.addToCache d u) (w.store.addToCache d u) := by
  unfold World.addToCache Store.addToCache
  cases w.store.nameOf? u with
  | none => exact hw.mirrors _
  | some name =>
    dsimp only
    have hcache : w.objects.cache d = w.store.cache d := rfl
    rw [hcache]
    cases (w.store.cache d).admits name with
    | error f => exact hw.mirrors _
    | ok admitted =>
      obtain ⟨label, present⟩ := admitted
      have hcopy := copyObject_mirrors hw hs hu
      dsimp only
      generalize w.copyObject u = y at hcopy ⊢
      generalize w.store.copyObject u = z at hcopy ⊢
      obtain ⟨v, o⟩ := y
      obtain ⟨_, _⟩ := z
      obtain ⟨hsound, rfl, rfl⟩ := hcopy
      dsimp only
      cases o.result with
      | error f => exact hsound.mirrors _
      | ok object => exact ⟨hsound.putCache _ _, rfl, rfl⟩

end World

/-! ## Operations that change no map -/

namespace Store

theorem grown_buildRecord (s : Store) (C : Category) (fields : List (Field × Value)) :
    s.Grown (s.buildRecord C fields).1 := by
  unfold buildRecord
  split
  · exact s.grown_add (.record _)
  · exact .refl s

theorem grown_buildAtom (s : Store) (zaid ratio name : Value) :
    s.Grown (s.buildAtom zaid ratio name).1 := by
  unfold buildAtom
  dsimp only
  split
  · exact s.grown_add (.atom _)
  · exact .refl s

theorem grown_buildNuclide (s : Store) (zaid ratio atom name : Value) :
    s.Grown (s.buildNuclide zaid ratio atom name).1 := by
  unfold buildNuclide
  dsimp only
  split
  · exact .refl s
  · split
    · exact (s.grown_add (.atom _)).trans (grown_add _ (.nuclide _))
    · exact s.grown_add (.nuclide _)
    · exact .refl s

theorem grown_putCache (s : Store) (c : CacheRef) (cache : Cache) : s.Grown (s.putCache c cache) :=
  ⟨List.prefix_refl _, List.prefix_refl _, List.prefix_refl _⟩

theorem grown_changeCache (s : Store) (c : CacheRef) (change : Except Fault Cache) :
    s.Grown (s.changeCache c change).1 := by
  unfold changeCache
  split
  · exact s.grown_putCache c _
  · exact .refl s

end Store

namespace World

variable {w : World} {op : Operation}

theorem renew_mirrors {α : Type} (hw : w.Sound []) (y : Store × α) (hy : w.store.Grown y.1) :
    Mirrors (w.renew y.1, y.2) y :=
  (renew_made hw hy).mirrors rfl

theorem build_mirrors (hw : w.Sound []) (C : Category) (fields : List (Field × Value)) :
    Mirrors (w.perform (.buildRecord C fields)) (w.store.perform (.buildRecord C fields)) :=
  renew_mirrors hw (w.store.perform (.buildRecord C fields)) (Store.grown_buildRecord _ C fields)

theorem assign_mirrors (hw : w.Sound []) (r : RecordRef) (f : Field) (u : Value) :
    Mirrors (w.perform (.assign r f u)) (w.store.perform (.assign r f u)) :=
  renew_mirrors hw (w.store.perform (.assign r f u))
    ⟨List.prefix_refl _, List.prefix_refl _, List.prefix_refl _⟩

/-- Every operation on a world is the operation on the store that is seen. -/
theorem perform_mirrors (hw : w.Sound []) (hs : w.store.Closed) (hop : w.store.Admits op) :
    Mirrors (w.perform op) (w.store.perform op) := by
  have hfirst : ∀ n ns, op.nodes = n :: ns → w.store.Holds n := fun n ns h =>
    hop n (h ▸ List.mem_cons_self ..)
  have hrenew := renew_mirrors hw (w.store.perform op)
  -- whatever neither sets nor copies leaves the containers as they are
  cases op with
  | buildRecord C fields => exact build_mirrors hw C fields
  | buildAtom zaid ratio name => exact hrenew (Store.grown_buildAtom _ zaid ratio name)
  | buildNuclide zaid ratio atom name =>
    exact hrenew (Store.grown_buildNuclide _ zaid ratio atom name)
  | buildMap shape category => exact hrenew (Store.grown_add _ (.map _))
  | buildCache => exact hrenew (Store.grown_add _ (.cache _))
  | assign r f u => exact assign_mirrors hw r f u
  | set m u => exact (set_mirrors hw (hfirst _ _ rfl) u).imp fun _ o => o.map fun _ => Value.null
  | setOn c k u =>
    exact (setOn_mirrors hw hs (hfirst _ _ rfl) u).imp fun _ o => o.map fun _ => Value.null
  | ask m q args => exact hrenew (Store.Grown.refl _)
  | askOn c k q args => exact hrenew (Store.Grown.refl _)
  | copyRecord r => exact hrenew (Store.grown_cloneRecord _ r)
  | copyMap m deep =>
    obtain ⟨hmade, heq⟩ := copyMap_made hw (hfirst _ _ rfl) deep
    exact (hmade.mirrors heq).imp fun t copy => (.ok (.object (.map (t.map copy).shape copy)) : Outcome Value)
  | copyCenter c depth =>
    obtain ⟨hmade, heq⟩ := copyCenter_made hw hs (hfirst _ _ rfl) depth
    exact (hmade.mirrors heq).imp fun t copy =>
      (⟨copy.1, .ok (.object (t.centerObject copy.2))⟩ : Outcome Value)
  | addToCache c u =>
    have hu : ∀ n ∈ u.nodes, w.store.Holds n := fun n hn => hop n (List.mem_cons_of_mem _ hn)
    exact (addToCache_mirrors hw hs hu).imp fun _ o => o.map fun _ => Value.null
  | removeFromCache c name => exact hrenew (Store.grown_putCache _ c _)
  | link c other name => exact hrenew (Store.grown_changeCache _ c _)
  | unlink c other => exact hrenew (Store.grown_changeCache _ c _)
  | clear c => exact hrenew (Store.grown_putCache _ c _)
  | fetch c name => exact hrenew (Store.Grown.refl _)

/-! ## Runs -/

/-- The worlds that runs reach. -/
inductive Reachable : World → Prop
  | start (listening : Bool) : Reachable { World.empty with objects := { Store.empty with listening } }
  | perform {w : World} (hw : Reachable w) (op : Operation) (hop : w.store.Admits op) :
    Reachable (w.perform op).1
  | tick {w : World} (hw : Reachable w) : Reachable w.tick

theorem Sound.tick {P : List Location} (hw : w.Sound P) : w.tick.Sound P :=
  ⟨hw.seated, hw.once, hw.apart, hw.free, hw.nodup, hw.held⟩

/-- In a world that a run reaches no container is shared, and what is seen is a store that the same run
reaches. -/
theorem Reachable.sound_store (hw : w.Reachable) : w.Sound [] ∧ w.store.Reachable := by
  induction hw with
  | start listening =>
    have hnone : ∀ p, (Store.empty (M := Root)).at? p = none := by
      intro p
      cases p <;> rfl
    have hstart : World.store { World.empty with objects := { Store.empty with listening } } =
        { Store.empty with listening } := by
      simp [World.store, Store.mapMaps, Store.empty]
    refine ⟨⟨fun {p x} hx => ?_, ?_, ?_, ?_, List.nodup_nil, fun a ha => by cases ha⟩,
      hstart ▸ .start listening⟩
    · cases (hnone p).symm.trans hx
    · rintro p m within ⟨x, hx, -⟩
      cases (hnone p).symm.trans hx
    · rintro p q m n within own - ⟨x, hx, -⟩
      cases (hnone p).symm.trans hx
    · rintro p m within ⟨x, hx, -⟩
      cases (hnone p).symm.trans hx
  | @perform w _ op hop ih =>
    obtain ⟨hsound, hstore⟩ := ih
    have hmirrors := perform_mirrors hsound hstore.closed hop
    exact ⟨hmirrors.sound, hmirrors.store ▸ hstore.perform op hop⟩
  | tick _ ih => exact ⟨ih.1.tick, ih.2.tick⟩

theorem Reachable.run (hw : w.Reachable) {ops : List Operation} (hops : w.store.AdmitsAll ops) :
    (ops.foldl (fun w op => (w.perform op).1) w).Reachable := by
  induction ops generalizing w with
  | nil => exact hw
  | cons op ops ih =>
    obtain ⟨hsound, hstore⟩ := hw.sound_store
    refine ih (hw.perform op hops.1) ?_
    rw [(perform_mirrors hsound hstore.closed hops.1).store]
    exact hops.2

end World

end ScatteringData
