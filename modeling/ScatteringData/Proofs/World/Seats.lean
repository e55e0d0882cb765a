import Mathlib
import ScatteringData.World.Basic

/-!
# What is in the seats

A store in which all maps are replaced is determined by what they are replaced with. If that changes in
one seat only, the store changes in that seat only.
-/

namespace ScatteringData

variable {M N : Type}

theorem AtomicMaps.get_ofFunction (f : AtomicCategory → M) (k : AtomicCategory) :
    (AtomicMaps.ofFunction f).get k = f k := by cases k <;> rfl

theorem NuclideMaps.get_ofFunction (f : NuclideCategory → M) (k : NuclideCategory) :
    (NuclideMaps.ofFunction f).get k = f k := by cases k <;> rfl

theorem AtomicMaps.ofFunction_get (ms : AtomicMaps M) : AtomicMaps.ofFunction ms.get = ms := rfl

theorem NuclideMaps.ofFunction_get (ms : NuclideMaps M) : NuclideMaps.ofFunction ms.get = ms := rfl

theorem AtomicMaps.ext_get {as bs : AtomicMaps M} (h : ∀ k, as.get k = bs.get k) : as = bs := by
  rw [← as.ofFunction_get, ← bs.ofFunction_get, funext h]

theorem NuclideMaps.ext_get {as bs : NuclideMaps M} (h : ∀ k, as.get k = bs.get k) : as = bs := by
  rw [← as.ofFunction_get, ← bs.ofFunction_get, funext h]

section
variable {f g : M → N} {v : N}

theorem AtomicMaps.mapMaps_eq_put {ms : AtomicMaps M} {k : AtomicCategory} (hv : g (ms.get k) = v)
    (hother : ∀ l, l ≠ k → g (ms.get l) = f (ms.get l)) :
    ms.mapMaps g = (ms.mapMaps f).put k v := by
  refine ext_get fun l => ?_
  rw [get_put, mapMaps, mapMaps, get_ofFunction, get_ofFunction]
  by_cases hl : k = l
  · rw [if_pos hl, ← hl, hv]
  · rw [if_neg hl, hother l (Ne.symm hl)]

theorem NuclideMaps.mapMaps_eq_put {ms : NuclideMaps M} {k : NuclideCategory} (hv : g (ms.get k) = v)
    (hother : ∀ l, l ≠ k → g (ms.get l) = f (ms.get l)) :
    ms.mapMaps g = (ms.mapMaps f).put k v := by
  refine ext_get fun l => ?_
  rw [get_put, mapMaps, mapMaps, get_ofFunction, get_ofFunction]
  by_cases hl : k = l
  · rw [if_pos hl, ← hl, hv]
  · rw [if_neg hl, hother l (Ne.symm hl)]

end

section
variable {α β : Type} {xs : Array α} {f g : α → β} {i : Nat}

theorem map_eq_modify {u : β → β} (hat : ∀ a, xs[i]? = some a → g a = u (f a))
    (hother : ∀ j a, j ≠ i → xs[j]? = some a → g a = f a) : xs.map g = (xs.map f).modify i u := by
  refine Array.ext_getElem? fun j => ?_
  rw [Array.getElem?_modify, Array.getElem?_map, Array.getElem?_map]
  by_cases hj : i = j
  · subst hj
    rw [if_pos rfl, Option.map_map]
    exact Option.map_congr fun a ha => hat a ha
  · rw [if_neg hj]
    exact Option.map_congr fun a ha => hother j a (Ne.symm hj) ha

theorem map_eq_map (h : ∀ (j : Nat) a, xs[j]? = some a → g a = f a) : xs.map g = xs.map f := by
  refine Array.ext_getElem? fun j => ?_
  rw [Array.getElem?_map, Array.getElem?_map]
  exact Option.map_congr fun a ha => h j a ha

theorem setIfInBounds_eq_modify (xs : Array α) (u : α → α) (d : α) :
    xs.setIfInBounds i (u (xs.getD i d)) = xs.modify i u := by
  refine Array.ext_getElem? fun j => ?_
  rw [Array.getElem?_modify, Array.getElem?_setIfInBounds, Array.getD_eq_getD_getElem?]
  by_cases hj : i = j
  · subst hj
    rw [if_pos rfl, if_pos rfl]
    by_cases hi : i < xs.size
    · simp [hi]
    · simp [hi]
  · rw [if_neg hj, if_neg hj]

end

namespace Store

/-- Puts something in a seat. -/
def putAt (s : Store M) (v : M) : Seat → Store M
  | .map m => { s with maps := s.maps.modify m.index fun x => { x with content := v } }
  | .atomic a k => { s with atoms := s.atoms.modify a.index fun x => { x with maps := x.maps.put k v } }
  | .nuclide n k =>
    { s with nuclides := s.nuclides.modify n.index fun x => { x with maps := x.maps.put k v } }

section
variable {s : Store M} {f g : M → N}

theorem map_atoms (h : ∀ (i : Nat) a, s.atoms[i]? = some a → ∀ k, g (a.maps.get k) = f (a.maps.get k)) :
    s.atoms.map (Atom.mapMaps g) = s.atoms.map (Atom.mapMaps f) :=
  map_eq_map fun i a ha => congrArg (Atom.mk a.identity) (congrArg AtomicMaps.ofFunction (funext (h i a ha)))

theorem map_nuclides
    (h : ∀ (i : Nat) n, s.nuclides[i]? = some n → ∀ k, g (n.maps.get k) = f (n.maps.get k)) :
    s.nuclides.map (Nuclide.mapMaps g) = s.nuclides.map (Nuclide.mapMaps f) :=
  map_eq_map fun i n hn =>
    congrArg (Nuclide.mk n.identity n.atom) (congrArg NuclideMaps.ofFunction (funext (h i n hn)))

theorem map_maps (h : ∀ (i : Nat) m, s.maps[i]? = some m → g m.content = f m.content) :
    s.maps.map (MapObject.mapMaps g) = s.maps.map (MapObject.mapMaps f) :=
  map_eq_map fun i m hm => congrArg (MapObject.mk · m.category) (h i m hm)

theorem mapMaps_congr (h : ∀ p x, s.at? p = some x → g x = f x) : s.mapMaps g = s.mapMaps f := by
  have hatoms := map_atoms (s := s) (f := f) (g := g) fun i a ha k =>
    h (.atomic ⟨i⟩ k) _ (congrArg (Option.map _) ha)
  have hnuclides := map_nuclides (s := s) (f := f) (g := g) fun i n hn k =>
    h (.nuclide ⟨i⟩ k) _ (congrArg (Option.map _) hn)
  have hmaps := map_maps (s := s) (f := f) (g := g) fun i m hm =>
    h (.map ⟨i⟩) _ (congrArg (Option.map _) hm)
  unfold mapMaps
  rw [hatoms, hnuclides, hmaps]

theorem mapMaps_putAt {p : Seat} {x : M} {v : N} (hx : s.at? p = some x) (hv : g x = v)
    (hother : ∀ q y, q ≠ p → s.at? q = some y → g y = f y) :
    s.mapMaps g = (s.mapMaps f).putAt v p := by
  have hatoms : (∀ a k, p ≠ .atomic a k) → s.atoms.map (Atom.mapMaps g) = s.atoms.map (Atom.mapMaps f) :=
    fun hp => map_atoms fun i a ha k =>
      hother (.atomic ⟨i⟩ k) _ (hp ⟨i⟩ k).symm (congrArg (Option.map _) ha)
  have hnuclides : (∀ n k, p ≠ .nuclide n k) →
      s.nuclides.map (Nuclide.mapMaps g) = s.nuclides.map (Nuclide.mapMaps f) :=
    fun hp => map_nuclides fun i n hn k =>
      hother (.nuclide ⟨i⟩ k) _ (hp ⟨i⟩ k).symm (congrArg (Option.map _) hn)
  have hmaps : (∀ m, p ≠ .map m) → s.maps.map (MapObject.mapMaps g) = s.maps.map (MapObject.mapMaps f) :=
    fun hp => map_maps fun i m hm => hother (.map ⟨i⟩) _ (hp ⟨i⟩).symm (congrArg (Option.map _) hm)
  cases p with
  | map m =>
    unfold mapMaps putAt
    rw [hatoms (fun _ _ => nofun), hnuclides (fun _ _ => nofun)]
    refine congrArg (fun maps => Store.mk _ _ _ maps _ _ _) (map_eq_modify ?_ ?_)
    · intro y hy
      obtain ⟨z, hz, rfl⟩ := Option.map_eq_some_iff.mp hx
      obtain rfl := Option.some.inj (hy.symm.trans hz)
      exact congrArg (MapObject.mk · y.category) hv
    · intro i y hi hy
      refine congrArg (MapObject.mk · y.category) (hother (.map ⟨i⟩) _ ?_ (congrArg (Option.map _) hy))
      exact fun h => hi (congrArg MapRef.index (Seat.map.inj h))
  | atomic a k =>
    unfold mapMaps putAt
    rw [hnuclides (fun _ _ => nofun), hmaps (fun _ => nofun)]
    refine congrArg (fun atoms => Store.mk _ atoms _ _ _ _ _) (map_eq_modify ?_ ?_)
    · intro y hy
      obtain ⟨z, hz, rfl⟩ := Option.map_eq_some_iff.mp hx
      obtain rfl := Option.some.inj (hy.symm.trans hz)
      refine congrArg (Atom.mk y.identity) (AtomicMaps.mapMaps_eq_put hv fun l hl => ?_)
      exact hother (.atomic a l) _ (fun h => hl (Seat.atomic.inj h).2) (congrArg (Option.map _) hy)
    · intro i y hi hy
      refine congrArg (Atom.mk y.identity) (congrArg AtomicMaps.ofFunction (funext fun l => ?_))
      refine hother (.atomic ⟨i⟩ l) _ ?_ (congrArg (Option.map _) hy)
      exact fun h => hi (congrArg AtomRef.index (Seat.atomic.inj h).1)
  | nuclide n k =>
    unfold mapMaps putAt
    rw [hatoms (fun _ _ => nofun), hmaps (fun _ => nofun)]
    refine congrArg (fun nuclides => Store.mk _ _ nuclides _ _ _ _) (map_eq_modify ?_ ?_)
    · intro y hy
      obtain ⟨z, hz, rfl⟩ := Option.map_eq_some_iff.mp hx
      obtain rfl := Option.some.inj (hy.symm.trans hz)
      refine congrArg (Nuclide.mk y.identity y.atom) (NuclideMaps.mapMaps_eq_put hv fun l hl => ?_)
      exact hother (.nuclide n l) _ (fun h => hl (Seat.nuclide.inj h).2) (congrArg (Option.map _) hy)
    · intro i y hi hy
      refine congrArg (Nuclide.mk y.identity y.atom) (congrArg NuclideMaps.ofFunction (funext fun l => ?_))
      refine hother (.nuclide ⟨i⟩ l) _ ?_ (congrArg (Option.map _) hy)
      exact fun h => hi (congrArg NuclideRef.index (Seat.nuclide.inj h).1)

end

/-! ## Stores of maps -/

variable {s : Store}

theorem putMap_eq (s : Store) (m : MapRef) (v : RecordMap) : s.putMap m v = s.putAt v (.map m) :=
  congrArg (fun maps => { s with maps })
    (setIfInBounds_eq_modify s.maps (fun x => { x with content := v }) default)

theorem putCenterMap_eq {c : CenterRef} {k : Category} {p : Seat} (hp : s.seat? c k = some p)
    (v : RecordMap) : s.putCenterMap c k v = s.putAt v p := by
  unfold seat? at hp
  split at hp
  · rename_i k
    cases hp
    exact congrArg (fun atoms => { s with atoms })
      (setIfInBounds_eq_modify s.atoms (fun x => { x with maps := x.maps.put k v }) default)
  · rename_i k n
    cases hp
    exact congrArg (fun nuclides => { s with nuclides })
      (setIfInBounds_eq_modify s.nuclides (fun x => { x with maps := x.maps.put k v }) default)
  · cases hp

end Store

end ScatteringData
