import Mathlib
import ScatteringData.Proofs.Store.Clone
import ScatteringData.Store.Operation

/-!
# What copying does

A copy of a map or of a center is a new object with the same keys in all its maps. Under each key
stands the same record or a clone of it, and no object that was there is changed.
-/

namespace ScatteringData

/-! ## References of centers -/

theorem Atom.mem_nodes {a : Atom} {n : Node} :
    n ∈ a.nodes ↔ n ∈ a.identity.name.nodes ∨ ∃ c, n ∈ (a.maps.get c).nodes := by
  unfold Atom.nodes
  rw [List.mem_append, List.mem_flatMap]
  refine or_congr_right ⟨fun ⟨c, _, h⟩ => ⟨c, h⟩, fun ⟨c, h⟩ => ⟨c, ?_, h⟩⟩
  cases c <;> simp [AtomicCategory.all]

theorem Nuclide.mem_nodes {x : Nuclide} {n : Node} :
    n ∈ x.nodes ↔ n ∈ x.identity.name.nodes ∨ n = .center (.atom x.atom) ∨
      ∃ c, n ∈ (x.maps.get c).nodes := by
  unfold Nuclide.nodes
  rw [List.mem_append, List.mem_cons, List.mem_flatMap]
  refine or_congr_right (or_congr_right ⟨fun ⟨c, _, h⟩ => ⟨c, h⟩, fun ⟨c, h⟩ => ⟨c, ?_, h⟩⟩)
  cases c <;> simp [NuclideCategory.all]

namespace Store

/-- The record of a copy: a clone where the copy has records of its own, and else the same one. -/
def Copied (deep : Bool) (s t : Store) (r q : RecordRef) : Prop :=
  if deep then s.IsClone t r q else q = r

structure AtomCopy (deep : Bool) (s t : Store) (a b : AtomRef) : Prop where
  fresh : ¬ s.Holds (.center (.atom b))
  held : t.Holds (.center (.atom b))
  identity : (t.atom b).identity = (s.atom a).identity
  maps : ∀ c, ((s.atom a).maps.get c).Related (Copied deep s t) ((t.atom b).maps.get c)

structure NuclideCopy (depth : Depth) (s t : Store) (n k : NuclideRef) : Prop where
  fresh : ¬ s.Holds (.center (.nuclide k))
  held : t.Holds (.center (.nuclide k))
  identity : (t.nuclide k).identity = (s.nuclide n).identity
  maps : ∀ c, ((s.nuclide n).maps.get c).Related (Copied (depth ≠ .maps) s t)
    ((t.nuclide k).maps.get c)
  /-- The atom is the same one, with all that it has, unless everything is copied. -/
  atom : if depth = .everything then AtomCopy true s t (s.nuclide n).atom (t.nuclide k).atom
    else (t.nuclide k).atom = (s.nuclide n).atom

structure MapCopy (deep : Bool) (s t : Store) (m k : MapRef) : Prop where
  fresh : ¬ s.Holds (.map k)
  held : t.Holds (.map k)
  content : (s.map m).Related (Copied deep s t) (t.map k)

end Store

/-- Whether the copy of a center has records of its own in a category. -/
def Depth.renews (depth : Depth) (c : CenterRef) (C : Category) : Bool :=
  match depth, c, C with
  | .maps, _, _ => false
  | .records, .nuclide _, .atomic _ => false
  | _, _, _ => true

namespace Store

/-- A center of a later store is a copy of one of an earlier store: a new center of the same kind,
with the same identity and the same keys in all categories. -/
structure IsCopy (depth : Depth) (s t : Store) (c k : CenterRef) : Prop where
  fresh : ¬ s.Holds (.center k)
  held : t.Holds (.center k)
  kind : k.kind = c.kind
  identity : t.identity k = s.identity c
  /-- A nuclide has the same atom, or a new one with the same identity if everything is copied. -/
  atom : ∀ n, c = .nuclide n →
    if depth = .everything then ¬ s.Holds (.center (.atom (t.atomOf k))) ∧
      t.identity (.atom (t.atomOf k)) = s.identity (.atom (s.atomOf c))
    else t.atomOf k = s.atomOf c
  maps : ∀ C, Option.Rel (RecordMap.Related (Copied (depth.renews c C) s t)) (s.centerMap? c C)
    (t.centerMap? k C)

variable {s t u : Store} {deep : Bool}

theorem Copied.extend {r q : RecordRef} (h : Copied deep s t r q) (htu : t.Extends u) :
    Copied deep s u r q := by
  cases deep with
  | true => exact IsClone.extend h htu
  | false => exact h

theorem IsClone.held {r q : RecordRef} (h : s.IsClone t r q) : t.Holds (.record q) := by
  obtain ⟨d, hd, hr, rfl⟩ := h
  exact hd.held _ (hd.mem_record hr)

theorem atom_eq (htu : t.Extends u) {a : AtomRef} (ha : t.Holds (.center (.atom a))) :
    u.atom a = t.atom a :=
  Item.atom.inj (htu _ ha).2

theorem AtomCopy.extend {a b : AtomRef} (h : AtomCopy deep s t a b) (htu : t.Extends u) :
    AtomCopy deep s u a b where
  fresh := h.fresh
  held := (htu _ h.held).1
  identity := by rw [atom_eq htu h.held]; exact h.identity
  maps c := by
    rw [atom_eq htu h.held]
    exact (h.maps c).imp fun _ _ hrq => hrq.extend htu

/-! ## One more object -/

theorem add_spec (hs : s.Closed) {i : Item} (hi : ∀ k ∈ i.nodes, s.Holds k) :
    (s.add i).1.Closed ∧ s.Extends (s.add i).1 ∧ ¬ s.Holds (s.add i).2 ∧
      (s.add i).1.Holds (s.add i).2 ∧ (s.add i).1.item (s.add i).2 = i := by
  refine ⟨hs.add_of_held hi, extends_add s i, not_holds_add s i, ?_, ?_⟩
  · exact (holds_add s i _).mpr (Or.inr rfl)
  · rw [item_add, if_pos rfl]

/-! ## Maps that are rebuilt -/

theorem passMap_renewed : passMap true = RecordMap.rebuild cloneRecord := rfl

theorem passMap_shared (s : Store) (m : RecordMap) : passMap false s m = (s, m) :=
  RecordMap.rebuild_same (fun _ _ => rfl) s m

theorem copyMap_shared (s : Store) (m : MapRef) : s.copyMap m false = s.addMap (s.mapObject m) := by
  unfold copyMap
  rw [passMap_shared]
  rfl

theorem atomicMaps_shared (s : Store) (ms : AtomicMaps) : ms.rebuild (passMap false) s = (s, ms) := by
  simp only [AtomicMaps.rebuild, passMap_shared]

theorem nuclideMaps_shared (s : Store) (ms : NuclideMaps) :
    ms.rebuild (passMap false) s = (s, ms) := by
  simp only [NuclideMaps.rebuild, passMap_shared]

theorem copyAtom_shared (s : Store) (a : AtomRef) : s.copyAtom a false =
    ((s.addAtom (s.atom a)).1, [(s.atom a).identity.passed], (s.addAtom (s.atom a)).2) := by
  change (let x := (s.atom a).maps.rebuild (passMap false) s;
    let y := x.1.addAtom { s.atom a with maps := x.2 };
    (y.1, [(s.atom a).identity.passed], y.2)) = _
  rw [atomicMaps_shared]

theorem addNuclideOn_shared (s : Store) (x : Nuclide) (a : AtomRef) :
    s.addNuclideOn x a false = s.addNuclide { x with atom := a } := by
  unfold addNuclideOn
  rw [nuclideMaps_shared]

section
variable (hs : s.Closed) (deep : Bool)
include hs

theorem passes_passRecord : Passes (fun t => t.Closed ∧ s.Extends t) Extends (passRecord deep)
    (fun r => s.Holds (.record r)) fun t r q => Copied deep s t r q ∧ t.Holds (.record q) := by
  refine ⟨fun h hle => ⟨h.1.extend hle, (hle _ h.2).1⟩, fun {t r} ht hr => ?_⟩
  cases deep with
  | true =>
    obtain ⟨hinv, hext, hclone⟩ := (passes_cloneRecord hs).step ht hr
    exact ⟨hinv, hext, hclone, hclone.held⟩
  | false => exact ⟨ht, Extends.refl t, rfl, (ht.2 _ hr).1⟩

theorem passMap_spec {m : RecordMap} (hm : ∀ n ∈ m.nodes, s.Holds n) :
    let x := passMap deep s m
    x.1.Closed ∧ s.Extends x.1 ∧
      m.Related (fun r q => Copied deep s x.1 r q ∧ x.1.Holds (.record q)) x.2 := by
  have hpass := (passes_passRecord hs deep).recordMap Extends.refl Extends.trans
  obtain ⟨⟨hclosed, -⟩, hext, hrel⟩ := hpass.step ⟨hs, Extends.refl s⟩ fun r hr =>
    hm _ (RecordMap.mem_nodes_of_mem_records hr)
  exact ⟨hclosed, hext, hrel⟩

theorem passAtomic_spec {ms : AtomicMaps} (hms : ∀ c, ∀ n ∈ (ms.get c).nodes, s.Holds n) :
    let x := ms.rebuild (passMap deep) s
    x.1.Closed ∧ s.Extends x.1 ∧ ∀ c, (ms.get c).Related
      (fun r q => Copied deep s x.1 r q ∧ x.1.Holds (.record q)) (x.2.get c) := by
  have hpass := ((passes_passRecord hs deep).recordMap Extends.refl Extends.trans).atomicMaps
    fun h h' => h.trans h'
  obtain ⟨⟨hclosed, -⟩, hext, hrel⟩ := hpass.step ⟨hs, Extends.refl s⟩ fun c r hr =>
    hms c _ (RecordMap.mem_nodes_of_mem_records hr)
  exact ⟨hclosed, hext, hrel⟩

theorem passNuclide_spec (ht : t.Closed) (hst : s.Extends t) {ms : NuclideMaps}
    (hms : ∀ c, ∀ n ∈ (ms.get c).nodes, s.Holds n) :
    let x := ms.rebuild (passMap deep) t
    x.1.Closed ∧ t.Extends x.1 ∧ ∀ c, (ms.get c).Related
      (fun r q => Copied deep s x.1 r q ∧ x.1.Holds (.record q)) (x.2.get c) := by
  have hpass := ((passes_passRecord hs deep).recordMap Extends.refl Extends.trans).nuclideMaps
    fun h h' => h.trans h'
  obtain ⟨⟨hclosed, -⟩, hext, hrel⟩ := hpass.step ⟨ht, hst⟩ fun c r hr =>
    hms c _ (RecordMap.mem_nodes_of_mem_records hr)
  exact ⟨hclosed, hext, hrel⟩

end

/-! ## Copies -/

theorem copyAtom_spec (hs : s.Closed) {a : AtomRef} (ha : s.Holds (.center (.atom a)))
    (deep : Bool) :
    (s.copyAtom a deep).1.Closed ∧ s.Extends (s.copyAtom a deep).1 ∧
      AtomCopy deep s (s.copyAtom a deep).1 a (s.copyAtom a deep).2.2 := by
  have hnodes := fun c n hn => hs _ ha n (Atom.mem_nodes.mpr (Or.inr ⟨c, hn⟩))
  have hpassed := passAtomic_spec hs deep hnodes
  unfold copyAtom
  dsimp only at hpassed ⊢
  generalize (s.atom a).maps.rebuild (passMap deep) s = x at hpassed ⊢
  obtain ⟨u, maps⟩ := x
  obtain ⟨hclosed, hext, hrel⟩ := hpassed
  dsimp only at hclosed hext hrel ⊢
  have hheld : ∀ k ∈ (Item.atom { s.atom a with maps }).nodes, u.Holds k := by
    intro k hk
    rcases Atom.mem_nodes.mp hk with hk | ⟨c, hk⟩
    · exact (hext k (hs _ ha k (Atom.mem_nodes.mpr (Or.inl hk)))).1
    · refine (hrel c).nodes (fun _ _ hrq => hrq.2) (fun j hj => ?_) k hk
      exact (hext j (hnodes c j (RecordMap.keyNodes_subset _ j hj))).1
  obtain ⟨hclosed', hext', hfresh, hheld', hitem⟩ := add_spec hclosed hheld
  have hnew := Item.atom.inj hitem
  have hidentity := congrArg Atom.identity hnew
  refine ⟨hclosed', hext.trans hext', fun h => hfresh (hext _ h).1, hheld', hidentity, fun c => ?_⟩
  have hmaps := congrArg (fun x => x.maps.get c) hnew
  exact hmaps ▸ (hrel c).imp fun _ _ hrq => hrq.1.extend hext'

theorem copyMap_spec (hs : s.Closed) {m : MapRef} (hm : s.Holds (.map m)) (deep : Bool) :
    (s.copyMap m deep).1.Closed ∧ s.Extends (s.copyMap m deep).1 ∧
      MapCopy deep s (s.copyMap m deep).1 m (s.copyMap m deep).2 := by
  have hnodes : ∀ n ∈ (s.map m).nodes, s.Holds n := fun n hn =>
    hs _ hm n (List.mem_append_right _ hn)
  have hpassed := passMap_spec hs deep hnodes
  unfold copyMap
  dsimp only at hpassed ⊢
  generalize passMap deep s (s.map m) = x at hpassed ⊢
  obtain ⟨u, content⟩ := x
  obtain ⟨hclosed, hext, hrel⟩ := hpassed
  dsimp only at hclosed hext hrel ⊢
  have hheld : ∀ k ∈ (Item.map { s.mapObject m with content }).nodes, u.Holds k := by
    intro k hk
    rcases List.mem_append.mp hk with hk | hk
    · exact (hext k (hs _ hm k (List.mem_append_left _ hk))).1
    · refine hrel.nodes (fun _ _ hrq => hrq.2) (fun j hj => ?_) k hk
      exact (hext j (hnodes j (RecordMap.keyNodes_subset _ j hj))).1
  obtain ⟨hclosed', hext', hfresh, hheld', hitem⟩ := add_spec hclosed hheld
  have hnew : (u.addMap { s.mapObject m with content }).1.map
      (u.addMap { s.mapObject m with content }).2 = content :=
    congrArg MapObject.content (Item.map.inj hitem)
  refine ⟨hclosed', hext.trans hext', fun h => hfresh (hext _ h).1, hheld', ?_⟩
  rw [hnew]
  exact hrel.imp fun _ _ hrq => hrq.1.extend hext'

theorem addNuclideOn_spec (hs : s.Closed) {n : NuclideRef} (hn : s.Holds (.center (.nuclide n)))
    (deep : Bool) {t : Store} (ht : t.Closed) (hst : s.Extends t) {a : AtomRef}
    (ha : t.Holds (.center (.atom a))) :
    let y := t.addNuclideOn (s.nuclide n) a deep
    y.1.Closed ∧ t.Extends y.1 ∧ ¬ s.Holds (.center (.nuclide y.2)) ∧
      y.1.Holds (.center (.nuclide y.2)) ∧
      (y.1.nuclide y.2).identity = (s.nuclide n).identity ∧ (y.1.nuclide y.2).atom = a ∧
      ∀ c, ((s.nuclide n).maps.get c).Related (Copied deep s y.1) ((y.1.nuclide y.2).maps.get c) := by
  have hnodes := fun c k hk => hs _ hn k (Nuclide.mem_nodes.mpr (Or.inr (Or.inr ⟨c, hk⟩)))
  have hpassed := passNuclide_spec hs deep ht hst hnodes
  unfold addNuclideOn
  dsimp only at hpassed ⊢
  generalize (s.nuclide n).maps.rebuild (passMap deep) t = x at hpassed ⊢
  obtain ⟨hclosed, hext, hrel⟩ := hpassed
  have hsx := hst.trans hext
  have hheld : ∀ k ∈ (Item.nuclide { s.nuclide n with atom := a, maps := x.2 }).nodes,
      x.1.Holds k := by
    intro k hk
    rcases Nuclide.mem_nodes.mp hk with hk | rfl | ⟨c, hk⟩
    · exact (hsx k (hs _ hn k (Nuclide.mem_nodes.mpr (Or.inl hk)))).1
    · exact (hext _ ha).1
    · refine (hrel c).nodes (fun _ _ hrq => hrq.2) (fun j hj => ?_) k hk
      exact (hsx j (hnodes c j (RecordMap.keyNodes_subset _ j hj))).1
  obtain ⟨hclosed', hext', hfresh, hheld', hitem⟩ := add_spec hclosed hheld
  have hnew := Item.nuclide.inj hitem
  have hidentity := congrArg Nuclide.identity hnew
  have hatom := congrArg Nuclide.atom hnew
  refine ⟨hclosed', hext.trans hext', fun h => hfresh (hsx _ h).1, hheld', hidentity, hatom, ?_⟩
  intro c
  have hmaps := congrArg (fun y => y.maps.get c) hnew
  exact hmaps ▸ (hrel c).imp fun _ _ hrq => hrq.1.extend hext'

theorem copyNuclide_spec (hs : s.Closed) {n : NuclideRef} (hn : s.Holds (.center (.nuclide n)))
    (depth : Depth) :
    (s.copyNuclide n depth).1.Closed ∧ s.Extends (s.copyNuclide n depth).1 ∧
      NuclideCopy depth s (s.copyNuclide n depth).1 n (s.copyNuclide n depth).2.2 := by
  have hatom : s.Holds (.center (.atom (s.nuclide n).atom)) :=
    hs _ hn _ (Nuclide.mem_nodes.mpr (Or.inr (Or.inl rfl)))
  cases depth with
  | maps =>
    obtain ⟨hclosed, hext, hfresh, hheld, hidentity, heq, hrel⟩ :=
      addNuclideOn_spec hs hn false hs (Extends.refl s) hatom
    exact ⟨hclosed, hext, hfresh, hheld, hidentity, hrel, heq⟩
  | records =>
    obtain ⟨hclosed, hext, hfresh, hheld, hidentity, heq, hrel⟩ :=
      addNuclideOn_spec hs hn true hs (Extends.refl s) hatom
    exact ⟨hclosed, hext, hfresh, hheld, hidentity, hrel, heq⟩
  | everything =>
    -- the atom is copied first; the records are still those that the first store held
    obtain ⟨hclosed, hext, hcopy⟩ := copyAtom_spec hs hatom true
    obtain ⟨hclosed', hext', hfresh, hheld, hidentity, heq, hrel⟩ :=
      addNuclideOn_spec hs hn true hclosed hext hcopy.held
    refine ⟨hclosed', hext.trans hext', hfresh, hheld, hidentity, hrel, ?_⟩
    rw [if_pos rfl]
    exact heq.symm ▸ hcopy.extend hext'

theorem AtomCopy.isCopy {depth : Depth} {a b : AtomRef} (h : AtomCopy (depth ≠ .maps) s t a b) :
    IsCopy depth s t (.atom a) (.atom b) where
  fresh := h.fresh
  held := h.held
  kind := rfl
  identity := h.identity
  atom := fun n hn => by cases hn
  maps C := by
    cases C with
    | atomic c =>
      have hrenews : depth.renews (.atom a) (.atomic c) = decide (depth ≠ .maps) := by
        cases depth <;> rfl
      rw [hrenews]
      exact .some (h.maps c)
    | nuclide c => exact .none

theorem NuclideCopy.isCopy (hst : s.Extends t) {depth : Depth} {n k : NuclideRef}
    (ha : s.Holds (.center (.atom (s.nuclide n).atom))) (h : NuclideCopy depth s t n k) :
    IsCopy depth s t (.nuclide n) (.nuclide k) where
  fresh := h.fresh
  held := h.held
  kind := rfl
  identity := h.identity
  atom := fun _ _ => by
    have hatom := h.atom
    by_cases hdepth : depth = .everything
    · rw [if_pos hdepth] at hatom ⊢
      exact ⟨hatom.fresh, hatom.identity⟩
    · rw [if_neg hdepth] at hatom ⊢
      exact hatom
  maps C := by
    cases C with
    | nuclide c =>
      have hrenews : depth.renews (.nuclide n) (.nuclide c) = decide (depth ≠ .maps) := by
        cases depth <;> rfl
      rw [hrenews]
      exact .some (h.maps c)
    | atomic c =>
      have hatom := h.atom
      have hrenews : depth.renews (.nuclide n) (.atomic c) = decide (depth = .everything) := by
        cases depth <;> rfl
      rw [hrenews]
      refine .some ?_
      change ((s.atom (s.nuclide n).atom).maps.get c).Related _
        ((t.atom (t.nuclide k).atom).maps.get c)
      by_cases hdepth : depth = .everything
      · rw [if_pos hdepth] at hatom
        rw [decide_eq_true hdepth]
        exact hatom.maps c
      · rw [if_neg hdepth] at hatom
        rw [decide_eq_false hdepth, hatom, atom_eq hst ha]
        exact RecordMap.Related.refl (R := Copied false s t) (fun _ => rfl) _

/-- Copying a center adds its copy, changes no object, and leaves a closed store closed. -/
theorem copyCenter_spec (hs : s.Closed) {c : CenterRef} (hc : s.Holds (.center c)) (depth : Depth) :
    (s.copyCenter c depth).1.Closed ∧ s.Extends (s.copyCenter c depth).1 ∧
      IsCopy depth s (s.copyCenter c depth).1 c (s.copyCenter c depth).2.2 := by
  cases c with
  | atom a =>
    obtain ⟨hclosed, hext, hcopy⟩ := copyAtom_spec hs hc (depth ≠ .maps)
    exact ⟨hclosed, hext, hcopy.isCopy⟩
  | nuclide n =>
    obtain ⟨hclosed, hext, hcopy⟩ := copyNuclide_spec hs hc depth
    have hatom := hs _ hc _ (Nuclide.mem_nodes.mpr (Or.inr (Or.inl rfl)))
    exact ⟨hclosed, hext, hcopy.isCopy hext hatom⟩

end Store

end ScatteringData
