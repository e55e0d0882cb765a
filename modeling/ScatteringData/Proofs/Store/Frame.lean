import Mathlib
import ScatteringData.Proofs.Store.Sharing

/-!
# What an operation can do

An operation changes at most the object that it is aimed at. Objects stay where they are, centers
keep their identities and their atoms, and a nuclide that is added is on an added atom or on the atom
of a center that the operation was given.
-/

namespace ScatteringData

/-- The object that has the map of a center in a category. -/
def Store.home (s : Store) (c : CenterRef) : Category → Node
  | .atomic _ => .center (.atom (s.atomOf c))
  | .nuclide _ => .center c

/-- The objects that an operation may change. -/
def Operation.targets (s : Store) : Operation → List Node
  | .assign r _ _ => [.record r]
  | .set m _ => [.map m]
  | .setOn c k _ => [s.home c k]
  | .addToCache c _ | .removeFromCache c _ | .link c _ _ | .unlink c _ | .clear c => [.cache c]
  | _ => []

/-- What an operation may change it was given, or it was given a center of the atom. -/
theorem Operation.mem_targets {s : Store} {op : Operation} {n : Node} (h : n ∈ op.targets s) :
    n ∈ op.nodes ∨ ∃ c, .center c ∈ op.nodes ∧ n = .center (.atom (s.atomOf c)) := by
  cases op with
  | setOn c k v =>
    rw [targets, List.mem_singleton] at h
    cases k with
    | atomic k => exact Or.inr ⟨c, List.mem_cons_self .., h⟩
    | nuclide k => exact Or.inl (h ▸ List.mem_cons_self ..)
  | assign | set | addToCache | removeFromCache | link | unlink | clear =>
    rw [targets, List.mem_singleton] at h
    exact Or.inl (h ▸ List.mem_cons_self ..)
  | _ => cases h

namespace Store

/-- What can become of a store: objects stay, only targets are changed, centers keep their identities
and their atoms, and an added nuclide is on an added atom or on one of certain atoms. -/
structure Frame (targets : Node → Prop) (atoms : AtomRef → Prop) (s t : Store) : Prop where
  holds : ∀ n, s.Holds n → t.Holds n
  item : ∀ n, s.Holds n → ¬ targets n → t.item n = s.item n
  identity : ∀ c, s.Holds (.center c) → t.identity c = s.identity c
  atomOf : ∀ c, s.Holds (.center c) → t.atomOf c = s.atomOf c
  added : ∀ n, t.Holds (.center (.nuclide n)) → ¬ s.Holds (.center (.nuclide n)) →
    atoms (t.nuclide n).atom ∨ ¬ s.Holds (.center (.atom (t.nuclide n).atom))

variable {targets : Node → Prop} {atoms : AtomRef → Prop} {s t u : Store}

theorem center_congr {c : CenterRef} (h : t.item (.center c) = s.item (.center c)) :
    t.identity c = s.identity c ∧ t.atomOf c = s.atomOf c := by
  cases c with
  | atom a => exact ⟨congrArg Atom.identity (Item.atom.inj h), rfl⟩
  | nuclide n =>
    have hn := Item.nuclide.inj h
    exact ⟨congrArg Nuclide.identity hn, congrArg Nuclide.atom hn⟩

namespace Frame

theorem of_extends (h : s.Extends t)
    (hadded : ∀ n, t.Holds (.center (.nuclide n)) → ¬ s.Holds (.center (.nuclide n)) →
      atoms (t.nuclide n).atom ∨ ¬ s.Holds (.center (.atom (t.nuclide n).atom))) :
    Frame targets atoms s t where
  holds n hn := (h n hn).1
  item n hn _ := (h n hn).2
  identity _ hc := (center_congr (h _ hc).2).1
  atomOf _ hc := (center_congr (h _ hc).2).2
  added := hadded

theorem refl (s : Store) : Frame targets atoms s s :=
  of_extends (Extends.refl s) fun _ hn hnot => absurd hn hnot

/-- A further step may also change what is new, and it may use atoms that are new. -/
theorem comp (h : Frame targets atoms s t) {targets' : Node → Prop} {atoms' : AtomRef → Prop}
    (h' : Frame targets' atoms' t u) (htargets : ∀ n, s.Holds n → targets' n → targets n)
    (hatoms : ∀ a, atoms' a → atoms a ∨ ¬ s.Holds (.center (.atom a))) :
    Frame targets atoms s u where
  holds n hn := h'.holds n (h.holds n hn)
  item n hn hnot :=
    (h'.item n (h.holds n hn) fun hn' => hnot (htargets n hn hn')).trans (h.item n hn hnot)
  identity c hc := (h'.identity c (h.holds _ hc)).trans (h.identity c hc)
  atomOf c hc := (h'.atomOf c (h.holds _ hc)).trans (h.atomOf c hc)
  added n hu hs := by
    by_cases ht : t.Holds (.center (.nuclide n))
    · have hatom : (u.nuclide n).atom = (t.nuclide n).atom := h'.atomOf (.nuclide n) ht
      rw [hatom]
      exact h.added n ht hs
    · rcases h'.added n hu ht with hatom | hnot
      · exact hatoms _ hatom
      · exact Or.inr fun hatom => hnot (h.holds _ hatom)

theorem trans (h : Frame targets atoms s t) (h' : Frame targets atoms t u) :
    Frame targets atoms s u :=
  h.comp h' (fun _ _ hn => hn) fun _ ha => Or.inl ha

/-- Atoms that are added need not be among the certain ones. -/
theorem of_added (h : Frame targets (fun a => atoms a ∨ ¬ s.Holds (.center (.atom a))) s t) :
    Frame targets atoms s t :=
  (refl s).comp h (fun _ _ hn => hn) fun _ ha => ha

theorem add {i : Item}
    (hi : ∀ x, i = .nuclide x → atoms x.atom ∨ ¬ s.Holds (.center (.atom x.atom))) :
    Frame targets atoms s (s.add i).1 := by
  refine of_extends (extends_add s i) fun n ht hs => ?_
  have hnew := ((holds_add s i _).mp ht).resolve_left hs
  have hitem := item_add s i (.center (.nuclide n))
  rw [if_pos hnew] at hitem
  exact hi _ hitem.symm

theorem put {k : Node} {i : Item} (hfit : Fits k i) (hk : targets k)
    (hcenter : ∀ c, k = .center c →
      (s.put k i).identity c = s.identity c ∧ (s.put k i).atomOf c = s.atomOf c) :
    Frame targets atoms s (s.put k i) := by
  by_cases hheld : s.Holds k
  · have hitem : ∀ n, n ≠ k → (s.put k i).item n = s.item n := fun n hn => by
      rw [item_put hheld hfit, if_neg hn]
    have hkept : ∀ c, (s.put k i).identity c = s.identity c ∧
        (s.put k i).atomOf c = s.atomOf c := fun c => by
      by_cases hc : k = .center c
      · exact hcenter c hc
      · exact center_congr (hitem _ (Ne.symm hc))
    refine ⟨fun n hn => (holds_put s k i n).mpr hn, fun n _ hn => hitem n ?_,
      fun c _ => (hkept c).1, fun c _ => (hkept c).2, fun n hn hnot => ?_⟩
    · rintro rfl
      exact hn hk
    · exact absurd ((holds_put s k i _).mp hn) hnot
  · rw [put_of_not_holds hheld]
    exact refl s

end Frame

/-! ## Clones and copies -/

/-- A nuclide that is cloned with a record is on a clone of its atom. -/
theorem cloneRecord_frame (hs : s.Closed) {r : RecordRef} (hr : s.Holds (.record r)) :
    Frame targets atoms s (s.cloneRecord r).1 := by
  obtain ⟨-, hext, d, hd, -, -, hnew⟩ := cloneRecord_spec hs hr
  refine Frame.of_extends hext fun n ht hnot => Or.inr ?_
  obtain ⟨⟨k, -⟩, hp, rfl⟩ := List.mem_map.mp ((hnew _ ht).resolve_left hnot)
  have hitem := hd.item _ hp
  rcases k with q | (b | m) | m | c <;> try cases hitem
  have hatom := congrArg Nuclide.atom (Item.nuclide.inj hitem)
  have hmem := hd.saturated _ (List.mem_map_of_mem hp) (.center (.atom (s.nuclide m).atom))
    (Nuclide.mem_nodes.mpr (Or.inr (Or.inl rfl)))
  obtain ⟨p, hp, heq⟩ := List.mem_map.mp (hd.maps.atom _ hmem)
  rw [hatom]
  exact heq ▸ hd.fresh p hp

theorem passes_frame (targets : Node → Prop) (atoms : AtomRef → Prop) {s₀ : Store}
    (hs₀ : s₀.Closed) (deep : Bool) :
    Passes (fun s => s.Closed ∧ s₀.Extends s) (Frame targets atoms) (passRecord deep)
      (fun r => s₀.Holds (.record r)) fun _ _ _ => True := by
  refine ⟨fun _ _ => trivial, fun {s r} hs hr => ?_⟩
  cases deep with
  | false => exact ⟨hs, Frame.refl s, trivial⟩
  | true =>
    obtain ⟨hclosed, hst, -⟩ := cloneRecord_isClone hs₀ hs.2 hs.1 hr
    exact ⟨⟨hclosed, hs.2.trans hst⟩, cloneRecord_frame hs.1 (hs.2 _ hr).1, trivial⟩

theorem copyMap_frame (hs : s.Closed) {m : MapRef} (hm : s.Holds (.map m)) (deep : Bool) :
    Frame targets atoms s (s.copyMap m deep).1 := by
  have hpass := (passes_frame targets atoms hs deep).recordMap Frame.refl Frame.trans
  obtain ⟨-, hframe, -⟩ := hpass.step (a := s.map m) ⟨hs, Extends.refl s⟩ fun r hr =>
    hs _ hm _ (List.mem_append_right _ (RecordMap.mem_nodes_of_mem_records hr))
  exact hframe.trans (Frame.add (i := .map _) fun x hx => by cases hx)

theorem copyAtom_frame (hs : s.Closed) {a : AtomRef} (ha : s.Holds (.center (.atom a)))
    (deep : Bool) : Frame targets atoms s (s.copyAtom a deep).1 := by
  have hpass := ((passes_frame targets atoms hs deep).recordMap Frame.refl Frame.trans).atomicMaps
    fun h h' => h.trans h'
  obtain ⟨-, hframe, -⟩ := hpass.step (a := (s.atom a).maps) ⟨hs, Extends.refl s⟩ fun c r hr =>
    hs _ ha _ (Atom.mem_nodes.mpr (Or.inr ⟨c, RecordMap.mem_nodes_of_mem_records hr⟩))
  exact hframe.trans (Frame.add (i := .atom _) fun x hx => by cases hx)

theorem addNuclideOn_frame (hs : s.Closed) {n : NuclideRef} (hn : s.Holds (.center (.nuclide n)))
    {t : Store} (ht : t.Closed) (hext : s.Extends t) {a : AtomRef} (ha : atoms a) (deep : Bool) :
    Frame targets atoms t (t.addNuclideOn (s.nuclide n) a deep).1 := by
  have hpass := ((passes_frame targets atoms hs deep).recordMap Frame.refl Frame.trans).nuclideMaps
    fun h h' => h.trans h'
  obtain ⟨-, hframe, -⟩ := hpass.step (a := (s.nuclide n).maps) ⟨ht, hext⟩ fun c r hr =>
    hs _ hn _ (Nuclide.mem_nodes.mpr (Or.inr (Or.inr
      ⟨c, RecordMap.mem_nodes_of_mem_records hr⟩)))
  refine hframe.trans (Frame.add (i := .nuclide _) fun x hx => ?_)
  cases hx
  exact Or.inl ha

theorem copyNuclide_frame (hs : s.Closed) {n : NuclideRef} (hn : s.Holds (.center (.nuclide n)))
    (depth : Depth) (hatom : depth ≠ .everything → atoms (s.nuclide n).atom) :
    Frame targets atoms s (s.copyNuclide n depth).1 := by
  refine Frame.of_added ?_
  cases depth with
  | maps => exact addNuclideOn_frame hs hn hs (Extends.refl s) (Or.inl (hatom (by decide))) false
  | records => exact addNuclideOn_frame hs hn hs (Extends.refl s) (Or.inl (hatom (by decide))) true
  | everything =>
    have ha := hs _ hn _ (Nuclide.mem_nodes.mpr (Or.inr (Or.inl rfl)))
    obtain ⟨hclosed, hext, hcopy⟩ := copyAtom_spec hs ha true
    refine (copyAtom_frame hs ha true).trans ?_
    exact addNuclideOn_frame hs hn hclosed hext (Or.inr hcopy.fresh) true

theorem copyCenter_frame (hs : s.Closed) {c : CenterRef} (hc : s.Holds (.center c)) (depth : Depth)
    (hatom : ∀ n, c = .nuclide n → depth ≠ .everything → atoms (s.nuclide n).atom) :
    Frame targets atoms s (s.copyCenter c depth).1 := by
  cases c with
  | atom a => exact copyAtom_frame hs hc _
  | nuclide n => exact copyNuclide_frame hs hc depth (hatom n rfl)

theorem copyObject_frame (hs : s.Closed) {v : Value} (hv : ∀ n ∈ v.nodes, s.Holds n)
    (hatom : ∀ c, .center c ∈ v.nodes → atoms (s.atomOf c)) :
    Frame targets atoms s (s.copyObject v).1 := by
  unfold copyObject
  split
  · refine copyCenter_frame hs (hv _ (List.mem_singleton_self _)) .maps ?_
    rintro n rfl -
    exact hatom _ (List.mem_singleton_self _)
  · exact cloneRecord_frame hs (hv _ (List.mem_singleton_self _))
  · exact Frame.refl s

/-! ## Operations -/

theorem putCenterMap_frame (hs : s.Closed) {c : CenterRef} (hc : s.Holds (.center c)) {k : Category}
    {m : RecordMap} : Frame (· ∈ [s.home c k]) atoms s (s.putCenterMap c k m) := by
  have hkept : ∀ y, (s.putCenterMap c k m).identity y = s.identity y ∧
      (s.putCenterMap c k m).atomOf y = s.atomOf y := fun y =>
    ⟨identity_putCenterMap hs hc y, atomOf_putCenterMap hc y⟩
  cases k with
  | atomic k =>
    exact Frame.put (k := .center (.atom (s.atomOf c))) (i := .atom _) trivial
      (List.mem_singleton_self _) fun y _ => hkept y
  | nuclide k =>
    cases c with
    | atom a => exact Frame.refl s
    | nuclide n =>
      exact Frame.put (k := .center (.nuclide n)) (i := .nuclide _) trivial
        (List.mem_singleton_self _) fun y _ => hkept y

theorem putCache_frame (c : CacheRef) (x : Cache) :
    Frame (· ∈ [.cache c]) atoms s (s.putCache c x) :=
  Frame.put (k := .cache c) (i := .cache x) trivial (List.mem_singleton_self _) fun y hy => by cases hy

theorem putMap_frame (m : MapRef) (x : RecordMap) : Frame (· ∈ [.map m]) atoms s (s.putMap m x) :=
  Frame.put (k := .map m) (i := .map _) trivial (List.mem_singleton_self _) fun y hy => by cases hy

theorem buildNuclide_frame {zaid ratio atom name : Value}
    (hatom : ∀ a, .center (.atom a) ∈ atom.nodes → atoms a) :
    Frame targets atoms s (s.buildNuclide zaid ratio atom name).1 := by
  unfold buildNuclide
  dsimp only
  split
  · exact Frame.refl s
  · rename_i i hi
    split
    · refine Frame.of_added ((Frame.add (i := .atom _) fun x hx => by cases hx).trans
        (Frame.add (i := .nuclide _) fun x hx => ?_))
      cases hx
      exact Or.inl (Or.inr (lt_irrefl _))
    · refine Frame.add (i := .nuclide _) fun x hx => ?_
      cases hx
      exact Or.inl (hatom _ (List.mem_singleton_self _))
    · exact Frame.refl s

theorem buildRecord_frame (c : Category) (fields : List (Field × Value)) :
    Frame targets atoms s (s.buildRecord c fields).1 := by
  unfold buildRecord
  split
  · exact Frame.add (i := .record _) fun x hx => by cases hx
  · exact Frame.refl s

theorem buildAtom_frame (zaid ratio name : Value) :
    Frame targets atoms s (s.buildAtom zaid ratio name).1 := by
  unfold buildAtom
  dsimp only
  split
  · exact Frame.add (i := .atom _) fun x hx => by cases hx
  · exact Frame.refl s

theorem set_frame (m : MapRef) (v : Value) : Frame (· ∈ [.map m]) atoms s (s.set m v).1 := by
  unfold Store.set
  split
  · exact putMap_frame m _
  · split
    · exact putMap_frame m _
    · exact Frame.refl s

theorem setOn_frame (hs : s.Closed) {c : CenterRef} (hc : s.Holds (.center c)) (k : Category)
    (v : Value) : Frame (· ∈ [s.home c k]) atoms s (s.setOn c k v).1 := by
  unfold setOn
  split
  · exact Frame.refl s
  · split
    · exact Frame.refl s
    · exact putCenterMap_frame hs hc

theorem addToCache_frame (hs : s.Closed) {c : CacheRef} {v : Value}
    (hv : ∀ n ∈ v.nodes, s.Holds n) (hatom : ∀ c, .center c ∈ v.nodes → atoms (s.atomOf c)) :
    Frame (· ∈ [.cache c]) atoms s (s.addToCache c v).1 := by
  have hcopy : Frame (· ∈ [.cache c]) atoms s (s.copyObject v).1 := copyObject_frame hs hv hatom
  unfold addToCache
  split
  · exact Frame.refl s
  · split
    · exact Frame.refl s
    · dsimp only
      split
      · exact hcopy
      · exact hcopy.trans (putCache_frame c _)

theorem changeCache_frame (c : CacheRef) (change : Except Fault Cache) :
    Frame (· ∈ [.cache c]) atoms s (s.changeCache c change).1 := by
  unfold changeCache
  split
  · exact putCache_frame c _
  · exact Frame.refl s

def GivenAtom (s : Store) (op : Operation) (a : AtomRef) : Prop :=
  ∃ c, .center c ∈ op.nodes ∧ a = s.atomOf c

theorem perform_frame (hs : s.Closed) {op : Operation} (hop : s.Admits op) :
    Frame (· ∈ op.targets s) (s.GivenAtom op) s (s.perform op).1 := by
  have hfirst : ∀ n ns, op.nodes = n :: ns → s.Holds n := fun n ns h =>
    hop n (h ▸ List.mem_cons_self ..)
  cases op with
  | buildRecord c fields => exact buildRecord_frame c fields
  | buildAtom zaid ratio name => exact buildAtom_frame zaid ratio name
  | buildNuclide zaid ratio atom name =>
    refine buildNuclide_frame fun a ha => ⟨.atom a, ?_, rfl⟩
    exact Value.mem_nodesAll.mpr ⟨atom, by simp, ha⟩
  | buildMap shape category => exact Frame.add (i := .map _) fun x hx => by cases hx
  | buildCache => exact Frame.add (i := .cache .empty) fun x hx => by cases hx
  | assign r f v =>
    exact Frame.put (k := .record r) (i := .record _) trivial (List.mem_singleton_self _)
      fun y hy => by cases hy
  | set m v => exact set_frame m v
  | setOn c k v => exact setOn_frame hs (hfirst _ _ rfl) k v
  | ask m q args => exact Frame.refl s
  | askOn c k q args => exact Frame.refl s
  | copyRecord r => exact cloneRecord_frame hs (hfirst _ _ rfl)
  | copyMap m deep => exact copyMap_frame hs (hfirst _ _ rfl) deep
  | copyCenter c depth =>
    refine copyCenter_frame hs (hfirst _ _ rfl) depth ?_
    rintro n rfl -
    exact ⟨.nuclide n, List.mem_singleton_self _, rfl⟩
  | addToCache c v =>
    exact addToCache_frame hs (fun n hn => hop n (List.mem_cons_of_mem _ hn)) fun x hx =>
      ⟨x, List.mem_cons_of_mem _ hx, rfl⟩
  | removeFromCache c name => exact putCache_frame c _
  | link c other name => exact changeCache_frame c _
  | unlink c other => exact changeCache_frame c _
  | clear c => exact putCache_frame c _
  | fetch c name => exact Frame.refl s

end Store

end ScatteringData
