import Mathlib
import ScatteringData.Proofs.Store.Copying

/-!
# Stores stay closed

An operation that is given references to held objects leads from a closed store to a closed one.
Hence every store that a run reaches is closed.
-/

namespace ScatteringData

/-- The objects that an operation is given. -/
def Operation.nodes : Operation → List Node
  | .buildRecord _ fields => Value.nodesAll (fields.map (·.2))
  | .buildAtom zaid ratio name => Value.nodesAll [zaid, ratio, name]
  | .buildNuclide zaid ratio atom name => Value.nodesAll [zaid, ratio, atom, name]
  | .buildMap _ category => category.nodes
  | .buildCache => []
  | .assign r _ v => .record r :: v.nodes
  | .set m v => .map m :: v.nodes
  | .setOn c _ v => .center c :: v.nodes
  | .ask m _ args => .map m :: Value.nodesAll args
  | .askOn c _ _ args => .center c :: Value.nodesAll args
  | .copyRecord r => [.record r]
  | .copyMap m _ => [.map m]
  | .copyCenter c _ => [.center c]
  | .addToCache c v => .cache c :: v.nodes
  | .removeFromCache c name => .cache c :: name.nodes
  | .link c other name => .cache c :: Value.nodesAll [other, name]
  | .unlink c other => .cache c :: other.nodes
  | .clear c => [.cache c]
  | .fetch c name => .cache c :: name.nodes

namespace Store

variable {s : Store}

/-- An operation is given only objects that a store holds. -/
def Admits (s : Store) (op : Operation) : Prop := ∀ n ∈ op.nodes, s.Holds n

instance (s : Store) (op : Operation) : Decidable (s.Admits op) :=
  inferInstanceAs (Decidable (∀ n ∈ op.nodes, s.Holds n))

/-- Each operation of a row is given only objects that there are when its turn comes. -/
def AdmitsAll (s : Store) : List Operation → Prop
  | [] => True
  | op :: ops => s.Admits op ∧ (s.perform op).1.AdmitsAll ops

instance decidableAdmitsAll (s : Store) : (ops : List Operation) → Decidable (s.AdmitsAll ops)
  | [] => inferInstanceAs (Decidable True)
  | op :: ops =>
    have := decidableAdmitsAll (s.perform op).1 ops
    inferInstanceAs (Decidable (s.Admits op ∧ (s.perform op).1.AdmitsAll ops))

/-! ## Building -/

theorem nodes_ofValues {mark : Mark} {zaid ratio name : Value} {i : Identity}
    (h : (Identity.ofValues mark zaid ratio name).result = .ok i) :
    ∀ n ∈ i.name.nodes, n ∈ name.nodes := by
  unfold Identity.ofValues at h
  simp only [Outcome.bind_result, except_bind_eq_ok] at h
  obtain ⟨w, -, z, -, h⟩ := h
  cases h
  dsimp only
  split
  · exact fun n hn => by cases hn
  · exact fun n hn => hn

theorem nodes_newAtom (i : Identity) : (Item.atom ⟨i, .empty⟩).nodes = i.name.nodes :=
  List.append_nil _

theorem nodes_newNuclide (i : Identity) (a : AtomRef) :
    (Item.nuclide ⟨i, a, .empty⟩).nodes = i.name.nodes ++ [.center (.atom a)] := rfl

theorem Closed.buildRecord (hs : s.Closed) {c : Category} {fields : List (Field × Value)}
    (hop : s.Admits (.buildRecord c fields)) : (s.buildRecord c fields).1.Closed := by
  unfold Store.buildRecord
  split
  · rename_i r hr
    refine hs.add_of_held (i := .record r) (Record.within_iff.mp (Record.within_of_build hr ?_))
    intro g hg n hn
    exact hop n (Value.mem_nodesAll.mpr ⟨g.2, List.mem_map_of_mem hg, hn⟩)
  · exact hs

theorem Closed.buildAtom (hs : s.Closed) {zaid ratio name : Value}
    (hop : s.Admits (.buildAtom zaid ratio name)) : (s.buildAtom zaid ratio name).1.Closed := by
  unfold Store.buildAtom
  dsimp only
  split
  · rename_i i hi
    refine hs.add_of_held (i := .atom ⟨i, .empty⟩) fun n hn => ?_
    rw [nodes_newAtom] at hn
    exact hop n (Value.mem_nodesAll.mpr ⟨name, by simp, nodes_ofValues hi n hn⟩)
  · exact hs

theorem Closed.buildNuclide (hs : s.Closed) {zaid ratio atom name : Value}
    (hop : s.Admits (.buildNuclide zaid ratio atom name)) :
    (s.buildNuclide zaid ratio atom name).1.Closed := by
  unfold Store.buildNuclide
  dsimp only
  split
  · exact hs
  · rename_i i hi
    have hname : ∀ n ∈ i.name.nodes, s.Holds n := fun n hn =>
      hop n (Value.mem_nodesAll.mpr ⟨name, by simp, nodes_ofValues hi n hn⟩)
    split
    · -- the new atom of the element is there before the nuclide is
      have helement : ∀ n ∈ (Item.atom ⟨i.element (s.mark.part 3) ratio, .empty⟩).nodes,
          s.Holds n := by
        intro n hn
        rw [nodes_newAtom] at hn
        cases hn
      obtain ⟨hclosed, hext, -, hheld, -⟩ := add_spec hs helement
      refine hclosed.add_of_held (i := .nuclide ⟨i, ⟨s.atoms.size⟩, .empty⟩) fun n hn => ?_
      rw [nodes_newNuclide, List.mem_append, List.mem_singleton] at hn
      rcases hn with hn | rfl
      · exact (hext n (hname n hn)).1
      · exact hheld
    · rename_i a caption
      refine hs.add_of_held (i := .nuclide ⟨i, a, .empty⟩) fun n hn => ?_
      rw [nodes_newNuclide, List.mem_append, List.mem_singleton] at hn
      rcases hn with hn | rfl
      · exact hname n hn
      · refine hop _ (Value.mem_nodesAll.mpr ⟨.object (.center (.atom a) caption), by simp, ?_⟩)
        exact List.mem_singleton_self _
    · exact hs

theorem Closed.buildMap (hs : s.Closed) {shape : Shape} {category : Value}
    (hop : s.Admits (.buildMap shape category)) : (s.buildMap shape category).1.Closed := by
  refine hs.add_of_held (i := .map ⟨.empty shape category.plain, category⟩) fun n hn => ?_
  rcases List.mem_append.mp hn with hn | hn
  · exact hop n hn
  · rw [RecordMap.nodes_empty] at hn
    cases hn

/-! ## Changing -/

theorem Closed.within (hs : s.Closed) {r : RecordRef} (hr : s.Holds (.record r)) :
    (s.record r).Within s.Holds :=
  Record.within_iff.mpr (hs _ hr)

theorem Closed.assign (hs : s.Closed) {r : RecordRef} {f : Field} {v : Value}
    (hop : s.Admits (.assign r f v)) : (s.assign r f v).Closed := by
  have hr := hs.within (hop _ (List.mem_cons_self ..))
  refine hs.put (n := .record r) (i := .record ((s.record r).write f v)) trivial ?_
  exact Record.within_iff.mp (hr.write f fun n hn => hop n (List.mem_cons_of_mem _ hn))

theorem nodes_followed_set (hs : s.Closed) {r : RecordRef} (hr : s.Holds (.record r))
    {m : RecordMap} (hm : ∀ n ∈ m.nodes, s.Holds n) :
    ∀ n ∈ (s.followed m (m.set r (s.record r))).1.nodes, s.Holds n :=
  RecordMap.nodes_followed hm (RecordMap.nodes_set hm hr (hs.within hr))

theorem Closed.putMap (hs : s.Closed) {m : MapRef} (hm : s.Holds (.map m)) {x : RecordMap}
    (hx : ∀ n ∈ x.nodes, s.Holds n) : (s.putMap m x).Closed := by
  refine hs.put (n := .map m) (i := .map { s.mapObject m with content := x }) trivial fun n hn => ?_
  rcases List.mem_append.mp hn with hn | hn
  · exact hs _ hm n (List.mem_append_left _ hn)
  · exact hx n hn

theorem nodes_nameOf? (hs : s.Closed) {v name : Value} (h : s.nameOf? v = some name)
    (hv : ∀ n ∈ v.nodes, s.Holds n) : ∀ n ∈ name.nodes, s.Holds n := by
  unfold Store.nameOf? at h
  split at h
  · rename_i c caption
    have hc := hs _ (hv _ (List.mem_singleton_self _))
    cases h
    intro n hn
    refine hc n ?_
    cases c with
    | atom a => exact Atom.mem_nodes.mpr (Or.inl hn)
    | nuclide x => exact Nuclide.mem_nodes.mpr (Or.inl hn)
  · exact (hs.within (hv _ (List.mem_singleton_self _))).name h
  · cases h
    exact fun n hn => by cases hn
  · cases h
    exact fun n hn => by cases hn
  · cases h
    exact fun n hn => by cases hn
  · cases h

theorem Closed.set (hs : s.Closed) {m : MapRef} {v : Value} (hop : s.Admits (.set m v)) :
    (s.set m v).1.Closed := by
  have hm := hop _ (List.mem_cons_self ..)
  have hmap : ∀ n ∈ (s.map m).nodes, s.Holds n := fun n hn =>
    hs _ hm n (List.mem_append_right _ hn)
  unfold Store.set
  split
  · refine hs.putMap hm (nodes_followed_set hs ?_ hmap)
    exact hop _ (List.mem_cons_of_mem _ (List.mem_singleton_self _))
  · split
    · rename_i v _ _ map name hcontent hname
      rw [hcontent] at hmap
      refine hs.putMap hm (NamedMap.nodes_setUnusable hmap fun n hn => ?_)
      have := nodes_nameOf? hs hname fun k hk => hop k (List.mem_cons_of_mem _ hk)
      exact this n hn
    · exact hs

theorem holds_atomOf (hs : s.Closed) {c : CenterRef} (hc : s.Holds (.center c)) :
    s.Holds (.center (.atom (s.atomOf c))) := by
  cases c with
  | atom a => exact hc
  | nuclide x => exact hs _ hc _ (Nuclide.mem_nodes.mpr (Or.inr (Or.inl rfl)))

theorem nodes_centerMap? (hs : s.Closed) {c : CenterRef} (hc : s.Holds (.center c)) {k : Category}
    {m : RecordMap} (hm : s.centerMap? c k = some m) : ∀ n ∈ m.nodes, s.Holds n := by
  intro n hn
  cases k with
  | atomic k =>
    cases hm
    exact hs _ (holds_atomOf hs hc) n (Atom.mem_nodes.mpr (Or.inr ⟨k, hn⟩))
  | nuclide k =>
    cases c with
    | atom a => cases hm
    | nuclide x =>
      cases hm
      exact hs _ hc n (Nuclide.mem_nodes.mpr (Or.inr (Or.inr ⟨k, hn⟩)))

theorem accepted_eq {c : CenterRef} {k : Category} {v : Value} {r : RecordRef}
    (h : s.accepted c k v = .ok r) : v = .object (.record k r) := by
  unfold Store.accepted at h
  split at h
  · split at h
    · rename_i hkind
      subst hkind
      dsimp only at h
      split at h <;>
      · rw [except_bind_eq_ok] at h
        obtain ⟨-, -, h⟩ := h
        cases h
        rfl
    · cases h
  · cases h

theorem Closed.putCenterMap (hs : s.Closed) {c : CenterRef} (hc : s.Holds (.center c))
    {k : Category} {m : RecordMap} (hm : ∀ n ∈ m.nodes, s.Holds n) :
    (s.putCenterMap c k m).Closed := by
  cases k with
  | atomic k =>
    have ha := holds_atomOf hs hc
    refine hs.put (n := .center (.atom (s.atomOf c)))
      (i := .atom { s.atom (s.atomOf c) with maps := (s.atom (s.atomOf c)).maps.put k m }) trivial ?_
    intro n hn
    rcases Atom.mem_nodes.mp hn with hn | ⟨d, hn⟩
    · exact hs _ ha n (Atom.mem_nodes.mpr (Or.inl hn))
    · dsimp only at hn
      rw [AtomicMaps.get_put] at hn
      split at hn
      · exact hm n hn
      · exact hs _ ha n (Atom.mem_nodes.mpr (Or.inr ⟨d, hn⟩))
  | nuclide k =>
    cases c with
    | atom a => exact hs
    | nuclide x =>
      refine hs.put (n := .center (.nuclide x))
        (i := .nuclide { s.nuclide x with maps := (s.nuclide x).maps.put k m }) trivial ?_
      intro n hn
      rcases Nuclide.mem_nodes.mp hn with hn | hn | ⟨d, hn⟩
      · exact hs _ hc n (Nuclide.mem_nodes.mpr (Or.inl hn))
      · exact hs _ hc n (Nuclide.mem_nodes.mpr (Or.inr (Or.inl hn)))
      · dsimp only at hn
        rw [NuclideMaps.get_put] at hn
        split at hn
        · exact hm n hn
        · exact hs _ hc n (Nuclide.mem_nodes.mpr (Or.inr (Or.inr ⟨d, hn⟩)))

theorem Closed.setOn (hs : s.Closed) {c : CenterRef} {k : Category} {v : Value}
    (hop : s.Admits (.setOn c k v)) : (s.setOn c k v).1.Closed := by
  have hc := hop _ (List.mem_cons_self ..)
  unfold Store.setOn
  split
  · exact hs
  · rename_i m hm
    split
    · exact hs
    · rename_i r hr
      cases accepted_eq hr
      refine hs.putCenterMap hc (nodes_followed_set hs ?_ (nodes_centerMap? hs hc hm))
      exact hop _ (List.mem_cons_of_mem _ (List.mem_singleton_self _))

/-! ## Caches -/

theorem Closed.putCache (hs : s.Closed) {c : CacheRef} {x : Cache}
    (hx : ∀ n ∈ x.nodes, s.Holds n) : (s.putCache c x).Closed :=
  hs.put (n := .cache c) (i := .cache x) trivial hx

end Store

namespace Cache

variable {P : Node → Prop} {c : Cache}

theorem nodes_keep (hc : ∀ n ∈ c.nodes, P n) {l : Label} (hl : ∀ n ∈ l.shown.nodes, P n)
    {o : Object} (ho : P o.node) : ∀ n ∈ (c.keep l o).nodes, P n := by
  intro n hn
  rcases List.mem_append.mp hn with hn | hn
  · refine Table.nodes_put (fun k hk => hc k (List.mem_append_left _ hk)) hl (fun k hk => ?_) n hn
    rw [List.mem_singleton] at hk
    exact hk ▸ ho
  · exact hc n (List.mem_append_right _ hn)

theorem nodes_remove (hc : ∀ n ∈ c.nodes, P n) (name : Value) :
    ∀ n ∈ (c.remove name).1.nodes, P n := by
  unfold Cache.remove
  split
  · exact hc
  · split
    · exact hc
    · split
      · intro n hn
        rcases List.mem_append.mp hn with hn | hn
        · refine Table.nodes_sublist (fun e he => ?_)
            (fun k hk => hc k (List.mem_append_left _ hk)) n hn
          exact List.mem_of_mem_filter he
        · refine Table.nodes_sublist (fun e he => ?_)
            (fun k hk => hc k (List.mem_append_right _ hk)) n hn
          rw [List.partition_eq_filter_filter] at he
          exact List.mem_of_mem_filter he
      · exact hc

theorem nodes_link (hc : ∀ n ∈ c.nodes, P n) {other name : Value} {x : Cache}
    (hx : c.link other name = .ok x) (hother : ∀ n ∈ other.nodes, P n)
    (hname : ∀ n ∈ name.nodes, P n) : ∀ n ∈ x.nodes, P n := by
  unfold Cache.link at hx
  rw [except_bind_eq_ok] at hx
  obtain ⟨label, hlabel, hx⟩ := hx
  split at hx
  · cases hx
  · rw [except_bind_eq_ok] at hx
    obtain ⟨k, -, hx⟩ := hx
    split at hx
    · cases hx
      intro n hn
      rcases List.mem_append.mp hn with hn | hn
      · exact hc n (List.mem_append_left _ hn)
      · refine Table.nodes_put (fun k hk => hc k (List.mem_append_right _ hk)) ?_ hname n hn
        exact Label.shown_of_ofValue hlabel ▸ hother
    · cases hx

theorem nodes_unlink (hc : ∀ n ∈ c.nodes, P n) {other : Value} {x : Cache}
    (hx : c.unlink other = .ok x) : ∀ n ∈ x.nodes, P n := by
  unfold Cache.unlink at hx
  split at hx
  · cases hx
    exact hc
  · rw [except_bind_eq_ok] at hx
    obtain ⟨k, -, hx⟩ := hx
    cases hx
    intro n hn
    rcases List.mem_append.mp hn with hn | hn
    · exact hc n (List.mem_append_left _ hn)
    · refine Table.nodes_sublist (fun e he => ?_) (fun k hk => hc k (List.mem_append_right _ hk)) n hn
      exact List.mem_of_mem_filter he

end Cache

namespace Store

variable {s : Store}

theorem Closed.changeCache (hs : s.Closed) {c : CacheRef} {change : Except Fault Cache}
    (hchange : ∀ x, change = .ok x → ∀ n ∈ x.nodes, s.Holds n) :
    (s.changeCache c change).1.Closed := by
  unfold Store.changeCache
  split
  · rename_i x
    exact hs.putCache (hchange x rfl)
  · exact hs

theorem copyObject_spec (hs : s.Closed) {v : Value} (hv : ∀ n ∈ v.nodes, s.Holds n) :
    (s.copyObject v).1.Closed ∧ s.Extends (s.copyObject v).1 ∧
      ∀ o, (s.copyObject v).2.result = .ok o → (s.copyObject v).1.Holds o.node := by
  unfold Store.copyObject
  split
  · rename_i c caption
    obtain ⟨hclosed, hext, hcopy⟩ := copyCenter_spec hs (hv _ (List.mem_singleton_self _)) .maps
    refine ⟨hclosed, hext, fun o ho => ?_⟩
    cases ho
    exact hcopy.held
  · rename_i kind r
    have hr := hv _ (List.mem_singleton_self _)
    obtain ⟨hclosed, hext, hclone⟩ := cloneRecord_isClone hs (Extends.refl s) hs hr
    refine ⟨hclosed, hext, fun o ho => ?_⟩
    cases ho
    exact hclone.held
  · exact ⟨hs, Extends.refl s, fun o ho => by cases ho⟩

theorem Closed.addToCache (hs : s.Closed) {c : CacheRef} {v : Value}
    (hop : s.Admits (.addToCache c v)) : (s.addToCache c v).1.Closed := by
  have hc := hop _ (List.mem_cons_self ..)
  have hv : ∀ n ∈ v.nodes, s.Holds n := fun n hn => hop n (List.mem_cons_of_mem _ hn)
  obtain ⟨hclosed, hext, hheld⟩ := copyObject_spec hs hv
  unfold Store.addToCache
  split
  · exact hs
  · rename_i name hname
    split
    · exact hs
    · rename_i label present hadmits
      dsimp only
      split
      · exact hclosed
      · rename_i o ho
        have hcache := (hext _ hc).2
        refine hclosed.putCache (Cache.nodes_keep ?_ ?_ (hheld o ho))
        · intro n hn
          rw [Item.cache.inj hcache] at hn
          exact (hext n (hs _ hc n hn)).1
        · intro n hn
          refine (hext n (nodes_nameOf? hs hname hv n ?_)).1
          unfold Cache.admits at hadmits
          rw [except_bind_eq_ok] at hadmits
          obtain ⟨l, hl, hadmits⟩ := hadmits
          split at hadmits
          · cases hadmits
          · cases hadmits
            exact Label.shown_of_ofValue hl ▸ hn

/-! ## Runs -/

theorem Closed.perform (hs : s.Closed) {op : Operation} (hop : s.Admits op) :
    (s.perform op).1.Closed := by
  have hfirst : ∀ n ns, op.nodes = n :: ns → s.Holds n := fun n ns h =>
    hop n (h ▸ List.mem_cons_self ..)
  cases op with
  | buildRecord c fields => exact hs.buildRecord hop
  | buildAtom zaid ratio name => exact hs.buildAtom hop
  | buildNuclide zaid ratio atom name => exact hs.buildNuclide hop
  | buildMap shape category => exact hs.buildMap hop
  | buildCache => exact hs.add_of_held (i := .cache .empty) fun n hn => by cases hn
  | assign r f v => exact hs.assign hop
  | set m v => exact hs.set hop
  | setOn c k v => exact hs.setOn hop
  | ask m q args => exact hs
  | askOn c k q args => exact hs
  | copyRecord r => exact (cloneRecord_spec hs (hfirst _ _ rfl)).1
  | copyMap m deep => exact (copyMap_spec hs (hfirst _ _ rfl) deep).1
  | copyCenter c depth => exact (copyCenter_spec hs (hfirst _ _ rfl) depth).1
  | addToCache c v => exact hs.addToCache hop
  | removeFromCache c name => exact hs.putCache (Cache.nodes_remove (hs _ (hfirst _ _ rfl)) name)
  | link c other name =>
    refine hs.changeCache fun x hx => Cache.nodes_link (hs _ (hfirst _ _ rfl)) hx ?_ ?_
    · exact fun n hn => hop n (List.mem_cons_of_mem _ (Value.mem_nodesAll.mpr ⟨other, by simp, hn⟩))
    · exact fun n hn => hop n (List.mem_cons_of_mem _ (Value.mem_nodesAll.mpr ⟨name, by simp, hn⟩))
  | unlink c other =>
    exact hs.changeCache fun x hx => Cache.nodes_unlink (hs _ (hfirst _ _ rfl)) hx
  | clear c => exact hs.putCache fun n hn => by cases hn
  | fetch c name => exact hs

/-- The stores that runs reach. What is handed to an operation is an object that is there. -/
inductive Reachable : Store → Prop
  | start (listening : Bool) : Reachable { Store.empty with listening }
  | perform {s : Store} (hs : Reachable s) (op : Operation) (hop : s.Admits op) :
    Reachable (s.perform op).1
  | tick {s : Store} (hs : Reachable s) : Reachable s.tick

theorem Reachable.run (hs : s.Reachable) {ops : List Operation} (hops : s.AdmitsAll ops) :
    (s.run ops).Reachable := by
  induction ops generalizing s with
  | nil => exact hs
  | cons op ops ih => exact ih (hs.perform op hops.1) hops.2

/-- All references in a store that a run reaches lead to objects of the store. -/
theorem Reachable.closed (hs : s.Reachable) : s.Closed := by
  induction hs with
  | start listening =>
    intro n hn
    rcases n with r | (a | x) | m | c <;> exact absurd hn (Nat.not_lt_zero _)
  | perform _ op hop ih => exact ih.perform hop
  | tick _ ih => exact ih

end Store

end ScatteringData
