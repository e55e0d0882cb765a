import Mathlib
import ScatteringData.Store.Duplicate

/-!
# What a store holds

The objects of a store as items under nodes, whatever their kind. Adding an item keeps all others,
and putting one changes no other. A store is closed if every object that it holds refers only to
objects that it holds.
-/

namespace ScatteringData

inductive Item
  | record (r : Record)
  | atom (a : Atom)
  | nuclide (n : Nuclide)
  | map (m : MapObject)
  | cache (c : Cache)

def Item.nodes : Item → List Node
  | record r => r.nodes
  | atom a => a.nodes
  | nuclide n => n.nodes
  | map m => m.nodes
  | cache c => c.nodes

namespace Store

/-- Whether there is an object at a node. -/
def Holds (s : Store) : Node → Prop
  | .record r => r.index < s.records.size
  | .center (.atom a) => a.index < s.atoms.size
  | .center (.nuclide n) => n.index < s.nuclides.size
  | .map m => m.index < s.maps.size
  | .cache c => c.index < s.caches.size

instance (s : Store) : (n : Node) → Decidable (s.Holds n)
  | .record r => inferInstanceAs (Decidable (r.index < s.records.size))
  | .center (.atom a) => inferInstanceAs (Decidable (a.index < s.atoms.size))
  | .center (.nuclide n) => inferInstanceAs (Decidable (n.index < s.nuclides.size))
  | .map m => inferInstanceAs (Decidable (m.index < s.maps.size))
  | .cache c => inferInstanceAs (Decidable (c.index < s.caches.size))

def item (s : Store) : Node → Item
  | .record r => .record (s.record r)
  | .center (.atom a) => .atom (s.atom a)
  | .center (.nuclide n) => .nuclide (s.nuclide n)
  | .map m => .map (s.mapObject m)
  | .cache c => .cache (s.cache c)

def add (s : Store) : Item → Store × Node
  | .record r => let (t, q) := s.addRecord r; (t, .record q)
  | .atom a => let (t, b) := s.addAtom a; (t, .center (.atom b))
  | .nuclide n => let (t, k) := s.addNuclide n; (t, .center (.nuclide k))
  | .map m => let (t, n) := s.addMap m; (t, .map n)
  | .cache c => let (t, b) := s.addCache c; (t, .cache b)

def put (s : Store) : Node → Item → Store
  | .record r, .record x => s.putRecord r x
  | .center (.atom a), .atom x => s.putAtom a x
  | .center (.nuclide n), .nuclide x => s.putNuclide n x
  | .map m, .map x => s.putMapObject m x
  | .cache c, .cache x => s.putCache c x
  | _, _ => s

/-- All references lead to objects that there are. -/
def Closed (s : Store) : Prop := ∀ n, s.Holds n → ∀ k ∈ (s.item n).nodes, s.Holds k

/-- A store has all objects of another one, unchanged. -/
def Extends (s t : Store) : Prop := ∀ n, s.Holds n → t.Holds n ∧ t.item n = s.item n

theorem neighbours_eq (s : Store) (n : Node) : s.neighbours n = (s.item n).nodes := by
  cases n with
  | center c =>
    cases c with
    | atom a => rfl
    | nuclide n => rfl
  | _ => rfl

/-! ## Adding -/

section
variable {α : Type} (xs : Array α) (a d : α)

theorem getD_push (i : Nat) : (xs.push a).getD i d = if i = xs.size then a else xs.getD i d := by
  simp only [Array.getD_eq_getD_getElem?, Array.getElem?_push]
  by_cases h : i = xs.size
  · rw [if_pos h, if_pos h]
    rfl
  · rw [if_neg h, if_neg h]

theorem getD_setIfInBounds {i : Nat} (hi : i < xs.size) (j : Nat) :
    (xs.setIfInBounds i a).getD j d = if j = i then a else xs.getD j d := by
  simp only [Array.getD_eq_getD_getElem?, Array.getElem?_setIfInBounds]
  by_cases h : i = j
  · subst h
    rw [if_pos rfl, if_pos rfl, if_pos hi]
    rfl
  · rw [if_neg h, if_neg (Ne.symm h)]

theorem setIfInBounds_getD (i : Nat) : xs.setIfInBounds i (xs.getD i d) = xs := by
  by_cases hi : i < xs.size
  · simp [Array.setIfInBounds, hi]
  · simp [Array.setIfInBounds, hi]

end

variable {s t : Store}

theorem holds_add (s : Store) (i : Item) (n : Node) :
    (s.add i).1.Holds n ↔ s.Holds n ∨ n = (s.add i).2 := by
  rcases n with ⟨⟨n⟩⟩ | (⟨⟨n⟩⟩ | ⟨⟨n⟩⟩) | ⟨⟨n⟩⟩ | ⟨⟨n⟩⟩ <;> cases i <;>
    simp [add, addRecord, addAtom, addNuclide, addMap, addCache, Holds, Nat.le_iff_lt_or_eq]

theorem not_holds_add (s : Store) (i : Item) : ¬ s.Holds (s.add i).2 := by
  cases i <;> exact lt_irrefl _

theorem item_add (s : Store) (i : Item) (n : Node) :
    (s.add i).1.item n = if n = (s.add i).2 then i else s.item n := by
  rcases n with ⟨⟨n⟩⟩ | (⟨⟨n⟩⟩ | ⟨⟨n⟩⟩) | ⟨⟨n⟩⟩ | ⟨⟨n⟩⟩ <;> cases i <;>
    simp [add, addRecord, addAtom, addNuclide, addMap, addCache, item, record, atom, nuclide,
      mapObject, cache, getD_push, apply_ite Item.record, apply_ite Item.atom,
      apply_ite Item.nuclide, apply_ite Item.map, apply_ite Item.cache,
      -Array.getD_eq_getD_getElem?]

/-! ## Putting -/

def Fits : Node → Item → Prop
  | .record _, .record _ => True
  | .center (.atom _), .atom _ => True
  | .center (.nuclide _), .nuclide _ => True
  | .map _, .map _ => True
  | .cache _, .cache _ => True
  | _, _ => False

theorem holds_put (s : Store) (k : Node) (i : Item) (n : Node) :
    (s.put k i).Holds n ↔ s.Holds n := by
  rcases n with ⟨⟨n⟩⟩ | (⟨⟨n⟩⟩ | ⟨⟨n⟩⟩) | ⟨⟨n⟩⟩ | ⟨⟨n⟩⟩ <;>
    rcases k with ⟨⟨k⟩⟩ | (⟨⟨k⟩⟩ | ⟨⟨k⟩⟩) | ⟨⟨k⟩⟩ | ⟨⟨k⟩⟩ <;> cases i <;>
      simp [put, putRecord, putAtom, putNuclide, putMapObject, putCache, Holds]

theorem item_put {k : Node} {i : Item} (hk : s.Holds k) (hi : Fits k i) (n : Node) :
    (s.put k i).item n = if n = k then i else s.item n := by
  rcases k with ⟨⟨k⟩⟩ | (⟨⟨k⟩⟩ | ⟨⟨k⟩⟩) | ⟨⟨k⟩⟩ | ⟨⟨k⟩⟩ <;> cases i <;> try exact hi.elim
  all_goals
    rcases n with ⟨⟨n⟩⟩ | (⟨⟨n⟩⟩ | ⟨⟨n⟩⟩) | ⟨⟨n⟩⟩ | ⟨⟨n⟩⟩ <;>
      simp [put, putRecord, putAtom, putNuclide, putMapObject, putCache, item, record, atom,
        nuclide, mapObject, cache, getD_setIfInBounds _ _ _ hk, apply_ite Item.record,
        apply_ite Item.atom, apply_ite Item.nuclide, apply_ite Item.map, apply_ite Item.cache,
        -Array.getD_eq_getD_getElem?]

/-! ## Growing and staying closed -/

theorem Extends.refl (s : Store) : s.Extends s := fun _ h => ⟨h, rfl⟩

theorem Extends.trans {u : Store} (h : s.Extends t) (h' : t.Extends u) : s.Extends u := by
  intro n hn
  obtain ⟨ht, heq⟩ := h n hn
  obtain ⟨hu, heq'⟩ := h' n ht
  exact ⟨hu, heq'.trans heq⟩

theorem extends_add (s : Store) (i : Item) : s.Extends (s.add i).1 := by
  intro n hn
  refine ⟨(holds_add s i n).mpr (Or.inl hn), ?_⟩
  rw [item_add, if_neg]
  rintro rfl
  exact not_holds_add s i hn

theorem Closed.add (h : s.Closed) {i : Item} (hi : ∀ k ∈ i.nodes, (s.add i).1.Holds k) :
    (s.add i).1.Closed := by
  intro n hn k hk
  rw [item_add] at hk
  by_cases hnew : n = (s.add i).2
  · rw [if_pos hnew] at hk
    exact hi k hk
  · rw [if_neg hnew] at hk
    have hold := ((holds_add s i n).mp hn).resolve_right hnew
    exact (holds_add s i k).mpr (Or.inl (h n hold k hk))

theorem Closed.add_of_held (h : s.Closed) {i : Item} (hi : ∀ k ∈ i.nodes, s.Holds k) :
    (s.add i).1.Closed :=
  h.add fun k hk => (holds_add s i k).mpr (Or.inl (hi k hk))

theorem put_of_not_holds {k : Node} {i : Item} (hk : ¬ s.Holds k) : s.put k i = s := by
  rcases k with k | (k | k) | k | k <;> cases i <;>
    simp [put, putRecord, putAtom, putNuclide, putMapObject, putCache, Array.setIfInBounds,
      show ¬ _ < _ from hk]

theorem Closed.put (h : s.Closed) {n : Node} {i : Item} (hfit : Fits n i)
    (hi : ∀ k ∈ i.nodes, s.Holds k) : (s.put n i).Closed := by
  by_cases hn : s.Holds n
  · intro m hm k hk
    rw [holds_put] at hm ⊢
    rw [item_put hn hfit] at hk
    by_cases heq : m = n
    · rw [if_pos heq] at hk
      exact hi k hk
    · rw [if_neg heq] at hk
      exact h m hm k hk
  · rw [put_of_not_holds hn]
    exact h

end Store

end ScatteringData
