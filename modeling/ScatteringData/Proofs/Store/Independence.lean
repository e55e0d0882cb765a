import Mathlib
import ScatteringData.Proofs.RecordMap.Changes
import ScatteringData.Proofs.Store.Failing
import ScatteringData.Proofs.Store.Twin

/-!
# Copies of maps

A map and a copy of it go their own ways. Whatever records are set in the one, the other has what it
would have if they had not been set, and both take a record in the same way.
-/

namespace ScatteringData

/-- A map that was copied, and its copy. -/
inductive Branch
  | copy | original
deriving DecidableEq

def Branch.only (i : Branch) (m : MapRef) (j : Branch) : Option MapRef :=
  if j = i then some m else none

def Branch.both (copy original : MapRef) : Branch → Option MapRef
  | .copy => some copy
  | .original => some original

/-- Records are set in one of the two maps; in between, records are built and changed. -/
inductive Turn
  | set (i : Branch) (v : Value)
  | build (c : Category) (fields : List (Field × Value))
  | assign (r : RecordRef) (f : Field) (v : Value)
  | tick

namespace Store

/-- A set on a branch that has no map is left out. -/
def turn (maps : Branch → Option MapRef) (s : Store) : Turn → Store
  | .set i v =>
    match maps i with
    | some m => (s.perform (.set m v)).1
    | none => s
  | .build c fields => (s.perform (.buildRecord c fields)).1
  | .assign r f v => (s.perform (.assign r f v)).1
  | .tick => s.tick

def turns (s : Store) (maps : Branch → Option MapRef) (xs : List Turn) : Store :=
  xs.foldl (turn maps) s

variable {s t u w : Store} {R : RecordRef → RecordRef → Prop} {a b : MapRef} {v : Value}

/-! ## A set changes one map -/

/-- A map with names makes a place for the name of a value that is no record. -/
def unusable (x : RecordMap) (name : Option Value) : RecordMap × Outcome Unit :=
  match x, name with
  | .named y, some name => (.named (y.setUnusable name).1, (y.setUnusable name).2)
  | x, _ => (x, .fail .noAttribute)

def changed (s : Store) (x : RecordMap) (v : Value) : RecordMap × Outcome Unit :=
  match v with
  | .object (.record _ r) => s.followed x (x.set r (s.record r))
  | v => unusable x (s.nameOf? v)

theorem set_eq (s : Store) (m : MapRef) (v : Value) :
    s.set m v = (s.putMap m (s.changed (s.map m) v).1, (s.changed (s.map m) v).2) := by
  have hself := s.putMap_self m
  unfold Store.set changed
  split
  · rfl
  · rename_i hrecord
    split
    · simp_all [unusable]
    · simp_all [unusable]

theorem unusable_related {x y : RecordMap} (hxy : x.Related R y) (name : Option Value) :
    (unusable x name).1.Related R (unusable y name).1 ∧ (unusable x name).2 = (unusable y name).2 := by
  cases hxy with
  | versioned hcategory h => exact ⟨.versioned hcategory h, rfl⟩
  | temperature h => exact ⟨.temperature h, rfl⟩
  | named hcategory h =>
    cases name with
    | none => exact ⟨.named hcategory h, rfl⟩
    | some name =>
      obtain ⟨hcategory, h, hout⟩ := NamedMap.setUnusable_related hcategory h name
      exact ⟨.named hcategory h, hout⟩

/-! ## Stores side by side -/

def Beside (u w : Store) : Prop := ∃ maps, w = { u with maps }

section
variable (h : u.Beside w)
include h

theorem record_beside (r : RecordRef) : w.record r = u.record r := by
  obtain ⟨maps, rfl⟩ := h
  rfl

theorem nameOf?_beside (v : Value) : w.nameOf? v = u.nameOf? v := by
  obtain ⟨maps, rfl⟩ := h
  unfold nameOf?
  split <;> rfl

theorem followed_related {x y : RecordMap} (hxy : x.Related R y) {c d : RecordMap × Outcome Unit}
    (hcd : c.1.Related R d.1) (hout : c.2 = d.2) :
    (u.followed x c).1.Related R (w.followed y d).1 ∧
      (u.followed x c).2 = (w.followed y d).2 := by
  obtain ⟨maps, rfl⟩ := h
  unfold followed Outcome.heard
  by_cases hl : u.listening = true
  · simp only [hl, if_true, hout]
    split
    · exact ⟨hcd, rfl⟩
    · refine ⟨?_, rfl⟩
      dsimp only
      split
      · exact hxy
      · exact hcd
  · simp only [hl]
    exact ⟨hcd, hout⟩

theorem changed_related {x y : RecordMap} (hxy : x.Related R y)
    (hv : ∀ k r, v = .object (.record k r) → R r r) :
    (u.changed x v).1.Related R (w.changed y v).1 ∧ (u.changed x v).2 = (w.changed y v).2 := by
  unfold changed
  split
  · rename_i k r
    rw [record_beside h]
    obtain ⟨hset, hout⟩ := hxy.set (u.record r) (hv k r rfl)
    exact followed_related h hxy hset hout
  · rw [nameOf?_beside h]
    exact unusable_related hxy _

theorem beside_set (m : MapRef) (v : Value) : u.Beside (w.set m v).1 := by
  obtain ⟨maps, rfl⟩ := h
  rw [set_eq]
  exact ⟨_, rfl⟩

end

/-- A map of the one store has what a map of the other has, up to the records under the keys. -/
structure InStep (R : RecordRef → RecordRef → Prop) (u w : Store) (a b : MapRef) : Prop where
  beside : u.Beside w
  left : u.Holds (.map a)
  right : w.Holds (.map b)
  related : (u.map a).Related R (w.map b)

theorem holds_set (m : MapRef) (n : Node) : (s.set m v).1.Holds n ↔ s.Holds n := by
  rw [set_eq]
  exact holds_put s (.map m) (.map _) n

theorem map_set {m : MapRef} (hm : s.Holds (.map m)) :
    (s.set m v).1.map m = (s.changed (s.map m) v).1 := by
  rw [set_eq]
  exact map_putMap hm _

theorem map_set_other {m : MapRef} (ha : m ≠ a) : (s.set m v).1.map a = s.map a := by
  have hindex : m.index ≠ a.index := by
    intro h
    cases m
    exact ha (congrArg MapRef.mk h)
  rw [set_eq]
  simp only [putMap, putMapObject, map, mapObject, Array.getD_eq_getD_getElem?]
  rw [Array.getElem?_setIfInBounds_ne hindex]

namespace InStep

variable (h : InStep R u w a b)
include h

theorem set (hv : ∀ k r, v = .object (.record k r) → R r r) :
    InStep R (u.set a v).1 (w.set b v).1 a b ∧ (u.set a v).2 = (w.set b v).2 := by
  obtain ⟨hchanged, hout⟩ := changed_related h.beside h.related hv
  refine ⟨⟨?_, ?_, ?_, ?_⟩, ?_⟩
  · obtain ⟨maps, rfl⟩ := h.beside
    simp only [set_eq]
    exact ⟨_, rfl⟩
  · exact (holds_set a _).mpr h.left
  · exact (holds_set b _).mpr h.right
  · rw [map_set h.left, map_set h.right]
    exact hchanged
  · rw [set_eq, set_eq, hout]

theorem set_other {d : MapRef} (hd : d ≠ b) : InStep R u (w.set d v).1 a b := by
  refine ⟨beside_set h.beside d v, h.left, (holds_set d _).mpr h.right, ?_⟩
  rw [map_set_other hd]
  exact h.related

theorem neutral {maps maps' : Branch → Option MapRef} {x : Turn} (hx : ∀ i v, x ≠ .set i v) :
    InStep R (turn maps u x) (turn maps' w x) a b := by
  have hleft := h.left
  have hright := h.right
  have hrelated := h.related
  obtain ⟨ms, rfl⟩ := h.beside
  cases x with
  | set i v => exact absurd rfl (hx i v)
  | build c fields =>
    simp only [turn, perform, buildRecord, mark]
    cases Record.build c (.made u.time [1]) fields with
    | error f => exact ⟨⟨ms, rfl⟩, hleft, hright, hrelated⟩
    | ok r => exact ⟨⟨ms, rfl⟩, hleft, hright, hrelated⟩
  | assign r f v => exact ⟨⟨ms, rfl⟩, hleft, hright, hrelated⟩
  | tick => exact ⟨⟨ms, rfl⟩, hleft, hright, hrelated⟩

/-- On the left only one branch has its sets; on the right both may have them. -/
theorem turn {i : Branch} {maps : Branch → Option MapRef} (hi : maps i = some b)
    (hother : ∀ j d, j ≠ i → maps j = some d → d ≠ b) {x : Turn}
    (hx : ∀ k r, x = .set i (.object (.record k r)) → R r r) :
    InStep R (Store.turn (i.only a) u x) (Store.turn maps w x) a b := by
  by_cases hset : ∃ j v, x = .set j v
  · obtain ⟨j, v, rfl⟩ := hset
    by_cases hj : j = i
    · subst hj
      simp only [Store.turn, Branch.only, hi, if_true]
      exact (h.set fun k r hv => hx k r (by rw [hv])).1
    · simp only [Store.turn, Branch.only, hj, if_false]
      cases hmap : maps j with
      | none => exact h
      | some d => exact h.set_other (hother j d hj hmap)
  · refine h.neutral ?_
    intro j v hv
    exact hset ⟨j, v, hv⟩

theorem turns {i : Branch} {maps : Branch → Option MapRef} (hi : maps i = some b)
    (hother : ∀ j d, j ≠ i → maps j = some d → d ≠ b) {xs : List Turn}
    (hxs : ∀ k r, .set i (.object (.record k r)) ∈ xs → R r r) :
    InStep R (u.turns (i.only a) xs) (w.turns maps xs) a b := by
  induction xs generalizing u w with
  | nil => exact h
  | cons x xs ih =>
    have hstep := h.turn hi hother (x := x) fun k r hx => hxs k r (by rw [hx]; exact List.mem_cons_self ..)
    exact ih hstep fun k r hx => hxs k r (List.mem_cons_of_mem _ hx)

end InStep

/-! ## Copies -/

/-- A map of the one store behaves as a map of the other: it has the same keys with related records,
answers alike, and takes all values alike. -/
structure Behaves (R : RecordRef → RecordRef → Prop) (u w : Store) (a b : MapRef) : Prop where
  records : w.records = u.records
  content : (u.map a).Related R (w.map b)
  answers : ∀ q args, Outcome.Related (Answer.Related R) ((u.map a).ask q args) ((w.map b).ask q args)
  outcomes : ∀ v, (u.set a v).2 = (w.set b v).2

theorem InStep.behaves (h : InStep R u w a b) : Behaves R u w a b where
  records := by
    obtain ⟨maps, rfl⟩ := h.beside
    rfl
  content := h.related
  answers := h.related.ask
  outcomes v := by
    have hany := h.related.imp (S := fun _ _ => True) fun _ _ _ => trivial
    obtain ⟨-, hout⟩ := changed_related h.beside hany (v := v) fun _ _ _ => trivial
    rw [set_eq, set_eq, hout]

theorem Behaves.eq (h : Behaves Eq u w a b) : w.map b = u.map a := h.content.eq.symm

theorem InStep.refl {m : MapRef} (hm : s.Holds (.map m)) : InStep Eq s s m m :=
  ⟨⟨s.maps, rfl⟩, hm, hm, RecordMap.Related.refl (fun _ => rfl) _⟩

/-- The record under a key of a copy: the one that was copied with the map, or one set since. -/
def Renewed (deep : Bool) (s t : Store) (xs : List Turn) (r q : RecordRef) : Prop :=
  Copied deep s t r q ∨ q = r ∧ ∃ k, .set .copy (.object (.record k r)) ∈ xs

/-- After a map was copied, the copy behaves as the map would if only the sets on the copy had been
made on it, with the records or new twins of them. The map behaves as if there were no copy, and the
copy as if nothing was set in the map any more. -/
theorem Reachable.copyMap_apart (hs : s.Reachable) {m : MapRef} (hm : s.Holds (.map m))
    (deep : Bool) :
    let t := (s.perform (.copyMap m deep)).1
    let copy := (s.copyMap m deep).2
    (s.perform (.copyMap m deep)).2.result = .ok (.object (.map (s.map m).shape copy)) ∧
      MapCopy deep s t m copy ∧ s.Extends t ∧ (∀ r q, s.IsClone t r q → s.Twin t r q) ∧
      ∀ xs : List Turn,
        let both := t.turns (Branch.both copy m) xs
        Behaves (Renewed deep s t xs) (t.turns (Branch.copy.only m) xs) both m copy ∧
        Behaves Eq (t.turns (Branch.copy.only copy) xs) both copy copy ∧
        Behaves Eq (t.turns (Branch.original.only m) xs) both m m := by
  intro t copy
  obtain ⟨-, hext, hcopy⟩ := copyMap_spec hs.closed hm deep
  change s.Extends t at hext
  change MapCopy deep s t m copy at hcopy
  obtain ⟨hheld, hitem⟩ := hext _ hm
  have hmap : t.map m = s.map m := congrArg MapObject.content (Item.map.inj hitem)
  have hne : m ≠ copy := fun h => hcopy.fresh (h ▸ hm)
  -- sets on one branch never touch the map of the other one
  have hcopies : ∀ j d, j ≠ .copy → Branch.both copy m j = some d → d ≠ copy := by
    intro j d hj hd
    cases j with
    | copy => exact absurd rfl hj
    | original => cases hd; exact hne
  have horiginals : ∀ j d, j ≠ .original → Branch.both copy m j = some d → d ≠ m := by
    intro j d hj hd
    cases j with
    | copy => cases hd; exact hne.symm
    | original => exact absurd rfl hj
  refine ⟨?_, hcopy, hext, fun r q h => h.twin hs.closed hext, ?_⟩
  · rw [hcopy.content.shape]
    rfl
  · intro xs both
    refine ⟨InStep.behaves ?_, InStep.behaves ?_, InStep.behaves ?_⟩
    · refine InStep.turns ⟨⟨t.maps, rfl⟩, hheld, hcopy.held, ?_⟩ rfl hcopies ?_
      · rw [hmap]
        exact hcopy.content.imp fun _ _ => Or.inl
      · intro k r hr
        exact Or.inr ⟨rfl, k, hr⟩
    · exact (InStep.refl hcopy.held).turns rfl hcopies fun _ _ _ => rfl
    · exact (InStep.refl hheld).turns rfl horiginals fun _ _ _ => rfl

end Store

end ScatteringData
