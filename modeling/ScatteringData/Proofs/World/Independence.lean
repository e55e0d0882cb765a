import Mathlib
import ScatteringData.Proofs.World.Simulation

/-!
# Copies of maps that are changed in place

A copy of a map has containers of its own on every level. So sets that change the containers of the one
where they lie are not seen in the other.
-/

namespace ScatteringData

namespace World

@[inherit_doc Store.turn]
def turn (maps : Branch → Option MapRef) (w : World) : Turn → World
  | .set i v =>
    match maps i with
    | some m => (w.perform (.set m v)).1
    | none => w
  | .build c fields => (w.perform (.buildRecord c fields)).1
  | .assign r f v => (w.perform (.assign r f v)).1
  | .tick => w.tick

def turns (w : World) (maps : Branch → Option MapRef) (xs : List Turn) : World := xs.foldl (turn maps) w

/-- A map of the one world behaves as a map of the other: it has the same keys with related records,
answers alike, and takes all values alike. -/
structure Behaves (R : RecordRef → RecordRef → Prop) (u w : World) (a b : MapRef) : Prop where
  records : w.objects.records = u.objects.records
  content : (u.store.map a).Related R (w.store.map b)
  answers : ∀ q args,
    Outcome.Related (Answer.Related R) ((u.store.map a).ask q args) ((w.store.map b).ask q args)
  outcomes : ∀ v, (u.set a v).2 = (w.set b v).2

variable {u w : World} {R : RecordRef → RecordRef → Prop} {a b m : MapRef}
  {maps : Branch → Option MapRef} {xs : List Turn}

theorem turn_spec (hw : w.Sound []) (hmaps : ∀ i d, maps i = some d → w.store.Holds (.map d))
    (x : Turn) :
    (w.turn maps x).Sound [] ∧ (w.turn maps x).store = w.store.turn maps x ∧
      ∀ d, w.store.Holds (.map d) → (w.turn maps x).store.Holds (.map d) := by
  cases x with
  | set i v =>
    dsimp only [turn, Store.turn]
    cases hi : maps i with
    | none => exact ⟨hw, rfl, fun _ hd => hd⟩
    | some d =>
      have hset := set_mirrors hw (hmaps i d hi) v
      refine ⟨hset.sound, hset.store, fun e he => ?_⟩
      exact hset.store ▸ (Store.holds_set d (.map e)).mpr he
  | build C fields =>
    have hbuild := build_mirrors hw C fields
    refine ⟨hbuild.sound, hbuild.store, fun d hd => ?_⟩
    have hgrown := Store.grown_buildRecord w.store C fields
    exact hbuild.store ▸ lt_of_lt_of_le hd hgrown.maps.length_le
  | assign r f v =>
    have hassign := assign_mirrors hw r f v
    exact ⟨hassign.sound, hassign.store, fun d hd => hassign.store ▸ hd⟩
  | tick => exact ⟨hw.tick, rfl, fun _ hd => hd⟩

theorem turns_spec (hw : w.Sound []) (hmaps : ∀ i d, maps i = some d → w.store.Holds (.map d))
    (xs : List Turn) :
    (w.turns maps xs).Sound [] ∧ (w.turns maps xs).store = w.store.turns maps xs ∧
      ∀ d, w.store.Holds (.map d) → (w.turns maps xs).store.Holds (.map d) := by
  induction xs generalizing w with
  | nil => exact ⟨hw, rfl, fun _ hd => hd⟩
  | cons x xs ih =>
    obtain ⟨hsound, hstore, hheld⟩ := turn_spec hw hmaps x
    obtain ⟨hsound', hstore', hheld'⟩ := ih hsound fun i d hi => hheld d (hmaps i d hi)
    exact ⟨hsound', hstore'.trans (by rw [hstore]; rfl), fun d hd => hheld' d (hheld d hd)⟩

theorem held_only {s : Store} (ha : s.Holds (.map a)) (i : Branch) :
    ∀ j d, i.only a j = some d → s.Holds (.map d) := by
  intro j d hd
  unfold Branch.only at hd
  split at hd
  · cases hd
    exact ha
  · cases hd

theorem held_both {s : Store} (ha : s.Holds (.map a)) (hb : s.Holds (.map b)) :
    ∀ i d, Branch.both a b i = some d → s.Holds (.map d) := by
  intro i d hd
  cases i with
  | copy =>
    cases hd
    exact ha
  | original =>
    cases hd
    exact hb

/-- Maps that behave alike after runs of stores behave alike after the runs of worlds. -/
theorem Behaves.of_turns {maps' : Branch → Option MapRef} (hw : w.Sound [])
    (hmaps : ∀ i d, maps i = some d → w.store.Holds (.map d))
    (hmaps' : ∀ i d, maps' i = some d → w.store.Holds (.map d)) (ha : w.store.Holds (.map a))
    (hb : w.store.Holds (.map b))
    (h : Store.Behaves R (w.store.turns maps xs) (w.store.turns maps' xs) a b) :
    Behaves R (w.turns maps xs) (w.turns maps' xs) a b := by
  obtain ⟨hsound, hstore, hheld⟩ := turns_spec hw hmaps xs
  obtain ⟨hsound', hstore', hheld'⟩ := turns_spec hw hmaps' xs
  rw [← hstore, ← hstore'] at h
  refine ⟨h.records, h.content, h.answers, fun u => ?_⟩
  rw [(set_mirrors hsound (hheld a ha) u).answer, (set_mirrors hsound' (hheld' b hb) u).answer]
  exact h.outcomes u

/-- After a map was copied, the copy behaves as the map would if only the sets on the copy had been
made on it, with the records or new twins of them. The map behaves as if there were no copy, and the
copy as if nothing was set in the map any more. -/
theorem Reachable.copyMap_independent (hw : w.Reachable) (hm : w.store.Holds (.map m)) (deep : Bool) :
    let v := (w.perform (.copyMap m deep)).1
    let copy := (w.copyMap m deep).2
    (w.perform (.copyMap m deep)).2.result = .ok (.object (.map (w.store.map m).shape copy)) ∧
      Store.MapCopy deep w.store v.store m copy ∧ w.store.Extends v.store ∧
      (∀ r q, w.store.IsClone v.store r q → w.store.Twin v.store r q) ∧
      ∀ xs : List Turn,
        let both := v.turns (Branch.both copy m) xs
        Behaves (Store.Renewed deep w.store v.store xs) (v.turns (Branch.copy.only m) xs) both m copy ∧
        Behaves Eq (v.turns (Branch.copy.only copy) xs) both copy copy ∧
        Behaves Eq (v.turns (Branch.original.only m) xs) both m m := by
  intro v copy
  obtain ⟨hsound, hstore⟩ := hw.sound_store
  obtain ⟨-, href⟩ := copyMap_made hsound hm deep
  have hop : w.store.Admits (.copyMap m deep) := fun n hn => List.mem_singleton.mp hn ▸ hm
  obtain ⟨hv, ht, hanswer⟩ := perform_mirrors hsound hstore.closed hop
  obtain ⟨hresult, hcopy, hext, htwin, hturns⟩ := hstore.copyMap_apart hm deep
  rw [← href] at hresult hcopy hturns
  rw [← ht] at hcopy hext htwin hturns
  have hheld : v.store.Holds (.map m) := (hext _ hm).1
  have hboth := held_both hcopy.held hheld
  refine ⟨by rw [hanswer]; exact hresult, hcopy, hext, htwin, fun xs => ?_⟩
  obtain ⟨hfirst, hsecond, hthird⟩ := hturns xs
  exact ⟨.of_turns hv (held_only hheld .copy) hboth hheld hcopy.held hfirst,
    .of_turns hv (held_only hcopy.held .copy) hboth hcopy.held hcopy.held hsecond,
    .of_turns hv (held_only hheld .original) hboth hheld hheld hthird⟩

def catalogued : World :=
  [.buildAtom (.int 1000 .shared) (.float 1.0 .shared) .null,
    .buildMap .versioned (.text "photoatomic" .shared),
    .buildRecord (.atomic .photoatomic)
      [(.zaid, .int 1000 .shared), (.fileType, .text "ACE" .shared), (.fileVersion, .int 0 .shared)],
    .set ⟨0⟩ (.object (.record (.atomic .photoatomic) ⟨0⟩)),
    .assign ⟨0⟩ .tableName (.object (.center (.atom ⟨0⟩) ""))].foldl
      (fun w (op : Operation) => (w.perform op).1) .empty

theorem catalogued_reachable : catalogued.Reachable :=
  (Reachable.start false).run (by with_unfolding_all decide)

/-- The record that the map has is set in its deep copy too; the map keeps what it has. -/
theorem copyMap_independent_catalogued :
    let v := (catalogued.perform (.copyMap ⟨0⟩ true)).1
    let xs : List Turn := [.set .copy (.object (.record (.atomic .photoatomic) ⟨0⟩))]
    catalogued.store.Holds (.map ⟨0⟩) ∧
      (v.turns (Branch.both ⟨1⟩ ⟨0⟩) xs).store.map ⟨0⟩ =
        (v.turns (Branch.original.only ⟨0⟩) xs).store.map ⟨0⟩ ∧
      ((v.turns (Branch.both ⟨1⟩ ⟨0⟩) xs).store.map ⟨1⟩).records = [⟨0⟩] ∧
      (v.store.map ⟨1⟩).records = [⟨1⟩] := by
  intro v xs
  have hm : catalogued.store.Holds (.map ⟨0⟩) := by with_unfolding_all decide
  have hcopy : (catalogued.copyMap ⟨0⟩ true).2 = ⟨1⟩ := by with_unfolding_all rfl
  obtain ⟨-, -, -, -, hturns⟩ := Reachable.copyMap_independent catalogued_reachable hm true
  obtain ⟨-, -, horiginal⟩ := hturns xs
  rw [hcopy] at horiginal
  refine ⟨hm, horiginal.content.eq.symm, ?_, ?_⟩
  all_goals with_unfolding_all rfl

/-- The atom in the field is copied with the record, and it is equal to no other atom. So the deep
copy of the map has a record that is not equal to the one under the same key of the map. -/
theorem copyMap_unequal :
    let v := (catalogued.perform (.copyMap ⟨0⟩ true)).1
    let key : List Value := [.text "ACE" .shared, .int 0 .shared]
    catalogued.Reachable ∧ catalogued.store.Holds (.map ⟨0⟩) ∧
      (catalogued.perform (.copyMap ⟨0⟩ true)).2.result = .ok (.object (.map .versioned ⟨1⟩)) ∧
      ((v.store.map ⟨0⟩).ask .get key).result = .ok (.record ⟨0⟩) ∧
      ((v.store.map ⟨1⟩).ask .get key).result = .ok (.record ⟨1⟩) ∧
      v.store.equals (v.store.recordValue ⟨1⟩) (v.store.recordValue ⟨0⟩) = .ok false := by
  refine ⟨catalogued_reachable, ?_, ?_, ?_, ?_, ?_⟩
  · with_unfolding_all decide
  all_goals with_unfolding_all rfl

end World

end ScatteringData
