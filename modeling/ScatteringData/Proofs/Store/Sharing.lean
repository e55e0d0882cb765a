import Mathlib
import ScatteringData.Proofs.RecordMap.Setting
import ScatteringData.Proofs.Store.Closed

/-!
# Who shares what is set

A record that is set in an atomic category of a center is set in its atom, so it is shared by the
centers of that atom. In a category of nuclides it is set in the center alone. Nothing else changes
any answer.
-/

namespace ScatteringData

/-- Operations that only ask. -/
def Operation.asks : Operation → Bool
  | .ask .. | .askOn .. | .fetch .. => true
  | _ => false

namespace Store

variable {s t : Store} {x y : CenterRef} {C D : Category} {m : RecordMap}

/-- Whether a center has the very map that another one has in a category. -/
def Shares (s : Store) (C : Category) (x y : CenterRef) : Prop :=
  match C with
  | .atomic _ => s.atomOf y = s.atomOf x
  | .nuclide _ => y = x

/-! ## Putting a map -/

theorem atom_putAtom {a : AtomRef} (ha : s.Holds (.center (.atom a))) (new : Atom) (b : AtomRef) :
    (s.putAtom a new).atom b = if b = a then new else s.atom b := by
  have h := item_put (i := .atom new) ha trivial (.center (.atom b))
  by_cases hb : b = a
  · rw [if_pos (by rw [hb])] at h
    rw [if_pos hb]
    exact Item.atom.inj h
  · rw [if_neg (by simpa using hb)] at h
    rw [if_neg hb]
    exact Item.atom.inj h

theorem nuclide_putNuclide {n : NuclideRef} (hn : s.Holds (.center (.nuclide n))) (new : Nuclide)
    (k : NuclideRef) : (s.putNuclide n new).nuclide k = if k = n then new else s.nuclide k := by
  have h := item_put (i := .nuclide new) hn trivial (.center (.nuclide k))
  by_cases hk : k = n
  · rw [if_pos (by rw [hk])] at h
    rw [if_pos hk]
    exact Item.nuclide.inj h
  · rw [if_neg (by simpa using hk)] at h
    rw [if_neg hk]
    exact Item.nuclide.inj h

theorem identity_putCenterMap (hs : s.Closed) (hx : s.Holds (.center x)) (y : CenterRef) :
    (s.putCenterMap x C m).identity y = s.identity y := by
  cases C with
  | atomic k =>
    cases y with
    | atom b =>
      unfold putCenterMap identity
      dsimp only
      rw [atom_putAtom (holds_atomOf hs hx)]
      by_cases hb : b = s.atomOf x
      · rw [if_pos hb, hb]
      · rw [if_neg hb]
    | nuclide n => rfl
  | nuclide k =>
    cases x with
    | atom a => rfl
    | nuclide n =>
      cases y with
      | atom b => rfl
      | nuclide j =>
        unfold putCenterMap identity
        dsimp only
        rw [nuclide_putNuclide hx]
        by_cases hj : j = n
        · rw [if_pos hj, hj]
        · rw [if_neg hj]

theorem atomOf_putCenterMap (hx : s.Holds (.center x)) (y : CenterRef) :
    (s.putCenterMap x C m).atomOf y = s.atomOf y := by
  cases y with
  | atom b => rfl
  | nuclide j =>
    cases C with
    | atomic k => rfl
    | nuclide k =>
      cases x with
      | atom a => rfl
      | nuclide n =>
        unfold putCenterMap atomOf
        dsimp only
        rw [nuclide_putNuclide hx]
        by_cases hj : j = n
        · rw [if_pos hj, hj]
        · rw [if_neg hj]

theorem putCenterMap_kept (x : CenterRef) (C : Category) (m : RecordMap) :
    (s.putCenterMap x C m).records = s.records ∧ (s.putCenterMap x C m).maps = s.maps ∧
      (s.putCenterMap x C m).caches = s.caches ∧ (s.putCenterMap x C m).time = s.time := by
  cases C <;> cases x <;> exact ⟨rfl, rfl, rfl, rfl⟩

/-- A map in an atomic category is put for all centers with the same atom, and for no other. -/
theorem centerMap?_putAtomicMap (hs : s.Closed) (hx : s.Holds (.center x)) (k d : AtomicCategory) :
    (s.putCenterMap x (.atomic k) m).centerMap? y (.atomic d) =
      if k = d ∧ s.atomOf y = s.atomOf x then some m else s.centerMap? y (.atomic d) := by
  have hatom : ∀ b, (s.putCenterMap x (.atomic k) m).atom b = if b = s.atomOf x then
      { s.atom (s.atomOf x) with maps := (s.atom (s.atomOf x)).maps.put k m } else s.atom b :=
    atom_putAtom (holds_atomOf hs hx) _
  change some (((s.putCenterMap x (.atomic k) m).atom
    ((s.putCenterMap x (.atomic k) m).atomOf y)).maps.get d) = _
  rw [atomOf_putCenterMap hx, hatom]
  by_cases hy : s.atomOf y = s.atomOf x
  · rw [if_pos hy, AtomicMaps.get_put]
    by_cases hd : k = d
    · rw [if_pos hd, if_pos ⟨hd, hy⟩]
    · rw [if_neg hd, if_neg fun h => hd h.1, ← hy]
      rfl
  · rw [if_neg hy, if_neg fun h => hy h.2]
    rfl

theorem centerMap?_putNuclideMap {n j : NuclideRef} (hn : s.Holds (.center (.nuclide n)))
    (k d : NuclideCategory) :
    (s.putCenterMap (.nuclide n) (.nuclide k) m).centerMap? (.nuclide j) (.nuclide d) =
      if k = d ∧ j = n then some m else s.centerMap? (.nuclide j) (.nuclide d) := by
  have hnuclide : ∀ j, (s.putCenterMap (.nuclide n) (.nuclide k) m).nuclide j = if j = n then
      { s.nuclide n with maps := (s.nuclide n).maps.put k m } else s.nuclide j :=
    nuclide_putNuclide hn _
  change some (((s.putCenterMap (.nuclide n) (.nuclide k) m).nuclide j).maps.get d) = _
  rw [hnuclide]
  by_cases hj : j = n
  · rw [if_pos hj, NuclideMaps.get_put]
    by_cases hd : k = d
    · rw [if_pos hd, if_pos ⟨hd, hj⟩]
    · rw [if_neg hd, if_neg fun h => hd h.1, hj]
      rfl
  · rw [if_neg hj, if_neg fun h => hj h.2]
    rfl

theorem centerMap?_putCenterMap_shared (hs : s.Closed) (hx : s.Holds (.center x))
    (hC : (s.centerMap? x C).isSome) (hy : s.Shares C x y) :
    (s.putCenterMap x C m).centerMap? y C = some m := by
  cases C with
  | atomic k => rw [centerMap?_putAtomicMap hs hx, if_pos ⟨rfl, hy⟩]
  | nuclide k =>
    cases x with
    | atom a => cases hC
    | nuclide n =>
      cases hy
      rw [centerMap?_putNuclideMap hx, if_pos ⟨rfl, rfl⟩]

theorem centerMap?_putCenterMap_other (hs : s.Closed) (hx : s.Holds (.center x))
    (hother : ¬ (D = C ∧ s.Shares C x y)) :
    (s.putCenterMap x C m).centerMap? y D = s.centerMap? y D := by
  cases C with
  | atomic k =>
    cases D with
    | atomic d =>
      rw [centerMap?_putAtomicMap hs hx, if_neg]
      rintro ⟨rfl, hy⟩
      exact hother ⟨rfl, hy⟩
    | nuclide d => cases y <;> rfl
  | nuclide k =>
    cases x with
    | atom a => rfl
    | nuclide n =>
      cases D with
      | atomic d =>
        change some ((s.atom ((s.putCenterMap (.nuclide n) (.nuclide k) m).atomOf y)).maps.get d) = _
        rw [atomOf_putCenterMap hx]
        rfl
      | nuclide d =>
        cases y with
        | atom b => rfl
        | nuclide j =>
          rw [centerMap?_putNuclideMap hx, if_neg]
          rintro ⟨rfl, rfl⟩
          exact hother ⟨rfl, rfl⟩

/-! ## What a center takes -/

theorem followed_ok {old : RecordMap} {change : RecordMap × Outcome Unit}
    (h : (s.followed old change).2.result = .ok ()) : s.followed old change = change := by
  unfold followed Outcome.heard at *
  by_cases hl : s.listening = true
  · rw [if_pos hl] at h ⊢
    split at h
    · rfl
    · cases h
  · rw [if_neg hl]

theorem setOn_ok {v : Value} (h : (s.setOn x C v).2.result = .ok ()) :
    ∃ m r, v = .object (.record C r) ∧ s.centerMap? x C = some m ∧
      (m.set r (s.record r)).2.result = .ok () ∧
      (s.setOn x C v).1 = s.putCenterMap x C (m.set r (s.record r)).1 := by
  unfold setOn at h ⊢
  cases hm : s.centerMap? x C with
  | none =>
    rw [hm] at h
    cases h
  | some m =>
    rw [hm] at h
    cases hr : s.accepted x C v with
    | error f =>
      rw [hr] at h
      cases h
    | ok r =>
      rw [hr] at h
      have hchange := followed_ok h
      dsimp only at h ⊢
      rw [hchange] at h ⊢
      exact ⟨m, r, accepted_eq hr, rfl, h, rfl⟩

/-- What a center answers depends on its map only, and on the maps among the arguments. -/
theorem askOn_of_map (hmap : t.centerMap? y D = s.centerMap? x C) {q : Query} {args : List Value}
    (hsettled : ∀ shape, t.settled shape q args = s.settled shape q args) :
    t.askOn y D q args = s.askOn x C q args := by
  unfold askOn ask
  rw [hmap]
  cases s.centerMap? x C with
  | none => rfl
  | some m =>
    dsimp only
    rw [hsettled]

theorem askOn_congr (hmap : t.centerMap? y D = s.centerMap? y D) (hmaps : t.maps = s.maps)
    (q : Query) (args : List Value) : t.askOn y D q args = s.askOn y D q args := by
  refine askOn_of_map hmap fun shape => ?_
  unfold settled map mapObject
  rw [hmaps]

theorem answerValue_congr (hrecords : t.records = s.records) (htime : t.time = s.time) :
    t.answerValue = s.answerValue := by
  funext a
  unfold answerValue recordValue record mark
  rw [hrecords, htime]

theorem perform_asks_congr {op : Operation} (hop : op.asks = true)
    (hrecords : t.records = s.records) (hmaps : t.maps = s.maps) (hcaches : t.caches = s.caches)
    (htime : t.time = s.time)
    (hcenter : ∀ y D q args, op = .askOn y D q args → t.centerMap? y D = s.centerMap? y D) :
    (t.perform op).2 = (s.perform op).2 := by
  have hanswer := answerValue_congr hrecords htime
  cases op with
  | ask m q args =>
    have hsettled : ∀ shape, t.settled shape q args = s.settled shape q args := by
      intro shape
      unfold settled map mapObject
      rw [hmaps]
    unfold perform ask map mapObject
    dsimp only
    rw [hmaps, hanswer, hsettled]
  | askOn y D q args =>
    unfold perform
    dsimp only
    rw [askOn_congr (hcenter y D q args rfl) hmaps, hanswer]
  | fetch c name =>
    unfold perform cache
    dsimp only
    rw [hcaches]
  | _ => cases hop

/-- A record that a center takes in an atomic category is taken by all centers with the same atom,
and one in a category of nuclides by the center alone. Those have the same answers from then on, with
the record among them. No other answer changes, neither in other categories nor of other centers,
maps or caches. -/
theorem Reachable.setOn_shared (hs : s.Reachable) {v : Value} (hop : s.Admits (.setOn x C v))
    (hok : (s.perform (.setOn x C v)).2.result = .ok .null) :
    let t := (s.perform (.setOn x C v)).1
    (∃ m r, v = .object (.record C r) ∧ s.centerMap? x C = some m ∧
      r ∈ (m.set r (s.record r)).1.records ∧
      ∀ y, s.Shares C x y → t.centerMap? y C = some (m.set r (s.record r)).1) ∧
    (∀ y z q args, s.Shares C x y → s.Shares C x z →
      (t.perform (.askOn y C q args)).2 = (t.perform (.askOn z C q args)).2) ∧
    (∀ op : Operation, op.asks = true → (∀ y q args, op = .askOn y C q args → ¬ s.Shares C x y) →
      (t.perform op).2 = (s.perform op).2) ∧
    (∀ y, t.identity y = s.identity y ∧ t.atomOf y = s.atomOf y) ∧ t.records = s.records := by
  have hx : s.Holds (.center x) := hop _ (List.mem_cons_self ..)
  obtain ⟨_, hset, -⟩ := Outcome.map_eq_ok hok
  obtain ⟨m, r, hv, hm, hresult, hput⟩ := setOn_ok hset
  intro t
  have ht : t = s.putCenterMap x C (m.set r (s.record r)).1 := hput
  clear_value t
  subst ht
  have hshared : ∀ y, s.Shares C x y →
      (s.putCenterMap x C (m.set r (s.record r)).1).centerMap? y C =
        some (m.set r (s.record r)).1 := fun y hy =>
    centerMap?_putCenterMap_shared hs.closed hx (by rw [hm]; rfl) hy
  obtain ⟨hrecords, hmaps, hcaches, htime⟩ := s.putCenterMap_kept x C (m.set r (s.record r)).1
  refine ⟨⟨m, r, hv, hm, RecordMap.mem_records_set hresult, hshared⟩, ?_, ?_, ?_, hrecords⟩
  · intro y z q args hy hz
    have hsame := (hshared y hy).trans (hshared z hz).symm
    change (askOn _ y C q args).map _ = (askOn _ z C q args).map _
    unfold askOn
    rw [hsame]
  · intro op hasks hother
    refine perform_asks_congr hasks hrecords hmaps hcaches htime fun y D q args heq => ?_
    refine centerMap?_putCenterMap_other hs.closed hx ?_
    rintro ⟨rfl, hy⟩
    exact hother y q args heq hy
  · exact fun y => ⟨identity_putCenterMap hs.closed hx y, atomOf_putCenterMap hx y⟩

def hydrogens : Store :=
  Store.empty.run [
    .buildAtom (.int 1000 .shared) (.float 1.0 .shared) .null,
    .buildNuclide (.int 1001 .shared) (.float 1.0 .shared) (.object (.center (.atom ⟨0⟩) "")) .null,
    .buildRecord (.atomic .photoatomic)
      [(.zaid, .int 1000 .shared), (.fileType, .text "ACE" .shared), (.fileVersion, .int 0 .shared)]]

theorem hydrogens_reachable : hydrogens.Reachable :=
  (Reachable.start false).run (by with_unfolding_all decide)

/-- What is set on the nuclide is answered by the atom as well, and it changes no electroatomic
data. -/
theorem setOn_shared_hydrogen :
    let op : Operation := .setOn (.nuclide ⟨0⟩) (.atomic .photoatomic)
      (.object (.record (.atomic .photoatomic) ⟨0⟩))
    hydrogens.Admits op ∧ (hydrogens.perform op).2.result = .ok .null ∧
      ∀ q args,
        ((hydrogens.perform op).1.perform (.askOn (.nuclide ⟨0⟩) (.atomic .photoatomic) q args)).2 =
          ((hydrogens.perform op).1.perform (.askOn (.atom ⟨0⟩) (.atomic .photoatomic) q args)).2 ∧
        ((hydrogens.perform op).1.perform (.askOn (.atom ⟨0⟩) (.atomic .electroatomic) q args)).2 =
          (hydrogens.perform (.askOn (.atom ⟨0⟩) (.atomic .electroatomic) q args)).2 := by
  intro op
  have hop : hydrogens.Admits op := by
    intro n hn
    rcases List.mem_cons.mp hn with rfl | hn
    · exact (by with_unfolding_all decide : 0 < 1)
    · cases List.mem_singleton.mp hn
      exact (by with_unfolding_all decide : 0 < 1)
  have hok : (hydrogens.perform op).2.result = .ok .null := by with_unfolding_all rfl
  obtain ⟨-, hsame, hother, -⟩ := Reachable.setOn_shared hydrogens_reachable hop hok
  have hatom : hydrogens.atomOf (.nuclide ⟨0⟩) = ⟨0⟩ := by with_unfolding_all rfl
  refine ⟨hop, hok, fun q args => ⟨hsame _ _ q args rfl hatom.symm, hother _ rfl ?_⟩⟩
  intro y q' args' h
  cases h

end Store

end ScatteringData
