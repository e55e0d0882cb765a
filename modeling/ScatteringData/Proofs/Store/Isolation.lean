import Mathlib
import ScatteringData.Proofs.Store.Frame
import ScatteringData.Proofs.Store.Twin

/-!
# Copies are isolated

Operations change only what they are given, and atoms of nuclides that they are given. A copy has an
atom, maps and records of its own, so what is done without them does not show in the copy, and what
is done with the copy shows in nothing that was there before.
-/

namespace ScatteringData

namespace Store

/-- Later stores, up to which operations are given only certain ones of the objects of a store. -/
inductive Later (U : Node → Prop) (t : Store) : Store → Prop
  | refl : Later U t t
  | perform {u : Store} (h : Later U t u) (op : Operation)
    (hop : ∀ n ∈ op.nodes, u.Holds n ∧ (t.Holds n → U n)) : Later U t (u.perform op).1
  | tick {u : Store} (h : Later U t u) : Later U t u.tick

/-- A center answers alike in a category of two stores, where the arguments are the same. -/
structure Agree (s t : Store) (c : CenterRef) (C : Category) : Prop where
  map : t.centerMap? c C = s.centerMap? c C
  answers : ∀ q args, (∀ n ∈ Value.nodesAll args, t.item n = s.item n) →
    t.askOn c C q args = s.askOn c C q args

/-- No key and no name of a center or of its atom refers to an object. -/
structure Plain (s : Store) (c : CenterRef) : Prop where
  name : (s.identity c).name.nodes = []
  atomName : (s.identity (.atom (s.atomOf c))).name.nodes = []
  keys : ∀ C m, s.centerMap? c C = some m → m.keyNodes = []

variable {s t u : Store} {U : Node → Prop}

/-! ## Runs that are given certain objects -/

/-- Where certain objects have with every nuclide also its atom, operations that are given only them
change no other objects. -/
theorem Later.frame (ht : t.Closed)
    (hU : ∀ n, t.Holds (.center (.nuclide n)) → U (.center (.nuclide n)) →
      U (.center (.atom (t.nuclide n).atom))) (h : t.Later U u) :
    u.Closed ∧ Frame U (fun a => U (.center (.atom a))) t u := by
  induction h with
  | refl => exact ⟨ht, Frame.refl t⟩
  | tick _ ih => exact ⟨ih.1, ih.2.holds, ih.2.item, ih.2.identity, ih.2.atomOf, ih.2.added⟩
  | @perform u _ op hop ih =>
    obtain ⟨hclosed, hframe⟩ := ih
    have hadmits : u.Admits op := fun n hn => (hop n hn).1
    have hatom : ∀ c, .center c ∈ op.nodes → U (.center (.atom (u.atomOf c))) ∨
        ¬ t.Holds (.center (.atom (u.atomOf c))) := by
      intro c hc
      obtain ⟨hheld, hgiven⟩ := hop _ hc
      cases c with
      | atom a => exact (em (t.Holds _)).imp_left hgiven
      | nuclide n =>
        by_cases hn : t.Holds (.center (.nuclide n))
        · rw [hframe.atomOf _ hn]
          exact Or.inl (hU n hn (hgiven hn))
        · exact hframe.added n hheld hn
    refine ⟨hclosed.perform hadmits, hframe.comp (perform_frame hclosed hadmits) ?_ ?_⟩
    · intro n hn htarget
      rcases Operation.mem_targets htarget with hmem | ⟨c, hc, rfl⟩
      · exact (hop n hmem).2 hn
      · exact (hatom c hc).resolve_right fun hnot => hnot hn
    · rintro a ⟨c, hc, rfl⟩
      exact hatom c hc

theorem centerMap?_congr {c : CenterRef} {C : Category} (hatom : t.atomOf c = s.atomOf c)
    (hhome : t.item (s.home c C) = s.item (s.home c C)) :
    t.centerMap? c C = s.centerMap? c C := by
  cases C with
  | atomic k =>
    have ha : t.atom (s.atomOf c) = s.atom (s.atomOf c) := Item.atom.inj hhome
    unfold centerMap?
    dsimp only
    rw [hatom, ha]
  | nuclide k =>
    cases c with
    | atom a => rfl
    | nuclide n =>
      have hn : t.nuclide n = s.nuclide n := Item.nuclide.inj hhome
      unfold centerMap?
      dsimp only
      rw [hn]

theorem settled_congr {shape : Shape} {q : Query} {args : List Value}
    (h : ∀ n ∈ Value.nodesAll args, t.item n = s.item n) :
    t.settled shape q args = s.settled shape q args := by
  have hmap : ∀ k m, .object (.map k m) ∈ args → t.map m = s.map m := by
    intro k m hm
    have hitem := h (.map m) (Value.mem_nodesAll.mpr ⟨_, hm, List.mem_singleton_self _⟩)
    exact congrArg MapObject.content (Item.map.inj hitem)
  unfold settled
  split
  · rfl
  · refine List.ext_getElem? fun j => ?_
    rw [List.getElem?_modify, List.getElem?_modify]
    cases hv : args[j]? with
    | none => rfl
    | some v =>
      have hmem := List.mem_of_getElem? hv
      simp only [Option.map_eq_map, Option.map_some]
      split
      · split
        · rw [hmap _ _ hmem]
        · rfl
      · rfl

theorem Agree.of_home {c : CenterRef} {C : Category} (hatom : t.atomOf c = s.atomOf c)
    (hhome : t.item (s.home c C) = s.item (s.home c C)) : s.Agree t c C := by
  have hmap := centerMap?_congr hatom hhome
  exact ⟨hmap, fun q args hargs => askOn_of_map hmap fun _ => settled_congr hargs⟩

theorem holds_home (hs : s.Closed) {c : CenterRef} (hc : s.Holds (.center c)) (C : Category) :
    s.Holds (s.home c C) := by
  cases C with
  | atomic k => exact holds_atomOf hs hc
  | nuclide k => exact hc

/-! ## What a copy has of its own -/

section
variable {depth : Depth} {x y : CenterRef} (h : IsCopy depth s t x y)
include h

theorem IsCopy.atom_fresh {c : AtomicCategory} (hrenews : depth.renews x (.atomic c) = true) :
    ¬ s.Holds (.center (.atom (t.atomOf y))) ∧
      t.identity (.atom (t.atomOf y)) = s.identity (.atom (s.atomOf x)) := by
  cases x with
  | atom a =>
    cases y with
    | atom b => exact ⟨h.fresh, h.identity⟩
    | nuclide n => exact absurd (show "NuclideProperties" = "AtomProperties" from h.kind) (by decide)
  | nuclide n =>
    cases depth with
    | everything =>
      have hatom := h.atom n rfl
      rw [if_pos rfl] at hatom
      exact hatom
    | _ => cases hrenews

theorem IsCopy.home_fresh {C : Category} (hrenews : depth.renews x C = true) :
    ¬ s.Holds (t.home y C) := by
  cases C with
  | atomic c => exact (h.atom_fresh hrenews).1
  | nuclide c => exact h.fresh

theorem IsCopy.exists_clone {C : Category} (hrenews : depth.renews x C = true) {m : RecordMap}
    (hm : t.centerMap? y C = some m) {q : RecordRef} (hq : q ∈ m.records) :
    ∃ r, s.IsClone t r q := by
  have hmaps := h.maps C
  rw [hrenews, hm] at hmaps
  cases hx : s.centerMap? x C with
  | none =>
    rw [hx] at hmaps
    cases hmaps
  | some m₀ =>
    rw [hx] at hmaps
    cases hmaps with
    | some hrel =>
      obtain ⟨r, -, hr⟩ := hrel.exists_of_mem hq
      exact ⟨r, hr⟩

/-- Where everything is renewed and keys and names are plain, all that is reached from a copy is
new. -/
theorem IsCopy.reach_fresh (hs : s.Closed) (ht : t.Closed) (hst : s.Extends t)
    (hrenews : ∀ C, depth.renews x C = true) (hplain : s.Plain x) :
    ∀ n ∈ t.reach (.center y), ¬ s.Holds n := by
  obtain ⟨hatom, hatomId⟩ := h.atom_fresh (hrenews (.atomic .photoatomic))
  -- the copy, its atom, and what is reached from the clones under its keys
  let P (n : Node) : Prop := n = .center y ∨ n = .center (.atom (t.atomOf y)) ∨
    ∃ r q, s.IsClone t r q ∧ n ∈ t.reach (.record q)
  have hmaps : ∀ C m, t.centerMap? y C = some m → ∀ n ∈ m.nodes, P n := by
    intro C m hm
    have hrel := h.maps C
    rw [hrenews, hm] at hrel
    cases hx : s.centerMap? x C with
    | none =>
      rw [hx] at hrel
      cases hrel
    | some m₀ =>
      rw [hx] at hrel
      cases hrel with
      | some hrel =>
        refine hrel.nodes (fun r q hrq => ?_) fun k hk => ?_
        · exact Or.inr (Or.inr ⟨r, q, hrq, (reach_spec ht (IsClone.held hrq)).2.2.1⟩)
        · rw [hplain.keys C m₀ hx] at hk
          cases hk
  have hatomNodes : ∀ k ∈ (t.atom (t.atomOf y)).nodes, P k := by
    intro k hk
    rcases Atom.mem_nodes.mp hk with hk | ⟨c, hk⟩
    · have hname := congrArg (fun i => i.name.nodes) hatomId
      rw [show (t.atom (t.atomOf y)).identity.name.nodes = [] from hname.trans hplain.atomName] at hk
      cases hk
    · exact hmaps (.atomic c) _ rfl k hk
  have hP : ∀ n, P n → ∀ k ∈ t.neighbours n, P k := by
    rintro n (rfl | rfl | ⟨r, q, hrq, hn⟩) k hk
    · cases y with
      | atom b => exact hatomNodes k hk
      | nuclide j =>
        rcases Nuclide.mem_nodes.mp hk with hk | rfl | ⟨c, hk⟩
        · have hname := congrArg (fun i => i.name.nodes) h.identity
          rw [show (t.nuclide j).identity.name.nodes = [] from hname.trans hplain.name] at hk
          cases hk
        · exact Or.inr (Or.inl rfl)
        · exact hmaps (.nuclide c) _ rfl k hk
    · exact hatomNodes k hk
    · exact Or.inr (Or.inr ⟨r, q, hrq, (reach_spec ht (IsClone.held hrq)).2.2.2 n hn k hk⟩)
  have hfresh : ∀ n, P n → ¬ s.Holds n := by
    rintro n (rfl | rfl | ⟨r, q, hrq, hn⟩)
    · exact h.fresh
    · exact hatom
    · exact (hrq.twin hs hst).apart n hn
  exact fun n hn => hfresh n (reachFrom_subset hP t.size (fun k hk => Or.inl (List.mem_singleton.mp hk)) n hn)

end

/-! ## Isolation -/

theorem IsCopy.isolated (hs : s.Closed) (ht : t.Closed) (hst : s.Extends t) {depth : Depth}
    {x y : CenterRef} (h : IsCopy depth s t x y) (hu : t.Later s.Holds u) :
    u.identity y = t.identity y ∧ u.atomOf y = t.atomOf y ∧
      ∀ C, depth.renews x C = true → t.Agree u y C ∧
        ∀ m, t.centerMap? y C = some m → ∀ r ∈ m.records, ∀ n ∈ t.reach (.record r),
          u.item n = t.item n := by
  have hatoms : ∀ n, t.Holds (.center (.nuclide n)) → s.Holds (.center (.nuclide n)) →
      s.Holds (.center (.atom (t.nuclide n).atom)) := by
    intro n _ hn
    rw [Item.nuclide.inj (hst _ hn).2]
    exact hs _ hn _ (Nuclide.mem_nodes.mpr (Or.inr (Or.inl rfl)))
  obtain ⟨-, hframe⟩ := hu.frame ht hatoms
  refine ⟨hframe.identity y h.held, hframe.atomOf y h.held, fun C hrenews => ⟨?_, ?_⟩⟩
  · exact Agree.of_home (hframe.atomOf y h.held)
      (hframe.item _ (holds_home ht h.held C) (h.home_fresh hrenews))
  · intro m hm q hq n hn
    obtain ⟨r, hrq⟩ := h.exists_clone hrenews hm hq
    exact hframe.item n ((reach_spec ht hrq.held).2.1 n hn) ((hrq.twin hs hst).apart n hn)

/-- What is done with the new objects and with some old ones changes no other old object. -/
theorem IsCopy.leaves (hs : s.Closed) (ht : t.Closed) (hst : s.Extends t) {depth : Depth}
    {x y : CenterRef} (hx : s.Holds (.center x)) (h : IsCopy depth s t x y)
    (hcopying : ∀ atoms : AtomRef → Prop,
      (∀ n, x = .nuclide n → depth ≠ .everything → atoms (s.nuclide n).atom) →
        Frame (fun _ => False) atoms s t)
    {W : Node → Prop}
    (hW : ∀ n, s.Holds (.center (.nuclide n)) → W (.center (.nuclide n)) →
      W (.center (.atom (s.nuclide n).atom)))
    (hatom : s.Holds (.center (.atom (t.atomOf y))) → W (.center (.atom (t.atomOf y))))
    (hu : t.Later (fun n => s.Holds n → W n) u) :
    (∀ n, s.Holds n → ¬ W n → u.item n = s.item n) ∧
      ∀ z C, s.Holds (.center z) → ¬ W (s.home z C) → s.Agree u z C := by
  have hadded : Frame (fun _ => False) (fun a => W (.center (.atom a))) s t := by
    refine hcopying _ ?_
    rintro n rfl hdepth
    have hshared := h.atom n rfl
    rw [if_neg hdepth] at hshared
    rw [hshared] at hatom
    exact hatom (holds_atomOf hs hx)
  -- a nuclide that may be used is on an atom that may be used, whether it is an old one or not
  have hatoms : ∀ n, t.Holds (.center (.nuclide n)) →
      (s.Holds (.center (.nuclide n)) → W (.center (.nuclide n))) →
      s.Holds (.center (.atom (t.nuclide n).atom)) → W (.center (.atom (t.nuclide n).atom)) := by
    intro n hn hUn hold
    by_cases hns : s.Holds (.center (.nuclide n))
    · rw [Item.nuclide.inj (hst _ hns).2]
      exact hW n hns (hUn hns)
    · exact (hadded.added n hn hns).resolve_right fun hnot => hnot hold
  obtain ⟨-, hframe⟩ := hu.frame ht hatoms
  have hitem : ∀ n, s.Holds n → ¬ W n → u.item n = s.item n := fun n hn hnot =>
    (hframe.item n (hst n hn).1 fun h => hnot (h hn)).trans (hst n hn).2
  refine ⟨hitem, fun z C hz hhome => Agree.of_home ?_ ?_⟩
  · exact (hframe.atomOf z (hst _ hz).1).trans (center_congr (hst _ hz).2).2
  · exact hitem _ (holds_home hs hz C) hhome

/-- A copy is isolated in both directions. What is done without the new objects does not show in what
the copy has of its own. What is done with the new objects and with some old ones changes no other
old object, and no answer of other centers. If keys and names are plain, everything that a deep copy
leads to is new. -/
theorem Reachable.copyCenter_isolated (hs : s.Reachable) {x : CenterRef} (hx : s.Holds (.center x))
    (depth : Depth) :
    let t := (s.perform (.copyCenter x depth)).1
    ∃ y, (s.perform (.copyCenter x depth)).2.result = .ok (.object (t.centerObject y)) ∧
      IsCopy depth s t x y ∧
      (∀ u, t.Later s.Holds u → u.identity y = t.identity y ∧ u.atomOf y = t.atomOf y ∧
        ∀ C, depth.renews x C = true → t.Agree u y C ∧
          ∀ m, t.centerMap? y C = some m → ∀ r ∈ m.records, ∀ n ∈ t.reach (.record r),
            u.item n = t.item n) ∧
      (∀ W : Node → Prop,
        (∀ n, s.Holds (.center (.nuclide n)) → W (.center (.nuclide n)) →
          W (.center (.atom (s.nuclide n).atom))) →
        (s.Holds (.center (.atom (t.atomOf y))) → W (.center (.atom (t.atomOf y)))) →
        ∀ u, t.Later (fun n => s.Holds n → W n) u →
          (∀ n, s.Holds n → ¬ W n → u.item n = s.item n) ∧
          ∀ z C, s.Holds (.center z) → ¬ W (s.home z C) → s.Agree u z C) ∧
      ((∀ C, depth.renews x C = true) → s.Plain x → ∀ n ∈ t.reach (.center y), ¬ s.Holds n) := by
  obtain ⟨ht, hst, hcopy⟩ := copyCenter_spec hs.closed hx depth
  have hcopying : ∀ atoms : AtomRef → Prop,
      (∀ n, x = .nuclide n → depth ≠ .everything → atoms (s.nuclide n).atom) →
        Frame (fun _ => False) atoms s (s.copyCenter x depth).1 :=
    fun _ => copyCenter_frame hs.closed hx depth
  refine ⟨_, rfl, hcopy, fun u hu => hcopy.isolated hs.closed ht hst hu, ?_,
    hcopy.reach_fresh hs.closed ht hst⟩
  exact fun W hW hatom u hu => hcopy.leaves hs.closed ht hst hx hcopying hW hatom hu

theorem supplied_plain : supplied.Plain (.nuclide ⟨0⟩) := by
  refine ⟨by with_unfolding_all rfl, by with_unfolding_all rfl, fun C m hm => ?_⟩
  cases C with
  | atomic c => cases hm; cases c <;> with_unfolding_all rfl
  | nuclide c => cases hm; cases c <;> with_unfolding_all rfl

/-- The record of a deep copy is written, and the one that it was copied from stays as it was. -/
theorem copyCenter_isolated_hydrogen :
    let t := (supplied.perform (.copyCenter (.nuclide ⟨0⟩) .everything)).1
    let u := (t.perform (.assign ⟨1⟩ .tableName (.text "copy" .shared))).1
    supplied.Holds (.center (.nuclide ⟨0⟩)) ∧ ¬ supplied.Holds (.record ⟨1⟩) ∧
      (∃ y, IsCopy .everything supplied t (.nuclide ⟨0⟩) y ∧
        ∀ n ∈ t.reach (.center y), ¬ supplied.Holds n) ∧
      (u.record ⟨1⟩).tableName = .text "copy" .shared ∧
      (∀ n, supplied.Holds n → u.item n = supplied.item n) ∧
      ∀ C, supplied.Agree u (.nuclide ⟨0⟩) C := by
  intro t u
  have hc : supplied.Holds (.center (.nuclide ⟨0⟩)) := (by with_unfolding_all decide : 0 < 1)
  have hnew : ¬ supplied.Holds (.record ⟨1⟩) := (by with_unfolding_all decide : ¬ 1 < 1)
  obtain ⟨y, -, hy, -, hleaves, hfresh⟩ :=
    Reachable.copyCenter_isolated supplied_reachable hc .everything
  have hatom := (hy.atom_fresh (c := .photoatomic) rfl).1
  have hlater : t.Later (fun n => supplied.Holds n → False) u := by
    refine .perform .refl _ fun n hn => ?_
    cases List.mem_singleton.mp hn
    exact ⟨(by with_unfolding_all decide : 1 < 2), fun _ => hnew⟩
  obtain ⟨hitem, hagree⟩ := hleaves (fun _ => False) (fun _ _ h => h) hatom u hlater
  refine ⟨hc, hnew, ⟨y, hy, hfresh (fun C => rfl) supplied_plain⟩, ?_,
    fun n hn => hitem n hn id, fun C => hagree _ C hc id⟩
  with_unfolding_all rfl

def keyed : Store :=
  Store.empty.run [
    .buildAtom (.int 1000 .shared) (.float 1.0 .shared) .null,
    .buildAtom (.int 2000 .shared) (.float 4.0 .shared) .null,
    .buildNuclide (.int 2004 .shared) (.float 4.0 .shared) (.object (.center (.atom ⟨1⟩) "")) .null,
    .buildRecord (.atomic .photoatomic)
      [(.zaid, .int 1000 .shared), (.fileType, .text "ACE" .shared), (.fileVersion, .int 0 .shared)],
    .assign ⟨0⟩ .fileVersion (.object (.center (.atom ⟨1⟩) "")),
    .setOn (.atom ⟨0⟩) (.atomic .photoatomic) (.object (.record (.atomic .photoatomic) ⟨0⟩))]

theorem keyed_reachable : keyed.Reachable :=
  (Reachable.start false).run (by with_unfolding_all decide)

/-- The version that a deep copy recommends is the atom that the original has as its key. Data that
are set in that atom show in the nuclide on it, which was there before the copy. -/
theorem copyCenter_key_shared :
    let t := (keyed.perform (.copyCenter (.atom ⟨0⟩) .everything)).1
    let data : Operation := .buildRecord (.atomic .photoatomic)
      [(.zaid, .int 2000 .shared), (.fileType, .text "ACE" .shared), (.fileVersion, .int 0 .shared)]
    let set : Operation := .setOn (.atom ⟨1⟩) (.atomic .photoatomic)
      (.object (.record (.atomic .photoatomic) ⟨2⟩))
    let u := t.run [data, set]
    keyed.Reachable ∧ keyed.Holds (.center (.atom ⟨0⟩)) ∧
      (keyed.perform (.copyCenter (.atom ⟨0⟩) .everything)).2.result =
        .ok (.object (t.centerObject (.atom ⟨3⟩))) ∧
      (t.askOn (.atom ⟨3⟩) (.atomic .photoatomic) .recommendedVersion [.text "ACE" .shared]).result =
        .ok (.key (.object (.center (.atom ⟨1⟩) ""))) ∧
      (t.perform data).2.result = .ok ((t.perform data).1.recordValue ⟨2⟩) ∧
      ¬ t.Holds (.record ⟨2⟩) ∧
      (t.askOn (.nuclide ⟨0⟩) (.atomic .photoatomic) .available []).result = .ok (.truth false) ∧
      (u.askOn (.nuclide ⟨0⟩) (.atomic .photoatomic) .available []).result = .ok (.truth true) := by
  refine ⟨keyed_reachable, ?_, ?_, ?_, ?_, ?_, ?_, ?_⟩
  · exact (by with_unfolding_all decide : 0 < 2)
  · with_unfolding_all rfl
  · with_unfolding_all rfl
  · with_unfolding_all rfl
  · exact (by with_unfolding_all decide : ¬ 2 < 2)
  · with_unfolding_all rfl
  · with_unfolding_all rfl

end Store

end ScatteringData
