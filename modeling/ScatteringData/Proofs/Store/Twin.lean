import Mathlib
import ScatteringData.Proofs.RecordMap.Answers
import ScatteringData.Proofs.Store.Equality
import ScatteringData.Proofs.Store.Sharing

/-!
# Copies of centers

A copy of a center is of the same kind, with the same identity and the same keys in all categories.
Under the keys it has the records of the center, or clones of them, which share nothing with them
that can change.
-/

namespace ScatteringData

namespace Store

variable {s t : Store} {r q : RecordRef}

/-- A record of a later store has the category of a record of an earlier one and copies of its
fields, and shares nothing with the earlier store. -/
structure Twin (s t : Store) (r q : RecordRef) : Prop where
  held : t.Holds (.record q)
  apart : ∀ n ∈ t.reach (.record q), ¬ s.Holds n
  category : (t.record q).category = (s.record r).category
  fields : ∃ d : Duplication, d.Copies s t ∧ t.record q = d.recordContent (s.record r)
  /-- No comparison tells the two apart where only records are referred to. -/
  same : (∀ n ∈ s.reach (.record r), ∃ p, n = .record p) →
    ∀ depth, t.recordsEqual depth q r ≠ some false
  equal : ∀ depth, s.EndsWithin depth r → t.recordsEqual depth q r = some true

theorem reach_copy {d : Duplication} (hd : d.Copies s t) {n : Node}
    (hn : n ∈ d.places.map (·.2)) : ∀ k ∈ t.reach n, k ∈ d.places.map (·.2) := by
  refine reachFrom_subset (fun k hk j hj => ?_) t.size (by simpa using hn)
  obtain ⟨p, hp, rfl⟩ := List.mem_map.mp hk
  rw [neighbours_eq, hd.item p hp] at hj
  refine Duplication.nodes_item hd.maps (fun i hi => ?_) j hj
  exact hd.saturated _ (List.mem_map_of_mem hp) i (neighbours_eq s _ ▸ hi)

theorem IsClone.twin (hs : s.Closed) (hst : s.Extends t) (h : s.IsClone t r q) : s.Twin t r q := by
  have hheld := h.held
  obtain ⟨d, hd, hr, rfl⟩ := h
  have hplace := hd.mem_record hr
  have hrecord := hd.record_eq hr
  refine ⟨hheld, fun n hn => ?_, by rw [hrecord]; rfl, ⟨d, hd, hrecord⟩, fun honly depth => ?_,
    fun depth hends => recordsEqual_eq_true hd hst hr hends⟩
  · obtain ⟨p, hp, rfl⟩ := List.mem_map.mp (reach_copy hd (List.mem_map_of_mem hplace) n hn)
    exact hd.fresh p hp
  · obtain ⟨-, -, hself, hsaturated⟩ := reach_spec hs (hd.source _ hplace)
    -- what is reached from the record is saturated, so a comparison never leaves it
    refine recordsEqual_ne_false (P := fun p => .record p ∈ s.reach (.record r)) hd hst ?_ depth hr
      hself
    intro p hp k hk
    have hmem := hsaturated _ hp k (neighbours_eq s _ ▸ hk)
    obtain ⟨p', rfl⟩ := honly k hmem
    exact ⟨p', rfl, hmem⟩

/-- A center can always be copied. The copy answers every query as the center does, with the same
records or with twins of them. What there was is not changed, and it refers to nothing new. -/
theorem Reachable.copyCenter_faithful (hs : s.Reachable) {c : CenterRef} (hc : s.Holds (.center c))
    (depth : Depth) :
    let t := (s.perform (.copyCenter c depth)).1
    (∃ k, (s.perform (.copyCenter c depth)).2.result = .ok (.object (t.centerObject k)) ∧
      IsCopy depth s t c k ∧
      ∀ C m, s.centerMap? c C = some m → ∃ m', t.centerMap? k C = some m' ∧ ∀ q args,
        Outcome.Related (Answer.Related (Copied (depth.renews c C) s t)) (m.ask q args)
          (m'.ask q args)) ∧
    (∀ r q, s.IsClone t r q → s.Twin t r q) ∧
    ∀ n, s.Holds n → t.Holds n ∧ t.item n = s.item n ∧ ∀ k ∈ (t.item n).nodes, s.Holds k := by
  obtain ⟨-, hext, hcopy⟩ := copyCenter_spec hs.closed hc depth
  refine ⟨⟨_, rfl, hcopy, fun C m hm => ?_⟩, fun r q h => h.twin hs.closed hext, fun n hn => ?_⟩
  · have hrel := hcopy.maps C
    rw [hm] at hrel
    cases hk : (s.copyCenter c depth).1.centerMap? (s.copyCenter c depth).2.2 C with
    | none =>
      rw [hk] at hrel
      cases hrel
    | some m' =>
      rw [hk] at hrel
      cases hrel with
      | some hrel => exact ⟨m', hk, fun q args => hrel.ask q args⟩
  · obtain ⟨hheld, hitem⟩ := hext n hn
    refine ⟨hheld, hitem, fun k hk => hs.closed n hn k ?_⟩
    rw [← hitem]
    exact hk

def supplied : Store :=
  (hydrogens.perform (.setOn (.nuclide ⟨0⟩) (.atomic .photoatomic)
    (.object (.record (.atomic .photoatomic) ⟨0⟩)))).1

theorem supplied_reachable : supplied.Reachable :=
  hydrogens_reachable.perform _ (by with_unfolding_all decide)

/-- A deep copy of the nuclide has a record of its own, which is equal to the other. -/
theorem copyCenter_faithful_hydrogen :
    let t := (supplied.perform (.copyCenter (.nuclide ⟨0⟩) .everything)).1
    supplied.Holds (.center (.nuclide ⟨0⟩)) ∧
      (∃ k, IsCopy .everything supplied t (.nuclide ⟨0⟩) k) ∧
      t.equals (t.recordValue ⟨1⟩) (t.recordValue ⟨0⟩) = .ok true := by
  have hc : supplied.Holds (.center (.nuclide ⟨0⟩)) := (by with_unfolding_all decide : 0 < 1)
  obtain ⟨⟨k, -, hk, -⟩, -⟩ := Reachable.copyCenter_faithful supplied_reachable hc .everything
  refine ⟨hc, ⟨k, hk⟩, ?_⟩
  with_unfolding_all rfl

def labelled : Store :=
  Store.empty.run [
    .buildAtom (.int 1000 .shared) (.float 1.0 .shared) .null,
    .buildAtom (.int 2000 .shared) (.float 4.0 .shared) .null,
    .buildRecord (.atomic .photoatomic)
      [(.zaid, .int 1000 .shared), (.fileType, .text "ACE" .shared), (.fileVersion, .int 0 .shared)],
    .setOn (.atom ⟨0⟩) (.atomic .photoatomic) (.object (.record (.atomic .photoatomic) ⟨0⟩)),
    .assign ⟨0⟩ .tableName (.object (.center (.atom ⟨1⟩) ""))]

theorem labelled_reachable : labelled.Reachable :=
  (Reachable.start false).run (by with_unfolding_all decide)

/-- The atom in the field is copied with the record, and it is equal to no other atom. So the record
under the key and the one under the same key of the copy are not equal. -/
theorem copyCenter_unequal :
    let t := (labelled.perform (.copyCenter (.atom ⟨0⟩) .everything)).1
    let key : List Value := [.text "ACE" .shared, .int 0 .shared]
    labelled.Reachable ∧ labelled.Holds (.center (.atom ⟨0⟩)) ∧
      (labelled.perform (.copyCenter (.atom ⟨0⟩) .everything)).2.result =
        .ok (.object (t.centerObject (.atom ⟨3⟩))) ∧
      (t.askOn (.atom ⟨0⟩) (.atomic .photoatomic) .get key).result = .ok (.record ⟨0⟩) ∧
      (t.askOn (.atom ⟨3⟩) (.atomic .photoatomic) .get key).result = .ok (.record ⟨1⟩) ∧
      t.equals (t.recordValue ⟨1⟩) (t.recordValue ⟨0⟩) = .ok false := by
  refine ⟨labelled_reachable, ?_, ?_, ?_, ?_, ?_⟩
  · exact (by with_unfolding_all decide : 0 < 2)
  all_goals with_unfolding_all rfl


end Store

end ScatteringData
