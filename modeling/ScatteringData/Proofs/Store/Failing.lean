import Mathlib
import ScatteringData.Proofs.RecordMap.Places
import ScatteringData.Proofs.Store.Sharing

/-!
# Sets that fail

A set that fails leaves the store as it was, but for the places that a map made for the record. Only
a listener, to whom an entry about it cannot be written, lets a set fail that went through.
-/

namespace ScatteringData

namespace Store

variable {s : Store} {v : Value} {f : Fault}

def pathOf (s : Store) (m : RecordMap) : Value → List Value
  | .object (.record _ r) => (s.record r).path m.shape
  | v =>
    match m, s.nameOf? v with
    | .named _, some name => [name]
    | _, _ => []

/-- A record was set, or was about to be, when an entry about it could not be written. -/
def Unreported (s : Store) (m : RecordMap) (v : Value) (n : RecordMap) : Prop :=
  s.listening = true ∧ ∃ k r, v = .object (.record k r) ∧
    (m.set r (s.record r)).2.result = .ok () ∧ (n = m ∨ n = (m.set r (s.record r)).1)

/-- How a map is left by a value that could not be set. -/
def Left (s : Store) (m : RecordMap) (v : Value) (n : RecordMap) : Prop :=
  m.Padded (Label.leading (s.pathOf m v)) n ∨ s.Unreported m v n

theorem followed_failed {m : RecordMap} {k : Category} {r : RecordRef}
    (h : (s.followed m (m.set r (s.record r))).2.result = .error f) :
    s.Left m (.object (.record k r)) (s.followed m (m.set r (s.record r))).1 := by
  cases hset : (m.set r (s.record r)).2.result with
  | error g =>
    -- nothing is reported of a record that cannot be set, so it does not matter who listens
    have hsame : (s.followed m (m.set r (s.record r))).1 = m.addPlaces
        (Label.leading (s.pathOf m (.object (.record k r)))) := by
      unfold followed
      rw [RecordMap.set_failed hset]
      split
      · rfl
      · rfl
    rw [hsame]
    exact Or.inl (m.addPlaces_padded _)
  | ok u =>
    unfold followed at h ⊢
    by_cases hl : s.listening = true
    · rw [if_pos hl]
      refine Or.inr ⟨hl, k, r, rfl, hset, ?_⟩
      unfold Outcome.heard
      split
      · exact Or.inr rfl
      · dsimp only
        split
        · exact Or.inl rfl
        · exact Or.inr rfl
    · rw [if_neg hl, hset] at h
      cases h

/-! ## Maps on their own -/

theorem map_putMap {m : MapRef} (hm : s.Holds (.map m)) (x : RecordMap) :
    (s.putMap m x).map m = x := by
  have hitem := item_put (i := .map { s.mapObject m with content := x }) hm trivial (.map m)
  rw [if_pos rfl] at hitem
  exact congrArg MapObject.content (Item.map.inj hitem)

theorem putMap_self (m : MapRef) : s.putMap m (s.map m) = s :=
  congrArg (fun maps => { s with maps }) (setIfInBounds_getD s.maps default m.index)

/-- What a failing set leaves of its map; all other objects are as they were. -/
theorem set_failed {m : MapRef} (hm : s.Holds (.map m)) (h : (s.set m v).2.result = .error f) :
    (s.set m v).1 = s.putMap m ((s.set m v).1.map m) ∧
      s.Left (s.map m) v ((s.set m v).1.map m) := by
  have hleft : ∃ n, (s.set m v).1 = s.putMap m n ∧ s.Left (s.map m) v n := by
    unfold Store.set at h ⊢
    split at h
    · exact ⟨_, rfl, followed_failed h⟩
    · rename_i hrecord
      split at h
      · rename_i map name hmap hname
        refine ⟨_, rfl, Or.inl ?_⟩
        have hpath : s.pathOf (s.map m) v = [name] := by
          unfold pathOf
          split
          · exact (hrecord _ _ rfl).elim
          · rw [hmap, hname]
        rw [hpath, hmap, NamedMap.setUnusable_eq]
        exact (RecordMap.named map).addPlaces_padded _
      · rename_i hnone
        refine ⟨s.map m, (putMap_self m).symm, Or.inl ?_⟩
        have hpath : s.pathOf (s.map m) v = [] := by
          unfold pathOf
          split
          · exact (hrecord _ _ rfl).elim
          · split
            · rename_i hmap hname
              exact (hnone _ _ hmap hname).elim
            · rfl
        have hpadded := (s.map m).addPlaces_padded []
        rw [RecordMap.addPlaces_nil] at hpadded
        rw [hpath]
        exact hpadded
  obtain ⟨n, heq, hn⟩ := hleft
  have hmap : (s.set m v).1.map m = n := by rw [heq, map_putMap hm]
  rw [hmap]
  exact ⟨heq, hn⟩

/-! ## Maps of centers -/

/-- What a failing set leaves of a center's map. A value that the center does not accept changes
nothing. -/
theorem setOn_failed (hs : s.Closed) {c : CenterRef} {k : Category} (hc : s.Holds (.center c))
    (h : (s.setOn c k v).2.result = .error f) :
    (s.setOn c k v).1 = s ∧ (s.centerMap? c k = none ∨ ∃ g, s.accepted c k v = .error g) ∨
    ∃ m n r, s.centerMap? c k = some m ∧ s.accepted c k v = .ok r ∧
      (s.setOn c k v).1 = s.putCenterMap c k n ∧ (s.setOn c k v).1.centerMap? c k = some n ∧
      s.Left m v n := by
  unfold setOn at h ⊢
  cases hm : s.centerMap? c k with
  | none => exact Or.inl ⟨rfl, Or.inl rfl⟩
  | some m =>
    rw [hm] at h
    cases hr : s.accepted c k v with
    | error g => exact Or.inl ⟨rfl, Or.inr ⟨g, rfl⟩⟩
    | ok r =>
      rw [hr] at h
      refine Or.inr ⟨m, _, r, rfl, rfl, rfl, ?_, ?_⟩
      · refine centerMap?_putCenterMap_shared hs hc ?_ ?_
        · rw [hm]
          rfl
        · cases k with
          | atomic k => exact rfl
          | nuclide k => exact rfl
      · rw [accepted_eq hr]
        exact followed_failed h

/-- A set that fails, in a map or in a center, keeps all records and what look-ups find; the map
answers everything as before if and only if it had the places for the record already. -/
theorem Reachable.failed_set (hs : s.Reachable) :
    (∀ m v f, s.Admits (.set m v) → (s.set m v).2.result = .error f →
      (s.set m v).1 = s.putMap m ((s.set m v).1.map m) ∧
        s.Left (s.map m) v ((s.set m v).1.map m)) ∧
    ∀ c k v f, s.Admits (.setOn c k v) → (s.setOn c k v).2.result = .error f →
      (s.setOn c k v).1 = s ∧ (s.centerMap? c k = none ∨ ∃ g, s.accepted c k v = .error g) ∨
      ∃ m n r, s.centerMap? c k = some m ∧ s.accepted c k v = .ok r ∧
        (s.setOn c k v).1 = s.putCenterMap c k n ∧ (s.setOn c k v).1.centerMap? c k = some n ∧
        s.Left m v n :=
  ⟨fun _ _ _ hop h => set_failed (hop _ (List.mem_cons_self ..)) h,
    fun _ _ _ _ hop h => setOn_failed hs.closed (hop _ (List.mem_cons_self ..)) h⟩

def misgraded : Store :=
  Store.empty.run [
    .buildNuclide (.int 1001 .shared) (.float 1.0 .shared) .null .null,
    .buildMap .temperature (.text "nuclear" .shared),
    .buildRecord (.nuclide .nuclear)
      [(.zaid, .int 1001 .shared), (.fileType, .text "ACE" .shared), (.fileVersion, .int 0 .shared),
        (.evaluationTemperature, .float 1.0 .shared)],
    .assign ⟨0⟩ .evaluationTemperature (.float 1.0 .shared)]

def misgradedRecord : Value := .object (.record (.nuclide .nuclear) ⟨0⟩)

theorem misgraded_reachable : misgraded.Reachable :=
  (Reachable.start false).run (by with_unfolding_all decide)

/-- The map had no place for the record, so it does not answer as before. -/
theorem failed_set_misgraded :
    let t := (misgraded.set ⟨0⟩ misgradedRecord).1
    misgraded.Reachable ∧ misgraded.Admits (.set ⟨0⟩ misgradedRecord) ∧
      (misgraded.set ⟨0⟩ misgradedRecord).2.result = .error .noAttribute ∧
      (t.map ⟨0⟩).records = (misgraded.map ⟨0⟩).records ∧
      ¬ ∀ q args, (t.map ⟨0⟩).ask q args = (misgraded.map ⟨0⟩).ask q args := by
  intro t
  have hop : misgraded.Admits (.set ⟨0⟩ misgradedRecord) := by
    intro n hn
    rcases List.mem_cons.mp hn with rfl | hn
    · exact (by with_unfolding_all decide : 0 < 1)
    · cases List.mem_singleton.mp hn
      exact (by with_unfolding_all decide : 0 < 1)
  have hfailed : (misgraded.set ⟨0⟩ misgradedRecord).2.result = .error .noAttribute := by
    with_unfolding_all rfl
  obtain ⟨-, hleft⟩ := (Reachable.failed_set misgraded_reachable).1 _ _ _ hop hfailed
  rcases hleft with hpadded | ⟨hlistening, -⟩
  · refine ⟨misgraded_reachable, hop, hfailed, hpadded.records, fun h => ?_⟩
    have hplace : (none : Option Bucket).isSome = true := by
      with_unfolding_all exact hpadded.unchanged_iff.mp h
    cases hplace
  · exact absurd hlistening (by with_unfolding_all decide)

/-- After a set has failed for the temperature, the map has no record, but it says that it has one
and lists a file type, a version and a recommended version. -/
theorem failed_set_seen :
    let t := (misgraded.set ⟨0⟩ misgradedRecord).1
    let u := (misgraded.setOn (.nuclide ⟨0⟩) (.nuclide .nuclear) misgradedRecord).1
    misgraded.Reachable ∧
      (misgraded.set ⟨0⟩ misgradedRecord).2.result = .error .noAttribute ∧
      ((misgraded.map ⟨0⟩).ask .available []).result = .ok (.truth false) ∧
      ((t.map ⟨0⟩).ask .available []).result = .ok (.truth true) ∧
      ((misgraded.map ⟨0⟩).ask .recommendedVersion [.text "ACE" .shared]).result =
        .error (.request (.unknownFileType "nuclear" (.text "ACE" .shared))) ∧
      ((t.map ⟨0⟩).ask .recommendedVersion [.text "ACE" .shared]).result =
        .ok (.key (.int 0 .shared)) ∧
      (t.map ⟨0⟩).records = [] ∧
      (misgraded.setOn (.nuclide ⟨0⟩) (.nuclide .nuclear) misgradedRecord).2.result =
        .error .noAttribute ∧
      (misgraded.askOn (.nuclide ⟨0⟩) (.nuclide .nuclear) .available []).result =
        .ok (.truth false) ∧
      (u.askOn (.nuclide ⟨0⟩) (.nuclide .nuclear) .available []).result = .ok (.truth true) := by
  refine ⟨misgraded_reachable, ?_, ?_, ?_, ?_, ?_, ?_, ?_, ?_, ?_⟩
  all_goals with_unfolding_all rfl

end Store

end ScatteringData
