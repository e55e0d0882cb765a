import Mathlib
import ScatteringData.Proofs.RecordMap.Taking
import ScatteringData.Proofs.Store.Ownership
import ScatteringData.Proofs.Store.Sharing

/-!
# Records that centers take

As long as no field of a record is overwritten, a center takes just the records that belong to it, and
refuses all others without any change. Whatever it takes is found under the keys of the record: after
the check nothing can go wrong any more.
-/

namespace ScatteringData

namespace Record

variable {c : Category} {r : Record} {mark : Mark} {given : List (Field × Value)}

/-! ## Identifiers -/

/-- What a record that was built from some fields is for: the element of an identifier, or the nuclide
itself. Thermal data are also for all that were given with them. -/
def MeantFor (r : Record) (given : List (Field × Value)) (c : Category) (z : Zaid) : Prop :=
  match c with
  | .atomic _ => ∃ y mark, r.zaid = .zaid y mark ∧ y.atom = z.atom
  | .nuclide k =>
    (∃ mark, r.zaid = .zaid z mark) ∨
    k.shape = .named ∧ ∃ vs, members ((given.lookup .zaids).getD (.zaids [] .shared)) = .ok vs ∧
      ∃ v ∈ vs, Zaid.ofValue v = .ok z

theorem mem_of_covered {own : Zaid × Mark} {v : Value} {zs : List (Zaid × Mark)}
    (h : covered own mark v = .ok zs) : ∃ vs, members v = .ok vs ∧
      ∀ z, z ∈ zs.map (·.1) ↔ z = own.1 ∨ ∃ w ∈ vs, Zaid.ofValue w = .ok z := by
  unfold covered at h
  simp only [except_bind_eq_ok] at h
  obtain ⟨vs, hvs, ys, hys, h⟩ := h
  have hread := forall₂_of_mapM_eq_ok hys
  refine ⟨vs, hvs, fun z => ?_⟩
  have hmem : z ∈ ys ↔ ∃ w ∈ vs, Zaid.ofValue w = .ok z := by
    constructor
    · intro hz
      exact forall₂_exists_of_mem hread hz
    · rintro ⟨w, hw, hz⟩
      obtain ⟨y, hy, hwy⟩ := forall₂_exists_of_mem hread.flip hw
      cases hz.symm.trans hwy
      exact hy
  rw [← hmem]
  generalize hmarks : (vs.zipIdx.map fun v => v.1.zaidMark (mark.part v.2)) = marks at h
  have hfirst : (ys.zip marks).map (·.1) = ys := by
    refine List.map_fst_zip ?_
    rw [← hmarks, List.length_map, List.length_zipIdx, hread.length_eq]
  cases h
  split
  · rename_i hown
    rw [hfirst]
    refine ⟨Or.inr, ?_⟩
    rintro (rfl | hz)
    · exact hown
    · exact hz
  · rw [List.map_cons, hfirst, List.mem_cons]

theorem belongsTo_iff_meantFor (h : build c mark given = .ok r) (z : Zaid) :
    r.BelongsTo c z ↔ r.MeantFor given c z := by
  cases c with
  | atomic k => exact Iff.rfl
  | nuclide k =>
    unfold BelongsTo MeantFor
    dsimp only
    unfold build at h
    simp only [except_bind_eq_ok] at h
    obtain ⟨-, -, own, -, t, -, n, -, p, -, h⟩ := h
    split at h
    · rename_i hshape
      have hk : k.shape = .versioned := hshape
      rw [hk]
      simp
    · rename_i hshape
      have hk : k.shape = .temperature := hshape
      rw [hk]
      simp
    · rename_i hshape
      have hk : k.shape = .named := hshape
      simp only [except_bind_eq_ok] at h
      obtain ⟨e, -, zs, hzs, h⟩ := h
      obtain ⟨vs, hvs, hmem⟩ := mem_of_covered hzs
      cases h
      rw [hk, hvs]
      constructor
      · rintro ⟨ys, mark', hys, hz⟩
        cases hys
        rcases (hmem z).mp hz with rfl | hz
        · exact Or.inl ⟨_, rfl⟩
        · exact Or.inr ⟨rfl, vs, rfl, hz⟩
      · intro hz
        refine ⟨zs, _, rfl, (hmem z).mpr ?_⟩
        rcases hz with ⟨mark', hown⟩ | ⟨-, ws, hws, hz⟩
        · cases hown
          exact Or.inl rfl
        · cases hws
          exact Or.inr hz

end Record

namespace Store

variable {s : Store} {x : CenterRef} {r : RecordRef} {k kind : Category}

/-! ## Setting -/

theorem setOn_refused (hr : (s.record r).Complete kind) (hk : (s.centerMap? x k).isSome)
    (hforeign : ¬ (kind = k ∧ (s.record r).BelongsTo k (s.owner x k))) :
    s.setOn x k (.object (.record kind r)) =
      (s, .fail (.data (s.rejection x k kind (s.record r)))) := by
  obtain ⟨m, hm⟩ := Option.isSome_iff_exists.mp hk
  rcases accepted_cases (x := x) (k := k) hr with ⟨hkind, hbelongs, -⟩ | ⟨-, hrefused⟩
  · exact absurd ⟨hkind, hbelongs⟩ hforeign
  · unfold setOn
    rw [hm]
    dsimp only
    rw [hrefused]

/-- Where all that a change reports can be written it is made, whether anybody listens or not. -/
theorem followed_eq (s : Store) (old : RecordMap) {change : RecordMap × Outcome Unit}
    (h : Entry.firstUnwritable? change.2.entries = none) : s.followed old change = change := by
  unfold followed Outcome.heard
  rw [h]
  split
  · rfl
  · rfl

/-- No record of a map with temperatures stands without an energy. -/
theorem Arranged.energy {m : RecordMap} (h : s.Arranged False m) (hm : m.shape ≠ .versioned)
    {p : Placement} (hp : p ∈ m.placements) : p.energy ≠ none := by
  obtain ⟨d, -, hd, -⟩ := (h p hp).energy hm
  rw [hd]
  exact Option.some_ne_none d

theorem setOn_taken {m : RecordMap} (hr : (s.record r).BuiltIn k) (hm : s.centerMap? x k = some m)
    (hshape : m.shape = k.shape) (harranged : s.Arranged False m)
    (hname : ∀ v, (s.record r).name = some v → v.chars?.isSome)
    (hbelongs : (s.record r).BelongsTo k (s.owner x k)) :
    s.setOn x k (.object (.record k r)) =
        (s.putCenterMap x k (m.set r (s.record r)).1, (m.set r (s.record r)).2) ∧
      (m.set r (s.record r)).2.result = .ok () ∧
      ∃ p ∈ (m.set r (s.record r)).1.placements, p.Fits True k.shape (s.record r) ∧
        (k.shape = .versioned → p.record = r) ∧
        ((m.set r (s.record r)).1.ask .get (s.record r).ownKeys).result =
          .ok (.record p.record) := by
  obtain ⟨hok, hwritable, htaken⟩ := RecordMap.takes hr r hshape hname fun hk p hp =>
    harranged.energy (hshape ▸ hk) hp
  refine ⟨?_, hok, htaken⟩
  rcases accepted_cases (x := x) (k := k) hr.complete with ⟨-, -, haccepted⟩ | ⟨hforeign, -⟩
  · unfold setOn
    rw [hm]
    dsimp only
    rw [haccepted]
    dsimp only
    rw [followed_eq _ _ hwritable]
  · exact absurd ⟨rfl, hbelongs⟩ hforeign

theorem settled_ownKeys (s : Store) (y : Record) :
    s.settled y.category.shape .get y.ownKeys = y.ownKeys := by
  unfold Record.ownKeys
  cases y.category.shape <;> rfl

/-- What belongs to a center is taken, and from then on it is found under its own keys. -/
theorem Untouched.setOn_found (hs : s.Untouched False) (hx : s.Holds (.center x))
    (hk : (s.centerMap? x k).isSome) (hr : (s.record r).BuiltIn k)
    (hname : ∀ v, (s.record r).name = some v → v.chars?.isSome)
    (hbelongs : (s.record r).BelongsTo k (s.owner x k)) :
    let op := Operation.setOn x k (.object (.record k r))
    let t := (s.perform op).1
    (s.perform op).2.result = .ok .null ∧ ∃ m p, t.centerMap? x k = some m ∧ p ∈ m.placements ∧
      p.Fits True k.shape (s.record r) ∧ (k.shape = .versioned → p.record = r) ∧
      (t.perform (.askOn x k .get (s.record r).ownKeys)).2.result =
        .ok (t.recordValue p.record) := by
  intro op t
  obtain ⟨m, hm⟩ := Option.isSome_iff_exists.mp hk
  have hkeeps := hs.owned.1 x hx k m hm
  obtain ⟨hset, hok, p, hp, hfits, href, hget⟩ :=
    setOn_taken hr hm hkeeps.shape hkeeps.arranged hname hbelongs
  have hresult : (s.perform op).2 = (m.set r (s.record r)).2.map fun _ => .null :=
    congrArg (fun y : Store × Outcome Unit => y.2.map fun _ => Value.null) hset
  have ht : t = s.putCenterMap x k (m.set r (s.record r)).1 := congrArg Prod.fst hset
  have hmap : t.centerMap? x k = some (m.set r (s.record r)).1 := by
    rw [ht]
    exact centerMap?_putCenterMap_shared hs.allOrderly.1 hx hk (by cases k <;> rfl)
  refine ⟨?_, _, p, hmap, hp, hfits, href, ?_⟩
  · rw [hresult]
    exact congrArg (Except.map fun _ => Value.null) hok
  · have hshape : (m.set r (s.record r)).1.shape = (s.record r).category.shape := by
      rw [RecordMap.shape_set, hkeeps.shape, hr.normal.category]
    change ((t.askOn x k .get (s.record r).ownKeys).map t.answerValue).result = _
    unfold askOn ask
    rw [hmap]
    dsimp only
    rw [hshape, settled_ownKeys]
    exact congrArg (Except.map t.answerValue) hget

/-- As long as no field of a record is overwritten, a center takes just the records of a category that
are meant for the center, or for the element of its atom. All others are refused, and nothing has
changed. A record that was taken is found under its own file type and version; with a temperature the
search for the nearest one ends at a record under the very keys. -/
theorem Untouched.setOn_accepts (hs : s.Untouched False) {mark : Mark} {given : List (Field × Value)}
    (hop : s.Admits (.setOn x k (.object (.record kind r)))) (hk : (s.centerMap? x k).isSome)
    (hr : Record.build kind mark given = .ok (s.record r))
    (hname : ∀ v, (s.record r).name = some v → v.chars?.isSome) :
    let op := Operation.setOn x k (.object (.record kind r))
    let t := (s.perform op).1
    let meant := kind = k ∧ (s.record r).MeantFor given k (s.owner x k)
    ((s.perform op).2.result = .ok .null ↔ meant) ∧
    (¬ meant → (s.perform op).2.result = .error (.data (s.rejection x k kind (s.record r))) ∧ t = s) ∧
    (meant → ∃ m p, t.centerMap? x k = some m ∧ p ∈ m.placements ∧
      p.Fits True k.shape (s.record r) ∧ (k.shape = .versioned → p.record = r) ∧
      (t.perform (.askOn x k .get (s.record r).ownKeys)).2.result =
        .ok (t.recordValue p.record)) := by
  intro op t meant
  have hbuilt : (s.record r).BuiltIn kind := ⟨mark, given, hr⟩
  have hx : s.Holds (.center x) := hop _ (List.mem_cons_self ..)
  have hmeant : meant ↔ kind = k ∧ (s.record r).BelongsTo k (s.owner x k) := by
    refine and_congr_right ?_
    rintro rfl
    exact (Record.belongsTo_iff_meantFor hr _).symm
  by_cases h : meant
  · obtain ⟨hkind, hbelongs⟩ := hmeant.mp h
    subst hkind
    obtain ⟨hok, hfound⟩ := hs.setOn_found hx hk hbuilt hname hbelongs
    exact ⟨⟨fun _ => h, fun _ => hok⟩, fun hnot => absurd h hnot, fun _ => hfound⟩
  · have hset := setOn_refused hbuilt.complete hk fun hbelongs => h (hmeant.mpr hbelongs)
    have hresult : (s.perform op).2.result =
        .error (.data (s.rejection x k kind (s.record r))) :=
      congrArg (fun y : Store × Outcome Unit => (y.2.map fun _ => Value.null).result) hset
    refine ⟨⟨fun hok => ?_, fun hmeant => absurd hmeant h⟩, fun _ => ⟨hresult, ?_⟩,
      fun hmeant => absurd hmeant h⟩
    · rw [hresult] at hok
      cases hok
    · exact congrArg Prod.fst hset

def waterFields : List (Field × Value) :=
  [(.zaid, .int 8016 .shared), (.fileType, .text "ACE" .shared), (.fileVersion, .int 0 .shared),
    (.evaluationTemperature, .float 1.0 .shared), (.name, .text "H2O" .shared),
    (.zaids, .list [.int 1001 .shared] .shared)]

def watered : Store :=
  Store.empty.run [
    .buildNuclide (.int 1001 .shared) (.float 1.0 .shared) .null .null,
    .buildRecord (.nuclide .thermalNuclear) waterFields]

theorem watered_untouched : watered.Untouched False := by
  have h₀ : Untouched False { Store.empty with listening := false } := .start false
  have h₁ := h₀.perform (.buildNuclide (.int 1001 .shared) (.float 1.0 .shared) .null .null)
    (fun n hn => by cases hn) trivial rfl fun _ => id
  exact h₁.perform (.buildRecord (.nuclide .thermalNuclear) waterFields)
    (fun n hn => by cases hn) trivial rfl fun _ => id

/-- The data are taken for the hydrogen that they were given for, although they are oxygen's. As data of
another category they are refused. -/
theorem setOn_accepts_water :
    let datum : Value := .object (.record (.nuclide .thermalNuclear) ⟨0⟩)
    let taken : Operation := .setOn (.nuclide ⟨0⟩) (.nuclide .thermalNuclear) datum
    let refused : Operation := .setOn (.nuclide ⟨0⟩) (.nuclide .nuclear) datum
    watered.Untouched False ∧ watered.Admits taken ∧ watered.Admits refused ∧
      (∃ mark, (watered.record ⟨0⟩).zaid = .zaid ⟨8016, by decide⟩ mark) ∧
      (watered.perform taken).2.result = .ok .null ∧
      (∃ q, ((watered.perform taken).1.perform
        (.askOn (.nuclide ⟨0⟩) (.nuclide .thermalNuclear) .get (watered.record ⟨0⟩).ownKeys)).2.result =
          .ok ((watered.perform taken).1.recordValue q)) ∧
      (watered.perform refused).2.result =
        .error (.data (.unexpectedKind "NuclearDataProperties" "ThermalNuclearDataProperties")) ∧
      (watered.perform refused).1 = watered := by
  intro datum taken refused
  have hheld : ∀ n, n = .center (.nuclide ⟨0⟩) ∨ n = .record ⟨0⟩ → watered.Holds n := by
    rintro n (rfl | rfl)
    · with_unfolding_all exact Nat.one_pos
    · with_unfolding_all exact Nat.one_pos
  have hadmits : ∀ k, watered.Admits (.setOn (.nuclide ⟨0⟩) k datum) := by
    intro k n hn
    rcases List.mem_cons.mp hn with rfl | hn
    · exact hheld _ (Or.inl rfl)
    · exact hheld _ (Or.inr (List.mem_singleton.mp hn))
  obtain ⟨mark, hbuilt⟩ : ∃ mark,
      Record.build (.nuclide .thermalNuclear) mark waterFields = .ok (watered.record ⟨0⟩) :=
    ⟨_, by with_unfolding_all rfl⟩
  have hname : ∀ v, (watered.record ⟨0⟩).name = some v → v.chars?.isSome := by
    intro v hv
    have hwater : (watered.record ⟨0⟩).name = some (.text "H2O" .shared) := by
      with_unfolding_all rfl
    cases hv.symm.trans hwater
    rfl
  have howner : watered.owner (.nuclide ⟨0⟩) (.nuclide .thermalNuclear) = ⟨1001, by decide⟩ := by
    with_unfolding_all rfl
  have hmeant : (watered.record ⟨0⟩).MeantFor waterFields (.nuclide .thermalNuclear)
      (watered.owner (.nuclide ⟨0⟩) (.nuclide .thermalNuclear)) := by
    rw [howner]
    exact Or.inr ⟨rfl, [.int 1001 .shared], rfl, _, List.mem_singleton_self _, rfl⟩
  obtain ⟨htaken, -, hfound⟩ :=
    watered_untouched.setOn_accepts (hadmits (.nuclide .thermalNuclear)) rfl hbuilt hname
  obtain ⟨-, hrefused, -⟩ :=
    watered_untouched.setOn_accepts (hadmits (.nuclide .nuclear)) rfl hbuilt hname
  obtain ⟨m, p, -, -, -, -, hget⟩ := hfound ⟨rfl, hmeant⟩
  obtain ⟨herror, hsame⟩ := hrefused fun h => absurd h.1 (by decide)
  refine ⟨watered_untouched, hadmits _, hadmits _, ⟨_, by with_unfolding_all rfl⟩,
    htaken.mpr ⟨rfl, hmeant⟩, ⟨p.record, hget⟩, ?_, hsame⟩
  rw [herror]
  rfl

end Store

end ScatteringData
