import Mathlib
import ScatteringData.Proofs.Outcome
import ScatteringData.Record

/-!
# Records as they are built

Building a record leaves a file type of its category, a version that is an integer and, where the
category has temperatures, an energy. So all keys of a record that was built are there.
-/

namespace ScatteringData

theorem FileType.category_of_ofValue {c : Category} {v : Value} {t : FileType}
    (h : FileType.ofValue c v = .ok t) : t.category = c := by
  unfold FileType.ofValue at h
  split at h
  · rename_i t' ht
    cases h
    obtain ⟨s, -, hs⟩ := Option.bind_eq_some_iff.mp ht
    unfold FileType.ofText? at hs
    split at hs
    · cases hs
      rfl
    · cases hs
  · cases h

theorem fileVersionOf_eq_ok {v : Value} {n : Int} (h : fileVersionOf v = .ok n) :
    0 ≤ n ∧ ∃ mark, v = .int n mark := by
  unfold fileVersionOf at h
  split at h
  · rename_i k mark
    split at h
    · cases h
    · rename_i hk
      cases h
      exact ⟨not_lt.mp hk, mark, rfl⟩
  · cases h

namespace Record

theorem normalTemperature_energy (e : Energy) (m : Mark) : normalTemperature (.energy e m) = .ok e :=
  dif_pos e.admissible

/-- The record was built in the category. -/
def BuiltIn (c : Category) (r : Record) : Prop := ∃ mark given, build c mark given = .ok r

def IsGraded (r : Record) : Prop := ∃ c : Category, c.shape ≠ .versioned ∧ r.BuiltIn c

def energy? (r : Record) : Option Energy :=
  match r.grade with
  | .ok (.energy e) => some e
  | _ => none

/-- What building makes of the fields by which records are found. -/
structure Normal (c : Category) (r : Record) : Prop where
  category : r.category = c
  fileType : ∃ t : FileType, t.category = c ∧ r.fileType = .fileType t
  fileVersion : ∃ n mark, 0 ≤ n ∧ r.fileVersion = .int n mark
  temperature : c.shape ≠ .versioned → ∃ e mark, r.evaluationTemperature = some (.energy e mark)

variable {c : Category} {r : Record}

/-- All that building makes of the fields by which records are found and by which they belong to a
center. Without temperatures a record has no energy, and without names no name. -/
structure Complete (c : Category) (r : Record) : Prop extends Normal c r where
  zaid : ∃ z mark, r.zaid = .zaid z mark
  cold : c.shape = .versioned → r.evaluationTemperature = none
  nameless : c.shape ≠ .named → r.name = none
  named : c.shape = .named → (∃ v, r.name = some v) ∧ ∃ zs mark, r.zaids = some (.zaids zs mark)

theorem BuiltIn.complete (h : r.BuiltIn c) : r.Complete c := by
  obtain ⟨mark, given, h⟩ := h
  unfold build at h
  simp only [except_bind_eq_ok] at h
  obtain ⟨-, -, z, -, t, ht, n, hn, p, -, h⟩ := h
  obtain ⟨hpos, mark', hv⟩ := fileVersionOf_eq_ok hn
  have htype := FileType.category_of_ofValue ht
  split at h
  · rename_i hshape
    cases h
    exact ⟨⟨rfl, ⟨t, htype, rfl⟩, ⟨n, mark', hpos, hv⟩, fun hc => absurd hshape hc⟩, ⟨z, _, rfl⟩,
      fun _ => rfl, fun _ => rfl, fun hc => absurd (hshape.symm.trans hc) (by decide)⟩
  · rename_i hshape
    simp only [except_bind_eq_ok] at h
    obtain ⟨e, -, h⟩ := h
    cases h
    exact ⟨⟨rfl, ⟨t, htype, rfl⟩, ⟨n, mark', hpos, hv⟩, fun _ => ⟨e, _, rfl⟩⟩, ⟨z, _, rfl⟩,
      fun hc => absurd (hshape.symm.trans hc) (by decide), fun _ => rfl,
      fun hc => absurd (hshape.symm.trans hc) (by decide)⟩
  · rename_i hshape
    simp only [except_bind_eq_ok] at h
    obtain ⟨e, -, zs, -, h⟩ := h
    cases h
    exact ⟨⟨rfl, ⟨t, htype, rfl⟩, ⟨n, mark', hpos, hv⟩, fun _ => ⟨e, _, rfl⟩⟩, ⟨z, _, rfl⟩,
      fun hc => absurd (hshape.symm.trans hc) (by decide), fun hc => absurd hshape hc,
      fun _ => ⟨⟨_, rfl⟩, zs, _, rfl⟩⟩

theorem BuiltIn.normal (h : r.BuiltIn c) : r.Normal c := h.complete.toNormal

theorem IsGraded.fields (h : r.IsGraded) : ∃ t n mark e mark',
    r.fileType = .fileType t ∧ r.fileVersion = .int n mark ∧
      r.evaluationTemperature = some (.energy e mark') := by
  obtain ⟨c, hc, hbuilt⟩ := h
  obtain ⟨t, -, ht⟩ := hbuilt.normal.fileType
  obtain ⟨n, mark, -, hn⟩ := hbuilt.normal.fileVersion
  obtain ⟨e, mark', he⟩ := hbuilt.normal.temperature hc
  exact ⟨t, n, mark, e, mark', ht, hn, he⟩

theorem grade_of_energy {e : Energy} {mark : Mark}
    (h : r.evaluationTemperature = some (.energy e mark)) : r.grade = .ok (.energy e) := by
  simp only [grade, h]

theorem energy?_of_energy {e : Energy} {mark : Mark}
    (h : r.evaluationTemperature = some (.energy e mark)) : r.energy? = some e := by
  simp only [energy?, grade_of_energy h]

theorem Complete.energy_of_grade (h : r.Complete c) {g : Grade} (hg : r.grade = .ok g) :
    ∃ e, g = .energy e := by
  by_cases hshape : c.shape = .versioned
  · rw [grade, h.cold hshape] at hg
    cases hg
  · obtain ⟨e, mark, he⟩ := h.temperature hshape
    rw [grade_of_energy he] at hg
    exact ⟨e, (Except.ok.inj hg).symm⟩

/-! ## Records that are built -/

def hydrogen (version : Nat) (e : Energy) : Record where
  category := .nuclide .nuclear
  zaid := .zaid ⟨1001, by decide⟩ (.around .shared .shared)
  fileType := .fileType ⟨.nuclide .nuclear, .ace, by decide⟩
  fileVersion := .int version .shared
  filePath := .path (.ofText "") .shared
  fileStartLine := .int 0 .shared
  tableName := .text "" .shared
  evaluationTemperature := some (.energy e (.around .shared .shared))
  name := none
  zaids := none
  others := []

theorem hydrogen_built (version : Nat) (e : Energy) :
    (hydrogen version e).BuiltIn (.nuclide .nuclear) := by
  refine ⟨.shared, [(.zaid, .int 1001 .shared), (.fileType, .text "ACE" .shared),
    (.fileVersion, .int version .shared), (.evaluationTemperature, .energy e .shared)], ?_⟩
  unfold build
  change (do
    let e' ← normalTemperature (.energy e .shared)
    pure { hydrogen version e with evaluationTemperature := some (.energy e' (.around .shared .shared)) } :
      Except Fault Record) = .ok (hydrogen version e)
  rw [normalTemperature_energy]
  rfl

theorem hydrogen_isGraded (version : Nat) (e : Energy) : (hydrogen version e).IsGraded :=
  ⟨_, by decide, hydrogen_built version e⟩

def boundHydrogen (name : Value) (e : Energy) : Record where
  category := .nuclide .thermalNuclear
  zaid := .zaid ⟨1001, by decide⟩ (.around .shared .shared)
  fileType := .fileType ⟨.nuclide .thermalNuclear, .ace, by decide⟩
  fileVersion := .int 0 .shared
  filePath := .path (.ofText "") .shared
  fileStartLine := .int 0 .shared
  tableName := .text "" .shared
  evaluationTemperature := some (.energy e (.around .shared .shared))
  name := some name
  zaids := some (.zaids [(⟨1001, by decide⟩, .around .shared .shared)] .shared)
  others := []

theorem boundHydrogen_built (name : Value) (e : Energy) :
    (boundHydrogen name e).BuiltIn (.nuclide .thermalNuclear) := by
  refine ⟨.shared, [(.zaid, .int 1001 .shared), (.fileType, .text "ACE" .shared),
    (.fileVersion, .int 0 .shared), (.evaluationTemperature, .energy e .shared), (.name, name)], ?_⟩
  unfold build
  change (do
    let e' ← normalTemperature (.energy e .shared)
    pure { boundHydrogen name e with
      evaluationTemperature := some (.energy e' (.around .shared .shared)) } :
      Except Fault Record) = .ok (boundHydrogen name e)
  rw [normalTemperature_energy]
  rfl

end Record

end ScatteringData
