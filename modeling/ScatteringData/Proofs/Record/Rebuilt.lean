import Mathlib
import ScatteringData.Proofs.DataPath
import ScatteringData.Proofs.Double.Value
import ScatteringData.Proofs.Record.Built

/-!
# Records built from records

What building makes of its fields it leaves alone when they are given to it again. A record that is built
from the fields of another one has their values: its path, its energy and its row of identifiers are made
again, and the rest is the same.
-/

namespace ScatteringData

/-! ## Values made again -/

namespace Value

theorem same_self (v : Value) : v.same v = true := by
  cases v <;> simp [same]

def Agree (records : RecordRef → RecordRef → Option Bool) (v w : Value) : Prop :=
  v.same w = true ∨ equalsWith records v w = some true

theorem agreeWith_of_forall₂ {records : RecordRef → RecordRef → Option Bool} {vs ws : List Value}
    (h : List.Forall₂ (Agree records) vs ws) : agreeWith records vs ws = some true := by
  induction h with
  | nil =>
    rw [agreeWith]
    simp
  | cons hvw _ ih =>
    rw [agreeWith]
    split
    · exact ih
    · rename_i hsame
      rw [hvw.resolve_left hsame]
      exact ih

def renewed (mark : Mark) : Value → Value
  | path p _ => path p mark
  | energy e m => energy e (mark.around m.content)
  | zaids zs _ => zaids zs mark
  | v => v

theorem agree_renewed (records : RecordRef → RecordRef → Option Bool) (mark : Mark) (v : Value) :
    Agree records v (v.renewed mark) := by
  cases v with
  | path p m => exact Or.inr (by simp [equalsWith, renewed, isNaN, number?, key?])
  | energy e m => exact Or.inr (by simp [equalsWith, renewed, isNaN, number?, key?])
  | zaids zs m => exact Or.inr (by simp [equalsWith, renewed, isNaN, number?, key?])
  | _ => exact Or.inl (same_self _)

end Value

/-! ## Fields made again -/

theorem FileType.ofText?_text (t : FileType) : ofText? t.category t.text = some t := by
  obtain ⟨c, f, hf⟩ := t
  unfold ofText?
  split
  · rename_i g hg
    have htext := List.find?_some hg
    obtain rfl : g = f := Format.text_injective (beq_iff_eq.mp htext)
    rfl
  · rename_i hnone
    have hother := List.find?_eq_none.mp hnone f hf
    exact absurd (beq_iff_eq.mpr rfl) hother

theorem FileType.ofValue_self (t : FileType) : ofValue t.category (.fileType t) = .ok t := by
  have hread : (Value.fileType t).chars?.bind (ofText? t.category) = some t := t.ofText?_text
  rw [ofValue, hread]

theorem DataPath.ofValue_of_chars? {v : Value} {s : String} (h : v.chars? = some s) :
    ofValue v = .ok (ofText s) := by
  cases v with
  | text t m =>
    cases h
    rfl
  | fileType t =>
    cases h
    rfl
  | _ => cases h

theorem fileVersionOf_int {n : ℤ} (h : 0 ≤ n) (m : Mark) : fileVersionOf (.int n m) = .ok n :=
  if_neg (not_lt.mpr h)

namespace Record

variable {c : Category} {r : Record} {mark : Mark} {given : List (Field × Value)}

def fields (r : Record) : List (Field × Value) :=
  (Field.declared r.category.shape).map fun f => (f, (r.read? f).getD .null)

def renewed (mark : Mark) (r : Record) : Record :=
  { r with
    filePath := r.filePath.renewed (mark.part 1)
    evaluationTemperature := r.evaluationTemperature.map (Value.renewed (mark.part 2))
    zaids := r.zaids.map (Value.renewed (mark.part 3)) }

theorem read?_renewed (mark : Mark) (f : Field) : ∃ mark', (r.renewed mark).read? f = r.read? f ∨
    (r.renewed mark).read? f = (r.read? f).map (Value.renewed mark') := by
  cases f with
  | filePath => exact ⟨_, Or.inr rfl⟩
  | evaluationTemperature => exact ⟨_, Or.inr rfl⟩
  | zaids => exact ⟨_, Or.inr rfl⟩
  | _ => exact ⟨mark, Or.inl rfl⟩

theorem equalsWith_renewed (records : RecordRef → RecordRef → Option Bool) (mark : Mark) (r : Record) :
    equalsWith records r (r.renewed mark) = some true := by
  rw [equalsWith, if_pos (show r.category = (r.renewed mark).category from rfl)]
  apply Value.agreeWith_of_forall₂
  rw [values, values, List.forall₂_map_left_iff]
  change List.Forall₂ _ _ (List.map _ (Field.declared r.category.shape))
  rw [List.forall₂_map_right_iff, List.forall₂_same]
  intro f _
  obtain ⟨mark', hread | hread⟩ := read?_renewed (r := r) mark f
  · rw [hread]
    exact Or.inl (Value.same_self _)
  · rw [hread]
    cases r.read? f with
    | none => exact Or.inl rfl
    | some v => exact Value.agree_renewed records mark' v

/-! ## The fields of a record -/

theorem lookup_fields {f : Field} (hf : f ∈ Field.declared r.category.shape) :
    r.fields.lookup f = some ((r.read? f).getD .null) :=
  List.lookup_graph (fun f => (r.read? f).getD .null) hf

theorem getD_lookup_fields (h : r.category = c) {f : Field} (hf : f ∈ Field.declared c.shape)
    (absent : Value) : (r.fields.lookup f).getD absent = (r.read? f).getD .null := by
  rw [lookup_fields (h ▸ hf), Option.getD_some]

theorem common_subset_declared (s : Shape) : Field.common ⊆ Field.declared s := by
  cases s <;> decide

theorem required_subset_declared (s : Shape) : Field.required s ⊆ Field.declared s := by
  cases s <;> decide

theorem checkFields_fields (r : Record) : checkFields r.category.shape r.fields = .ok () := by
  have hdeclared : ¬ (r.fields.any fun g => g.1 ∉ Field.declared r.category.shape) = true := by
    simp [fields]
  have hrequired : ¬ ((Field.required r.category.shape).any fun f =>
      (r.fields.lookup f).isNone) = true := by
    simp only [List.any_eq_true, not_exists, not_and, Bool.not_eq_true]
    intro f hf
    rw [lookup_fields (required_subset_declared _ hf)]
    rfl
  rw [checkFields, if_neg hdeclared, if_neg hrequired]

/-! ## Identifiers that a record covers -/

/-- The row of identifiers is as it was given, with the own one in front only if it was absent. -/
theorem covered_eq_ok {own : Zaid × Mark} {v : Value} {zs : List (Zaid × Mark)}
    (h : covered own mark v = .ok zs) : ∃ vs ys, members v = .ok vs ∧
      vs.mapM Zaid.ofValue = .ok ys ∧
      zs.map Prod.fst = if own.1 ∈ ys then ys else own.1 :: ys := by
  unfold covered at h
  simp only [except_bind_eq_ok] at h
  obtain ⟨vs, hvs, ys, hys, h⟩ := h
  cases h
  refine ⟨vs, ys, hvs, hys, ?_⟩
  have hlength : ys.length ≤ (vs.zipIdx.map fun v => v.1.zaidMark (mark.part v.2)).length := by
    rw [List.length_map, List.length_zipIdx, (forall₂_of_mapM_eq_ok hys).length_eq]
  split
  · exact List.map_fst_zip hlength
  · rw [List.map_cons, List.map_fst_zip hlength]

theorem mapM_ofValue (zs : List (Zaid × Mark)) :
    (zs.map fun z => Value.zaid z.1 z.2).mapM Zaid.ofValue = .ok (zs.map Prod.fst) := by
  rw [List.mapM_map]
  exact List.mapM_pure

theorem map_zaidMark (zs : List (Zaid × Mark)) (mark : Mark) :
    ((zs.map fun z => Value.zaid z.1 z.2).zipIdx.map fun v => v.1.zaidMark (mark.part v.2)) =
      zs.map Prod.snd := by
  rw [List.zipIdx_map, List.map_map]
  conv_rhs => rw [← List.zipIdx_map_fst 0 zs, List.map_map]
  rfl

theorem covered_zaids {own : Zaid × Mark} {zs : List (Zaid × Mark)} (h : own.1 ∈ zs.map Prod.fst)
    (m : Mark) : covered own mark (.zaids zs m) = .ok zs := by
  have hmembers : members (.zaids zs m) = .ok (zs.map fun z => .zaid z.1 z.2) := rfl
  have hzip : (zs.map Prod.fst).zip (zs.map Prod.snd) = zs := by
    rw [List.zip_map']
    simp
  unfold covered
  simp only [except_bind_eq_ok]
  refine ⟨_, hmembers, _, mapM_ofValue zs, ?_⟩
  rw [if_pos h, map_zaidMark, hzip]
  rfl

/-! ## Building -/

theorem build_eq_ok (h : build c mark given = .ok r) : ∃ z m p,
    Zaid.ofValue ((given.lookup .zaid).getD .null) = .ok z ∧ r.zaid = .zaid z m ∧
    DataPath.ofValue ((given.lookup .filePath).getD (.text "" .shared)) = .ok p ∧
    r.filePath = .path p (mark.part 1) ∧ r.others = [] ∧
    (c.shape ≠ .named → r.zaids = none) ∧
    (c.shape = .named → ∃ zs, r.zaids = some (.zaids zs (mark.part 3)) ∧
      covered (z, m) (mark.part 4) ((given.lookup .zaids).getD (.zaids [] .shared)) = .ok zs) := by
  unfold build at h
  simp only [except_bind_eq_ok] at h
  obtain ⟨-, -, z, hz, t, -, n, -, p, hp, h⟩ := h
  refine ⟨z, ((given.lookup .zaid).getD .null).zaidMark (mark.part 0), p, hz, ?_⟩
  split at h
  · rename_i hshape
    cases h
    exact ⟨rfl, hp, rfl, rfl, fun _ => rfl, fun hc => absurd (hshape.symm.trans hc) (by decide)⟩
  · rename_i hshape
    simp only [except_bind_eq_ok] at h
    obtain ⟨e, -, h⟩ := h
    cases h
    exact ⟨rfl, hp, rfl, rfl, fun _ => rfl, fun hc => absurd (hshape.symm.trans hc) (by decide)⟩
  · rename_i hshape
    simp only [except_bind_eq_ok] at h
    obtain ⟨e, -, zs, hzs, h⟩ := h
    cases h
    exact ⟨rfl, hp, rfl, rfl, fun hc => absurd hshape hc, fun _ => ⟨zs, rfl, hzs⟩⟩

structure Settled (c : Category) (r : Record) : Prop extends Complete c r where
  filePath : ∃ p m, r.filePath = .path p m
  nowhere : c.shape ≠ .named → r.zaids = none
  own_mem : ∀ {z m zs m'}, r.zaid = .zaid z m → r.zaids = some (.zaids zs m') → z ∈ zs.map Prod.fst
  others : r.others = []

theorem BuiltIn.settled (h : r.BuiltIn c) : r.Settled c := by
  have hcomplete := h.complete
  obtain ⟨mark, given, h⟩ := h
  obtain ⟨z, m, p, -, hzaid, -, hpath, hothers, hnowhere, hnamed⟩ := build_eq_ok h
  refine ⟨hcomplete, ⟨p, _, hpath⟩, hnowhere, fun {y k zs k'} hy hzs => ?_, hothers⟩
  by_cases hshape : c.shape = .named
  · obtain ⟨zs', hzs', hcovered⟩ := hnamed hshape
    obtain ⟨vs, ys, -, -, hfirst⟩ := covered_eq_ok hcovered
    rw [hzs'] at hzs
    rw [hzaid] at hy
    cases hzs
    cases hy
    rw [hfirst]
    split
    · assumption
    · exact List.mem_cons_self
  · rw [hnowhere hshape] at hzs
    cases hzs

theorem Settled.build_fields (h : r.Settled c) (mark : Mark) :
    build c mark r.fields = .ok (r.renewed mark) := by
  obtain ⟨z, m, hz⟩ := h.zaid
  obtain ⟨t, rfl, ht⟩ := h.fileType
  obtain ⟨n, k, hn, hversion⟩ := h.fileVersion
  obtain ⟨p, l, hp⟩ := h.filePath
  have hgiven {f : Field} (hf : f ∈ Field.declared t.category.shape) (absent : Value) :=
    getD_lookup_fields h.category hf absent
  have hcommon {f : Field} (hf : f ∈ Field.common) (absent : Value) :=
    hgiven (common_subset_declared _ hf) absent
  have hchecked := checkFields_fields r
  rw [h.category] at hchecked
  unfold build
  simp only [except_bind_eq_ok]
  refine ⟨(), hchecked, z, ?_, t, ?_, n, ?_, p, ?_, ?_⟩
  · rw [hcommon (by decide), read?, hz]
    rfl
  · rw [hcommon (by decide), read?, ht]
    exact t.ofValue_self
  · rw [hcommon (by decide), read?, hversion]
    exact fileVersionOf_int hn k
  · rw [hcommon (by decide), read?, hp]
    rfl
  rw [hcommon (f := .zaid) (by decide), hcommon (f := .fileVersion) (by decide),
    hcommon (f := .fileStartLine) (by decide), hcommon (f := .tableName) (by decide), renewed,
    h.category, h.others, hp, hz, ht]
  simp only [read?, hz, Option.getD_some]
  cases hshape : t.category.shape with
  | versioned =>
    rw [h.cold hshape, h.nameless (by rw [hshape]; decide), h.nowhere (by rw [hshape]; decide)]
    rfl
  | temperature =>
    obtain ⟨e, j, he⟩ := h.temperature (by rw [hshape]; decide)
    rw [h.nameless (by rw [hshape]; decide), h.nowhere (by rw [hshape]; decide),
      hgiven (f := .evaluationTemperature) (by rw [hshape]; decide)]
    simp only [read?, he, Option.getD_some, except_bind_eq_ok]
    exact ⟨e, normalTemperature_energy e j, rfl⟩
  | named =>
    obtain ⟨e, j, he⟩ := h.temperature (by rw [hshape]; decide)
    obtain ⟨⟨v, hv⟩, zs, i, hzs⟩ := h.named hshape
    rw [hgiven (f := .evaluationTemperature) (by rw [hshape]; decide),
      hgiven (f := .name) (by rw [hshape]; decide), hgiven (f := .zaids) (by rw [hshape]; decide)]
    simp only [read?, he, hv, hzs, Option.getD_some, except_bind_eq_ok]
    exact ⟨e, normalTemperature_energy e j, zs, covered_zaids (h.own_mem hz hzs) i, rfl⟩

theorem covers_zaids {stored : List (Zaid × Mark)} {m : Mark} (h : r.zaids = some (.zaids stored m))
    (z : Zaid) : r.covers z = .ok (decide (z ∈ stored.map Prod.fst)) := by
  rw [covers, h]
  refine congrArg Except.ok (Bool.eq_iff_iff.mpr ?_)
  simp

/-- A record of any category that is built is built again from its own fields, with an equal result. Its
path is read again from the text of the path. If it is thermal, its row of identifiers is the given one,
with its own identifier in front where that was absent, and those are what the record covers. -/
theorem build_rebuilt (h : build c mark given = .ok r) :
    (∀ mark', ∃ r', build c mark' r.fields = .ok r' ∧
      ∀ records, equalsWith records r r' = some true) ∧
    (∀ s, ((given.lookup .filePath).getD (.text "" .shared)).chars? = some s →
      ∃ p m, r.filePath = .path p m ∧ ∀ m', DataPath.ofValue (.text p.text m') = .ok p) ∧
    (c.shape = .named → ∃ own vs zs stored m,
      Zaid.ofValue ((given.lookup .zaid).getD .null) = .ok own ∧
      members ((given.lookup .zaids).getD (.zaids [] .shared)) = .ok vs ∧
      vs.mapM Zaid.ofValue = .ok zs ∧ r.zaids = some (.zaids stored m) ∧
      stored.map Prod.fst = (if own ∈ zs then zs else own :: zs) ∧
      ∀ z, r.covers z = .ok (decide (z = own ∨ z ∈ zs))) := by
  have hsettled := BuiltIn.settled ⟨mark, given, h⟩
  obtain ⟨own, m, p, hown, -, hread, hpath, -, -, hnamed⟩ := build_eq_ok h
  refine ⟨fun mark' => ⟨_, hsettled.build_fields mark', fun records =>
    equalsWith_renewed records mark' r⟩, fun s hs => ⟨p, _, hpath, fun m' => ?_⟩, fun hshape => ?_⟩
  · rw [DataPath.ofValue_of_chars? hs] at hread
    rw [DataPath.ofValue_of_chars? rfl, ← Except.ok.inj hread, DataPath.ofText_text]
  · obtain ⟨stored, hstored, hcovered⟩ := hnamed hshape
    obtain ⟨vs, zs, hvs, hzs, hfirst⟩ := covered_eq_ok hcovered
    refine ⟨own, vs, zs, stored, _, hown, hvs, hzs, hstored, hfirst, fun z => ?_⟩
    rw [covers_zaids hstored, hfirst]
    congr 2
    split <;> simp_all

def waterFields : List (Field × Value) :=
  [(.zaid, .int 1001 .shared), (.fileType, .text "ACE" .shared), (.fileVersion, .int 0 .shared),
    (.filePath, .text "//data/./water" .shared),
    (.evaluationTemperature, .energy ⟨1.0, Double.isMagnitude_one⟩ .shared),
    (.name, .text "H2O" .shared), (.zaids, .list [.int 8016 .shared] .shared)]

theorem build_rebuilt_water : ∃ r, build (.nuclide .thermalNuclear) .shared waterFields = .ok r ∧
    (∃ r', build (.nuclide .thermalNuclear) .shared r.fields = .ok r' ∧ r.equals r' = true) ∧
    r.covers ⟨8016, by decide⟩ = .ok true := by
  have hbuilt : ∃ r, build (.nuclide .thermalNuclear) .shared waterFields = .ok r := by
    unfold build
    simp only [Category.shape, NuclideCategory.shape, except_bind_eq_ok]
    exact ⟨_, (), rfl, ⟨1001, by decide⟩, rfl, _, rfl, 0, rfl, _, rfl, _,
      normalTemperature_energy _ .shared, _, rfl, rfl⟩
  obtain ⟨r, hr⟩ := hbuilt
  obtain ⟨hagain, -, hthermal⟩ := build_rebuilt hr
  obtain ⟨r', hr', hequal⟩ := hagain .shared
  obtain ⟨own, vs, zs, -, -, -, hvs, hzs, -, -, hcovers⟩ := hthermal rfl
  cases hvs
  cases hzs
  refine ⟨r, hr, ⟨r', hr', ?_⟩, (hcovers _).trans (congrArg Except.ok (decide_eq_true ?_))⟩
  · rw [equals, hequal]
    rfl
  · exact Or.inr List.mem_cons_self

end Record

end ScatteringData
