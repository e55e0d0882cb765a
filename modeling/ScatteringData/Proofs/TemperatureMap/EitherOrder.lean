import Mathlib
import ScatteringData.Proofs.Grid.Symmetry
import ScatteringData.Proofs.TemperatureMap.Accounting
import ScatteringData.Proofs.TemperatureMap.LastWrite

/-!
# Two records in either order

What is tolerated is relative to the temperature that is set last. If the lower one of two temperatures
takes the place of the higher one when it is set last, the higher one does the same; the converse fails
where the difference is at the edge of the tolerance.
-/

namespace ScatteringData

namespace TemperatureMap

/-! ## Two records in one bucket -/

variable {records : RecordRef → Record} {category : String} {r s : RecordRef} {k₁ k₂ : Key}
  {e f : Energy}

theorem entered_single (e f : Energy) (r s : RecordRef) :
    (Grid.isMatch e.mev f.mev = true → entered [(e, r)] f s = [(f, s)]) ∧
    (Grid.isMatch e.mev f.mev = false → (entered [(e, r)] f s).length = 2 ∧
      ∀ x, x ∈ entered [(e, r)] f s ↔ x = (f, s) ∨ x = (e, r)) := by
  constructor
  · intro hmatch
    have hit : Bucket.isHit f.mev (e, r) = true := hmatch
    rw [entered, List.eraseP_cons_of_pos hit]
    rfl
  · intro hno
    have hmiss : ¬ Bucket.isHit f.mev (e, r) = true := Bool.eq_false_iff.mp hno
    have hbeq : ¬ (f.mev == e.mev) = true := by
      intro heq
      rw [Grid.isMatch_of_value_eq ((f.beq_iff e).mp heq).symm] at hno
      cases hno
    rw [entered, List.eraseP_cons_of_neg hmiss, List.eraseP_nil, Bucket.insert, Bucket.insert]
    by_cases hlt : f.mev < e.mev
    · rw [if_pos hlt]
      exact ⟨rfl, fun x => by simp⟩
    · rw [if_neg hlt, if_neg hbeq]
      exact ⟨rfl, fun x => by simp [or_comm]⟩

section
variable (hr : (records r).IsGraded) (hs : (records s).IsGraded)
  (hr₁ : (records r).fileType.key? = some k₁) (hr₂ : (records r).fileVersion.key? = some k₂)
  (hs₁ : (records s).fileType.key? = some k₁) (hs₂ : (records s).fileVersion.key? = some k₂)
  (he : (records r).energy? = some e) (hf : (records s).energy? = some f)
include hr hs hr₁ hr₂ hs₁ hs₂ he hf

theorem setAll_pair (category : String) :
    ((empty category).setAll records [r, s]).records.length = (entered [(e, r)] f s).length ∧
    ∀ j₁ j₂, ((empty category).setAll records [r, s]).entriesAt j₁ j₂ =
      if k₁ = j₁ ∧ k₂ = j₂ then entered [(e, r)] f s else [] := by
  have hempty : (empty category).Sound (Belongs records) := Sound.empty category
  obtain ⟨-, hlength₁, hfirst⟩ := hempty.set_enters r hr hr₁ hr₂ he
  obtain ⟨-, hlength₂, hsecond⟩ := (hempty.set hr).set_enters s hs hs₁ hs₂ hf
  have hone : ∀ j₁ j₂, ((empty category).set r (records r)).1.entriesAt j₁ j₂ =
      if k₁ = j₁ ∧ k₂ = j₂ then [(e, r)] else [] := hfirst
  rw [hone, if_pos ⟨rfl, rfl⟩] at hlength₂
  change (((empty category).set r (records r)).1.set s (records s)).1.records.length = _ ∧
    ∀ j₁ j₂, (((empty category).set r (records r)).1.set s (records s)).1.entriesAt j₁ j₂ = _
  constructor
  · change _ + 0 = 0 + 1 at hlength₁
    change _ + 1 = _ at hlength₂
    omega
  · intro j₁ j₂
    rw [hsecond, hone]
    split
    · rfl
    · rfl

theorem pair_spec (category : String) :
    (RecordMap.temperature ((empty category).setAll records [r, s])).size =
      (if Grid.isMatch e.mev f.mev then 1 else 2) ∧
    ∀ p, p ∈ ((empty category).setAll records [r, s]).placements none ↔
      p = ⟨none, k₁, k₂, some f, s⟩ ∨
        Grid.isMatch e.mev f.mev = false ∧ p = ⟨none, k₁, k₂, some e, r⟩ := by
  obtain ⟨hlength, hentries⟩ := setAll_pair hr hs hr₁ hr₂ hs₁ hs₂ he hf category
  obtain ⟨hone, htwo⟩ := entered_single e f r s
  have hsound : ((empty category).setAll records [r, s]).Sound (Belongs records) :=
    setAll_sound category (by simp [hr, hs])
  have hsize : (RecordMap.temperature ((empty category).setAll records [r, s])).size =
      (entered [(e, r)] f s).length := hlength
  have hplaced : ∀ p, p ∈ ((empty category).setAll records [r, s]).placements none ↔
      ∃ x ∈ entered [(e, r)] f s, p = ⟨none, k₁, k₂, some x.1, x.2⟩ := by
    rintro ⟨name, j₁, j₂, d, q⟩
    rw [hsound.mem_placements_iff]
    dsimp only
    rw [hentries]
    constructor
    · rintro ⟨rfl, d, rfl, hx⟩
      split at hx
      · rename_i hk
        obtain ⟨rfl, rfl⟩ := hk
        exact ⟨_, hx, rfl⟩
      · cases hx
    · rintro ⟨x, hx, heq⟩
      cases heq
      exact ⟨rfl, x.1, rfl, by rw [if_pos ⟨rfl, rfl⟩]; exact hx⟩
  cases hmatch : Grid.isMatch e.mev f.mev with
  | true =>
    refine ⟨by rw [hsize, hone hmatch]; rfl, fun p => ?_⟩
    rw [hplaced, hone hmatch]
    simp
  | false =>
    obtain ⟨hcount, hmem⟩ := htwo hmatch
    refine ⟨by rw [hsize, hcount]; rfl, fun p => ?_⟩
    rw [hplaced]
    simp only [hmem, exists_eq_or_imp, exists_eq_left, true_and]

/-- Where neither energy matches the other one, the order of the sets makes no difference. -/
theorem alike_swapped (category : String) (hmiss : Grid.isMatch e.mev f.mev = false)
    (hmiss' : Grid.isMatch f.mev e.mev = false) :
    (∀ p, p ∈ ((empty category).setAll records [r, s]).placements none ↔
      p ∈ ((empty category).setAll records [s, r]).placements none) ∧
    ((empty category).setAll records [r, s]).Alike ((empty category).setAll records [s, r]) := by
  have hsound : ((empty category).setAll records [r, s]).Sound (Belongs records) :=
    setAll_sound category (by simp [hr, hs])
  have hsound' : ((empty category).setAll records [s, r]).Sound (Belongs records) :=
    setAll_sound category (by simp [hr, hs])
  obtain ⟨-, hentries⟩ := setAll_pair hr hs hr₁ hr₂ hs₁ hs₂ he hf category
  obtain ⟨-, hentries'⟩ := setAll_pair hs hr hs₁ hs₂ hr₁ hr₂ hf he category
  have hsame : ∀ j₁ j₂, ((empty category).setAll records [r, s]).entriesAt j₁ j₂ =
      ((empty category).setAll records [s, r]).entriesAt j₁ j₂ := by
    intro j₁ j₂
    refine (hsound.ascending j₁ j₂).ext (hsound'.ascending j₁ j₂) fun x => ?_
    rw [hentries, hentries']
    split
    · rw [((entered_single e f r s).2 hmiss).2, ((entered_single f e s r).2 hmiss').2, or_comm]
    · exact Iff.rfl
  refine ⟨fun p => ?_, alike_of_entriesAt hsound hsound' hsame ?_⟩
  · rw [hsound.mem_placements_iff, hsound'.mem_placements_iff, hsame]
  · rw [category_setAll, category_setAll]

end

/-- Two records of one file type and version leave the same number of records in either order unless the
difference of their temperatures is tolerated by the higher one only: then the higher one takes the place
of the lower one, and the lower one not that of the higher. Where both remain, the two maps have the same
placements and answer alike. -/
theorem set_either_order (category : String) {records : RecordRef → Record} {r s : RecordRef}
    (hr : (records r).IsGraded) (hs : (records s).IsGraded)
    (h₁ : (records r).fileType.key? = (records s).fileType.key?)
    (h₂ : (records r).fileVersion.key? = (records s).fileVersion.key?) :
    ∃ e f, (records r).energy? = some e ∧ (records s).energy? = some f ∧
      (RecordMap.temperature ((empty category).setAll records [r, s])).size =
        (if Grid.isMatch e.mev f.mev then 1 else 2) ∧
      (RecordMap.temperature ((empty category).setAll records [s, r])).size =
        (if Grid.isMatch f.mev e.mev then 1 else 2) ∧
      (Grid.isMatch e.mev f.mev ≠ Grid.isMatch f.mev e.mev →
        (Grid.isMatch e.mev f.mev = true ↔ e.value < f.value) ∧
        (3 * 2 ^ (-1024 : ℤ) ≤ min e.value f.value →
          (1 / 10 ^ 12 - 1 / 2 ^ 51) * min e.value f.value < |e.value - f.value| ∧
          |e.value - f.value| ≤ (1 / 10 ^ 12 + 1 / 2 ^ 51) * max e.value f.value)) ∧
      (Grid.isMatch e.mev f.mev = false → Grid.isMatch f.mev e.mev = false →
        (∀ p, p ∈ ((empty category).setAll records [r, s]).placements none ↔
          p ∈ ((empty category).setAll records [s, r]).placements none) ∧
        ((empty category).setAll records [r, s]).Alike ((empty category).setAll records [s, r])) := by
  obtain ⟨t, n, mark, e, mark', ht, hn, he⟩ := hr.fields
  obtain ⟨t', n', mark'', f, mark''', ht', hn', hf⟩ := hs.fields
  have hr₁ : (records r).fileType.key? = some (.text t.text) := by rw [ht]; rfl
  have hr₂ : (records r).fileVersion.key? = some (.number (.int n)) := by rw [hn]; rfl
  have he' := Record.energy?_of_energy he
  have hf' := Record.energy?_of_energy hf
  have hs₁ := h₁ ▸ hr₁
  have hs₂ := h₂ ▸ hr₂
  refine ⟨e, f, he', hf', (pair_spec hr hs hr₁ hr₂ hs₁ hs₂ he' hf' category).1,
    (pair_spec hs hr hs₁ hs₂ hr₁ hr₂ hf' he' category).1, Grid.edge_of_isMatch_ne e f,
    alike_swapped hr hs hr₁ hr₂ hs₁ hs₂ he' hf' category⟩

theorem set_either_order_couple :
    (couple ⟨0⟩).IsGraded ∧ (couple ⟨1⟩).IsGraded ∧
    (couple ⟨0⟩).fileType.key? = (couple ⟨1⟩).fileType.key? ∧
    (couple ⟨0⟩).fileVersion.key? = (couple ⟨1⟩).fileVersion.key? ∧
    (RecordMap.temperature ((empty "nuclear").setAll couple [⟨0⟩, ⟨1⟩])).size =
      (RecordMap.temperature ((empty "nuclear").setAll couple [⟨1⟩, ⟨0⟩])).size ∧
    ((empty "nuclear").setAll couple [⟨0⟩, ⟨1⟩]).Alike
      ((empty "nuclear").setAll couple [⟨1⟩, ⟨0⟩]) := by
  have hgraded : ∀ r, (couple r).IsGraded := fun _ => Record.hydrogen_isGraded 0 _
  obtain ⟨e, f, he, hf, hsize, hsize', -, halike⟩ := set_either_order "nuclear" (r := ⟨0⟩) (s := ⟨1⟩)
    (hgraded ⟨0⟩) (hgraded ⟨1⟩) rfl rfl
  obtain rfl : cold = e := Option.some.inj he
  obtain rfl : warm = f := Option.some.inj hf
  have hapart : Grid.isMatch cold.mev warm.mev = false ∧ Grid.isMatch warm.mev cold.mev = false := by
    decide +kernel
  refine ⟨hgraded _, hgraded _, rfl, rfl, ?_, (halike hapart.1 hapart.2).2⟩
  rw [hsize, hsize', hapart.1, hapart.2]

def lower : Energy := ⟨1.00008890058234, by decide +kernel⟩

def higher : Energy := ⟨1.00008890058334, by decide +kernel⟩

def edge (r : RecordRef) : Record := .hydrogen 0 ([lower].getD r.index higher)

/-- One record is left if the higher energy is set last, and two are if the lower one is. -/
theorem set_either_order_differs :
    (edge ⟨0⟩).IsGraded ∧ (edge ⟨1⟩).IsGraded ∧
    (edge ⟨0⟩).fileType.key? = (edge ⟨1⟩).fileType.key? ∧
    (edge ⟨0⟩).fileVersion.key? = (edge ⟨1⟩).fileVersion.key? ∧
    (RecordMap.temperature ((empty "nuclear").setAll edge [⟨0⟩, ⟨1⟩])).size = 1 ∧
    (RecordMap.temperature ((empty "nuclear").setAll edge [⟨1⟩, ⟨0⟩])).size = 2 := by
  refine ⟨Record.hydrogen_isGraded 0 _, Record.hydrogen_isGraded 0 _, rfl, rfl, ?_, ?_⟩
  all_goals with_unfolding_all rfl

end TemperatureMap

end ScatteringData
