import Mathlib
import ScatteringData.Proofs.TemperatureMap.Keeping

/-!
# Counting the records that a set replaces

A record that is set takes the place of the first entry that its energy matches. Where its own energy was
listed behind that entry, the record there goes as well, so that one set can take two records away.
-/

namespace ScatteringData

/-! ## Entering in a bucket -/

namespace Bucket

variable {es : List (Energy × RecordRef)}

/-- Whether an energy is listed, and a smaller one that it matches before it. -/
def Doubled (es : List Energy) (e : Energy) : Prop :=
  (∃ d ∈ es, d.value = e.value) ∧ ∃ d ∈ es, d.shadows e = true

theorem Ascending.length_insert (h : Ascending es) (e : Energy) (r : RecordRef) :
    (∃ x ∈ es, x.1.value = e.value) ∧ (Bucket.insert e r es).length = es.length ∨
      (∀ x ∈ es, x.1.value ≠ e.value) ∧ (Bucket.insert e r es).length = es.length + 1 := by
  induction es with
  | nil => exact Or.inr ⟨by simp, rfl⟩
  | cons a es ih =>
    obtain ⟨ha, htail⟩ := List.pairwise_cons.mp h
    unfold Bucket.insert
    by_cases hlt : e.mev < a.1.mev
    · rw [if_pos hlt]
      rw [e.lt_iff] at hlt
      refine Or.inr ⟨fun x hx => ?_, rfl⟩
      rcases List.mem_cons.mp hx with rfl | hx
      · exact hlt.ne'
      · exact (hlt.trans (ha x hx)).ne'
    · rw [if_neg hlt]
      by_cases heq : (e.mev == a.1.mev) = true
      · rw [if_pos heq]
        rw [e.beq_iff] at heq
        exact Or.inl ⟨⟨a, List.mem_cons_self .., heq.symm⟩, rfl⟩
      · rw [if_neg heq, List.length_cons, List.length_cons]
        rw [e.beq_iff] at heq
        rcases ih htail with ⟨⟨x, hx, hv⟩, hlength⟩ | ⟨hnone, hlength⟩
        · exact Or.inl ⟨⟨x, List.mem_cons_of_mem _ hx, hv⟩, by rw [hlength]⟩
        · refine Or.inr ⟨fun x hx => ?_, by rw [hlength]⟩
          rcases List.mem_cons.mp hx with rfl | hx
          · exact Ne.symm heq
          · exact hnone x hx

theorem Ascending.exists_eraseP (h : Ascending es) {e : Energy}
    (hhit : ∃ w ∈ es, isHit e.mev w = true) :
    ∃ l₁ y l₂, es = l₁ ++ y :: l₂ ∧ es.eraseP (isHit e.mev) = l₁ ++ l₂ ∧ isHit e.mev y = true ∧
      (∀ x ∈ l₁, ¬ isHit e.mev x = true) ∧ ∀ x ∈ l₂, y.1.value < x.1.value := by
  obtain ⟨w, hw, hit⟩ := hhit
  obtain ⟨y, l₁, l₂, hmiss, hy, rfl, herase⟩ := List.exists_of_eraseP hw hit
  obtain ⟨-, hcons, -⟩ := List.pairwise_append.mp h
  exact ⟨l₁, y, l₂, rfl, herase, hy, hmiss, (List.pairwise_cons.mp hcons).1⟩

/-- An entry of the energy outlives the first match if and only if the match was a smaller one. -/
theorem Ascending.listed_eraseP_iff (h : Ascending es) (e : Energy) :
    (∃ x ∈ es.eraseP (isHit e.mev), x.1.value = e.value) ↔ Doubled (es.map (·.1)) e := by
  unfold Doubled
  simp only [List.mem_map, exists_exists_and_eq_and]
  constructor
  · rintro ⟨x, hx, hv⟩
    have hitx : isHit e.mev x = true := Grid.isMatch_of_value_eq hv
    obtain ⟨l₁, y, l₂, rfl, herase, hit, hmiss, hlater⟩ :=
      h.exists_eraseP ⟨x, List.mem_of_mem_eraseP hx, hitx⟩
    rw [herase] at hx
    rcases List.mem_append.mp hx with hx | hx
    · exact absurd hitx (hmiss x hx)
    · have hlt := hlater x hx
      rw [hv] at hlt
      exact ⟨⟨x, by simp [hx], hv⟩, y, by simp, (y.1.shadows_iff e).mpr ⟨hlt, hit⟩⟩
  · rintro ⟨⟨x, hx, hv⟩, z, hz, hshadow⟩
    obtain ⟨hzx, hitz⟩ := (z.1.shadows_iff e).mp hshadow
    rw [← hv] at hzx
    obtain ⟨l₁, y, l₂, rfl, herase, -, hmiss, hlater⟩ := h.exists_eraseP ⟨z, hz, hitz⟩
    -- the first match is not the entry of the energy, since that stands behind another match
    have hxy : x ≠ y := by
      rintro rfl
      rcases List.mem_append.mp hz with hz | hz
      · exact hmiss z hz hitz
      · rcases List.mem_cons.mp hz with rfl | hz
        · exact lt_irrefl _ hzx
        · exact hzx.asymm (hlater z hz)
    refine ⟨x, ?_, hv⟩
    rw [herase]
    simpa [hxy] using hx

/-- What a set adds to a bucket and takes from it. -/
theorem Ascending.length_entered (h : Ascending es) (e : Energy) (r : RecordRef) :
    (es.any (isHit e.mev) = false →
      (TemperatureMap.entered es e r).length = es.length + 1) ∧
    (es.any (isHit e.mev) = true → ¬ Doubled (es.map (·.1)) e →
      (TemperatureMap.entered es e r).length = es.length) ∧
    (es.any (isHit e.mev) = true → Doubled (es.map (·.1)) e →
      (TemperatureMap.entered es e r).length + 1 = es.length) := by
  have hlisted := h.listed_eraseP_iff e
  have hrest : Ascending (es.eraseP (isHit e.mev)) := List.Pairwise.eraseP _ h
  unfold TemperatureMap.entered
  refine ⟨fun hnone => ?_, fun hany hsingle => ?_, fun hany hdoubled => ?_⟩
  · have hmiss : ∀ x ∈ es, ¬ isHit e.mev x = true := List.any_eq_false.mp hnone
    rw [List.eraseP_of_forall_not hmiss]
    rcases h.length_insert e r with ⟨⟨x, hx, hv⟩, -⟩ | ⟨-, hlength⟩
    · exact absurd (Grid.isMatch_of_value_eq hv) (hmiss x hx)
    · exact hlength
  · obtain ⟨x, hx, hit⟩ := List.any_eq_true.mp hany
    have herase := List.length_eraseP_add_one hx hit
    rcases hrest.length_insert e r with ⟨hx, -⟩ | ⟨-, hlength⟩
    · exact absurd (hlisted.mp hx) hsingle
    · rw [hlength, herase]
  · obtain ⟨x, hx, hit⟩ := List.any_eq_true.mp hany
    have herase := List.length_eraseP_add_one hx hit
    obtain ⟨y, hy, hv⟩ := hlisted.mpr hdoubled
    rcases hrest.length_insert e r with ⟨-, hlength⟩ | ⟨hnone, -⟩
    · rw [hlength, herase]
    · exact absurd hv (hnone y hy)

end Bucket

/-! ## Setting a record -/

namespace TemperatureMap

variable {B : Key → Key → Energy × RecordRef → Prop} {m : TemperatureMap}

theorem Sound.length_records_enter (h : m.Sound B) (l₁ l₂ : Label) (e : Energy) (r : RecordRef) :
    (m.enter l₁ l₂ e r).records.length + (m.entriesAt l₁.key l₂.key).length =
      m.records.length + (entered (m.entriesAt l₁.key l₂.key) e r).length := by
  have hbucket : (((m.shelves.at? l₁.key l₂.key).map Bucket.records).getD []).length =
      (m.entriesAt l₁.key l₂.key).length := by
    rw [entriesAt]
    cases hb : m.shelves.at? l₁.key l₂.key with
    | none => rfl
    | some b =>
      rw [Option.map_some, Option.getD_some, (h.bucket_of_at? hb).graded]
      exact List.length_map ..
  have hlength := Shelves.length_flatMap_putAt Bucket.records m.shelves l₁ l₂
    (.graded (entered (m.entriesAt l₁.key l₂.key) e r))
  rw [hbucket, Bucket.records, List.length_map] at hlength
  exact hlength

theorem Sound.set_enters (h : m.Sound B) (ref : RecordRef) {r : Record} (hr : r.IsGraded) {k₁ k₂ : Key}
    {e : Energy} (h₁ : r.fileType.key? = some k₁) (h₂ : r.fileVersion.key? = some k₂)
    (he : r.energy? = some e) :
    (m.set ref r).2 = ⟨m.setEntries r (.energy e) ((m.entriesAt k₁ k₂).any (Bucket.isHit e.mev)),
        .ok ()⟩ ∧
      (m.set ref r).1.records.length + (m.entriesAt k₁ k₂).length =
        m.records.length + (entered (m.entriesAt k₁ k₂) e ref).length ∧
      ∀ j₁ j₂, (m.set ref r).1.entriesAt j₁ j₂ =
        if k₁ = j₁ ∧ k₂ = j₂ then entered (m.entriesAt j₁ j₂) e ref else m.entriesAt j₁ j₂ := by
  obtain ⟨l₁, l₂, e', hl₁, hl₂, he', heq⟩ := h.set_eq ref hr
  rw [he] at he'
  cases he'
  obtain rfl : l₁.key = k₁ := Option.some.inj (by rw [← l₁.key_shown, hl₁, h₁])
  obtain rfl : l₂.key = k₂ := Option.some.inj (by rw [← l₂.key_shown, hl₂, h₂])
  rw [heq]
  exact ⟨rfl, h.length_records_enter l₁ l₂ e ref, entriesAt_enter m l₁ l₂ e ref⟩

/-- A set that finds no match adds a record, and one that finds a match takes the place of it. It takes
another record away if its own energy is listed behind the one that matches. The journal has a
replacement exactly if there is a match. -/
theorem Built.set_accounts (h : m.Built) (ref : RecordRef) {r : Record} (hr : r.IsGraded) :
    ∃ e es replaced, r.energy? = some e ∧ m.energies r.fileType r.fileVersion = .ok es ∧
      (∀ t : Value, t.toMev = .ok e.mev →
        m.available r.fileType r.fileVersion t = .ok replaced) ∧
      (m.set ref r).2 =
        ⟨(if replaced then [.replacing ⟨m.category, r.fileType, r.fileVersion, some (.energy e)⟩]
          else []) ++ [.stored ⟨m.category, r.fileType, r.fileVersion, some (.energy e)⟩], .ok ()⟩ ∧
      (replaced = false →
        (RecordMap.temperature (m.set ref r).1).size = (RecordMap.temperature m).size + 1) ∧
      (replaced = true → ¬ Bucket.Doubled es e →
        (RecordMap.temperature (m.set ref r).1).size = (RecordMap.temperature m).size) ∧
      (replaced = true → Bucket.Doubled es e →
        (RecordMap.temperature (m.set ref r).1).size + 1 = (RecordMap.temperature m).size) := by
  have hsound := h.sound
  obtain ⟨t, n, mark, e, mark', ht, hn, het⟩ := hr.fields
  have h₁ : r.fileType.key? = some (.text t.text) := by rw [ht]; rfl
  have h₂ : r.fileVersion.key? = some (.number (.int n)) := by rw [hn]; rfl
  have he := Record.energy?_of_energy het
  obtain ⟨houtcome, hsize, -⟩ := hsound.set_enters ref hr h₁ h₂ he
  obtain ⟨hfresh, hsingle, hdoubled⟩ :=
    (hsound.ascending (.text t.text) (.number (.int n))).length_entered e ref
  refine ⟨e, _, _, he, energies_eq hsound h₁ h₂,
    fun q hq => available_eq hsound h₁ h₂ (by simp) (by simp) hq, houtcome, fun hany => ?_,
    fun hany hd => ?_, fun hany hd => ?_⟩
  · have hlength := hfresh hany
    change (m.set ref r).1.records.length = m.records.length + 1
    omega
  · have hlength := hsingle hany hd
    change (m.set ref r).1.records.length = m.records.length
    omega
  · have hlength := hdoubled hany hd
    change (m.set ref r).1.records.length + 1 = m.records.length
    omega

theorem set_accounts_crowded :
    crowded.Built ∧ (crowd ⟨3⟩).IsGraded ∧
    crowded.available (crowd ⟨3⟩).fileType (crowd ⟨3⟩).fileVersion (.energy top .shared) = .ok true ∧
    (RecordMap.temperature (crowded.set ⟨3⟩ (crowd ⟨3⟩)).1).size =
      (RecordMap.temperature crowded).size := by
  obtain ⟨e, es, replaced, he, hes, havailable, -, -, hsingle, -⟩ :=
    Built.set_accounts crowded_built ⟨3⟩ (crowd_isGraded ⟨3⟩)
  cases he
  have hmatch : crowded.available (crowd ⟨3⟩).fileType (crowd ⟨3⟩).fileVersion
      (.energy top .shared) = .ok true := by
    with_unfolding_all rfl
  have hlisted : crowded.energies (crowd ⟨3⟩).fileType (crowd ⟨3⟩).fileVersion =
      .ok [middle, high] := by
    with_unfolding_all rfl
  have hreplaced := (havailable (.energy top .shared) rfl).symm.trans hmatch
  have hes' := hes.symm.trans hlisted
  cases hreplaced
  cases hes'
  have hlow : middle.mev < top.mev ∧ high.mev < top.mev := by decide +kernel
  have hunlisted : ¬ ∃ d ∈ [middle, high], d.value = top.value := by
    simp [((middle.lt_iff top).mp hlow.1).ne, ((high.lt_iff top).mp hlow.2).ne]
  exact ⟨crowded_built, crowd_isGraded ⟨3⟩, hmatch, hsingle rfl fun hdoubled => hunlisted hdoubled.1⟩

/-- The record of a listed energy is set again, and the map has one record less. -/
theorem set_shrinks :
    crowded.Built ∧ (crowd ⟨1⟩).IsGraded ∧ (crowd ⟨1⟩).energy? = some high ∧
    crowded.available (crowd ⟨1⟩).fileType (crowd ⟨1⟩).fileVersion (.energy high .shared) =
      .ok true ∧
    (RecordMap.temperature crowded).size = 2 ∧
    (RecordMap.temperature (crowded.set ⟨1⟩ (crowd ⟨1⟩)).1).size = 1 := by
  refine ⟨crowded_built, crowd_isGraded ⟨1⟩, rfl, ?_, ?_, ?_⟩
  all_goals with_unfolding_all rfl

end TemperatureMap

end ScatteringData
