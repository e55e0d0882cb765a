import Mathlib
import ScatteringData.Proofs.RecordMap.Agreement
import ScatteringData.Proofs.RecordMap.Placements
import ScatteringData.Proofs.TemperatureMap.Exact

/-!
# What setting a record leaves in place

A record that is set can take the place of records that its temperature matches, and of no other. All
others keep their keys, and the energies of every bucket stay in order.
-/

namespace ScatteringData

namespace TemperatureMap

variable {B : Key → Key → Energy × RecordRef → Prop} {m : TemperatureMap} {ref : RecordRef} {r : Record}

/-- The placements in a sound map are its entries under their keys. -/
theorem Sound.mem_placements_iff (h : m.Sound B) {name : Option Key} {p : Placement} :
    p ∈ m.placements name ↔
      p.name = name ∧ ∃ d, p.energy = some d ∧ (d, p.record) ∈ m.entriesAt p.fileType p.version := by
  rw [mem_placements]
  constructor
  · rintro ⟨e, he, d, hd, x, hx, rfl⟩
    have hat := h.filed.at?_of_mem he hd
    rw [(h.bucket_of_at? hat).graded] at hx
    obtain ⟨y, hy, rfl⟩ := List.mem_map.mp hx
    refine ⟨rfl, y.1, rfl, ?_⟩
    rw [entriesAt, hat]
    exact hy
  · obtain ⟨_, k₁, k₂, _, q⟩ := p
    rintro ⟨rfl, d, rfl, hd⟩
    have hat := h.at?_eq k₁ k₂
    rw [if_neg (List.ne_nil_of_mem hd)] at hat
    obtain ⟨shelf, hs, hb⟩ := Option.bind_eq_some_iff.mp hat
    obtain ⟨l₁, hl₁, rfl⟩ := Table.mem_of_get? hs
    obtain ⟨l₂, hl₂, rfl⟩ := Table.mem_of_get? hb
    exact ⟨_, hl₁, _, hl₂, _, List.mem_map_of_mem hd, rfl⟩

/-! ## Entering in a bucket -/

section
variable {es : List (Energy × RecordRef)} (h : Bucket.Ascending es) (e : Energy) (ref : RecordRef)
include h

theorem mem_entered_of_miss {x : Energy × RecordRef} (hx : x ∈ es)
    (hmiss : Bucket.isHit e.mev x = false) : x ∈ entered es e ref := by
  obtain ⟨d, -, -, hmem⟩ := Bucket.exists_mem_insert (List.Pairwise.eraseP (Bucket.isHit e.mev) h) e ref
  refine (hmem x).mpr (Or.inr ⟨?_, fun hv => ?_⟩)
  · exact (List.mem_eraseP_of_neg (by rw [hmiss]; exact Bool.false_ne_true)).mpr hx
  · rw [show Bucket.isHit e.mev x = true from Grid.isMatch_of_value_eq hv] at hmiss
    cases hmiss

theorem exists_mem_entered : ∃ d : Energy, d.value = e.value ∧ (d, ref) ∈ entered es e ref ∧
    ∀ x ∈ entered es e ref, x = (d, ref) ∨ x ∈ es := by
  obtain ⟨d, hd, -, hmem⟩ := Bucket.exists_mem_insert (List.Pairwise.eraseP (Bucket.isHit e.mev) h) e ref
  refine ⟨d, hd, (hmem _).mpr (Or.inl rfl), fun x hx => ?_⟩
  exact ((hmem x).mp hx).imp_right fun hx => List.mem_of_mem_eraseP hx.1

end

/-! ## Setting a record -/

/-- A map that takes a record under two keys and an energy keeps what is under other keys or does not
match, has the record, and has nothing else that is new. -/
structure Keeps (m m' : TemperatureMap) (k₁ k₂ : Key) (e : Energy) (ref : RecordRef) : Prop where
  elsewhere : ∀ p ∈ m.placements none, (p.fileType, p.version) ≠ (k₁, k₂) → p ∈ m'.placements none
  unmatched : ∀ p ∈ m.placements none, ∀ d, p.energy = some d → Grid.isMatch d.mev e.mev = false →
    p ∈ m'.placements none
  stored : ∃ d, d.value = e.value ∧ ⟨none, k₁, k₂, some d, ref⟩ ∈ m'.placements none ∧
    ∀ p ∈ m'.placements none, p = ⟨none, k₁, k₂, some d, ref⟩ ∨ p ∈ m.placements none

theorem Sound.enter_keeps (h : m.Sound B) {l₁ l₂ : Label} {e : Energy}
    (hnew : (m.enter l₁ l₂ e ref).Sound B) : Keeps m (m.enter l₁ l₂ e ref) l₁.key l₂.key e ref := by
  have hasc := h.ascending l₁.key l₂.key
  refine ⟨?_, ?_, ?_⟩
  · intro p hp hne
    obtain ⟨hname, d, hd, hmem⟩ := h.mem_placements_iff.mp hp
    refine hnew.mem_placements_iff.mpr ⟨hname, d, hd, ?_⟩
    rw [entriesAt_enter, if_neg fun hk => hne (by rw [hk.1, hk.2])]
    exact hmem
  · intro p hp d hd hmiss
    obtain ⟨hname, d', hd', hmem⟩ := h.mem_placements_iff.mp hp
    rw [hd] at hd'
    cases hd'
    refine hnew.mem_placements_iff.mpr ⟨hname, d, hd, ?_⟩
    rw [entriesAt_enter]
    split
    · exact mem_entered_of_miss (h.ascending _ _) e ref hmem hmiss
    · exact hmem
  · obtain ⟨d, hv, hmem, hfrom⟩ := exists_mem_entered hasc e ref
    refine ⟨d, hv, hnew.mem_placements_iff.mpr ⟨rfl, d, rfl, ?_⟩, fun p hp => ?_⟩
    · rw [entriesAt_enter, if_pos ⟨rfl, rfl⟩]
      exact hmem
    · obtain ⟨hname, d', hd', hmem'⟩ := hnew.mem_placements_iff.mp hp
      rw [entriesAt_enter] at hmem'
      split at hmem'
      · rename_i hk
        rw [← hk.1, ← hk.2] at hmem'
        rcases hfrom _ hmem' with heq | hold
        · left
          obtain ⟨_, _, _, _, _⟩ := p
          simp only at hname hd' hk heq
          obtain ⟨rfl, rfl⟩ := hk
          cases heq
          rw [hname, hd']
        · right
          refine h.mem_placements_iff.mpr ⟨hname, d', hd', ?_⟩
          rw [← hk.1, ← hk.2]
          exact hold
      · exact Or.inr (h.mem_placements_iff.mpr ⟨hname, d', hd', hmem'⟩)

theorem Sound.exists_energies (h : m.Sound B) {fileType version : Value} {k₁ k₂ : Key}
    (h₁ : fileType.key? = some k₁) (h₂ : version.key? = some k₂) :
    ∃ es, m.energies fileType version = .ok es ∧ (es.Pairwise fun d e => d.value < e.value) ∧
      ∀ d, d ∈ es ↔ ∃ q, ⟨none, k₁, k₂, some d, q⟩ ∈ m.placements none := by
  refine ⟨_, energies_eq h h₁ h₂, List.pairwise_map.mpr (h.ascending k₁ k₂), fun d => ?_⟩
  rw [List.mem_map]
  constructor
  · rintro ⟨x, hx, rfl⟩
    exact ⟨x.2, h.mem_placements_iff.mpr ⟨rfl, x.1, rfl, hx⟩⟩
  · rintro ⟨q, hq⟩
    obtain ⟨-, d', hd, hx⟩ := h.mem_placements_iff.mp hq
    cases hd
    exact ⟨_, hx, rfl⟩

/-- Setting a record in a map that was built succeeds and loses nothing outside the tolerance, and the
energies under all keys are still listed, finite and not negative, in strictly ascending order. -/
theorem Built.set_keeps (h : m.Built) (ref : RecordRef) {r : Record} (hr : r.IsGraded) :
    ∃ k₁ k₂ e, r.fileType.key? = some k₁ ∧ r.fileVersion.key? = some k₂ ∧ r.energy? = some e ∧
      (m.set ref r).2.result = .ok () ∧ Keeps m (m.set ref r).1 k₁ k₂ e ref ∧
      ∀ fileType version j₁ j₂, fileType.key? = some j₁ → version.key? = some j₂ →
        ∃ es, (m.set ref r).1.energies fileType version = .ok es ∧
          (es.Pairwise fun d e => d.value < e.value) ∧ (∀ d ∈ es, isMagnitude d.mev = true) ∧
          ∀ d, d ∈ es ↔ ∃ q, ⟨none, j₁, j₂, some d, q⟩ ∈ (m.set ref r).1.placements none := by
  have hsound := h.sound
  have hnew := (h.set ref hr).sound
  obtain ⟨l₁, l₂, e, h₁, h₂, he, heq⟩ := hsound.set_eq ref hr
  refine ⟨l₁.key, l₂.key, e, h₁ ▸ l₁.key_shown, h₂ ▸ l₂.key_shown, he, ?_, ?_, ?_⟩
  · rw [heq]
  · rw [heq] at hnew ⊢
    exact hsound.enter_keeps hnew
  · intro fileType version j₁ j₂ hj₁ hj₂
    obtain ⟨es, hes, hasc, hmem⟩ := hnew.exists_energies hj₁ hj₂
    exact ⟨es, hes, hasc, fun d _ => d.admissible, hmem⟩

theorem crowded_built : crowded.Built :=
  .set (.set (.set (.empty _) ⟨0⟩ (crowd_isGraded ⟨0⟩)) ⟨1⟩ (crowd_isGraded ⟨1⟩)) ⟨2⟩
    (crowd_isGraded ⟨2⟩)

theorem set_keeps_crowded :
    crowded.Built ∧ (crowd ⟨3⟩).IsGraded ∧ (crowded.set ⟨3⟩ (crowd ⟨3⟩)).2.result = .ok () ∧
    ∃ k₁ k₂, Keeps crowded (crowded.set ⟨3⟩ (crowd ⟨3⟩)).1 k₁ k₂ top ⟨3⟩ := by
  obtain ⟨k₁, k₂, e, -, -, he, hresult, hkeeps, -⟩ :=
    Built.set_keeps crowded_built ⟨3⟩ (crowd_isGraded ⟨3⟩)
  cases he
  exact ⟨crowded_built, crowd_isGraded ⟨3⟩, hresult, k₁, k₂, hkeeps⟩

end TemperatureMap

end ScatteringData
