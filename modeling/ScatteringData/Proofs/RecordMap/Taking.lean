import Mathlib
import ScatteringData.Proofs.Grid.Nearest
import ScatteringData.Proofs.RecordMap.Placements
import ScatteringData.Proofs.TemperatureMap.Query
import ScatteringData.Proofs.VersionedMap.LastWrite

/-!
# Taking a record that was built

A map in which no bucket is a text takes every record that was built, and whatever it reports can be
written. Afterwards the keys of the record lead to a record, and where there are temperatures to one
that stands under the temperature of the record.
-/

namespace ScatteringData

/-! ## Reports that can be written -/

theorem Entry.firstUnwritable?_eq_none {es : List Entry} (h : ∀ e ∈ es, ∃ t, e.text = .ok t) :
    firstUnwritable? es = none := by
  induction es with
  | nil => rfl
  | cons e es ih =>
    obtain ⟨t, ht⟩ := h e (List.mem_cons_self ..)
    have hrest := ih fun d hd => h d (List.mem_cons_of_mem _ hd)
    simp only [firstUnwritable?, ht, hrest, Option.map_none]

theorem Slot.writable {s : Slot} {n : Int} {mark : Mark} (hversion : s.version = .int n mark)
    (hgrade : ∀ g, s.grade = some g → ∃ e, g = .energy e) (replaced : Bool) :
    Entry.firstUnwritable? ((if replaced then [.replacing s] else []) ++ [.stored s]) = none := by
  obtain ⟨t, ht⟩ : ∃ t, s.text = .ok t := by
    unfold Slot.text
    rw [hversion]
    cases hg : s.grade with
    | none => exact ⟨_, rfl⟩
    | some g =>
      obtain ⟨e, rfl⟩ := hgrade g hg
      exact ⟨_, rfl⟩
  apply Entry.firstUnwritable?_eq_none
  intro e he
  have hcases : e = .replacing s ∨ e = .stored s := by
    cases replaced with
    | false => exact Or.inr (List.mem_singleton.mp he)
    | true => simpa using he
  rcases hcases with rfl | rfl
  · refine ⟨Level.warning.text ++ " " ++ ("Replacing " ++ t), ?_⟩
    simp only [Entry.text, Entry.message, ht]
    rfl
  · refine ⟨Level.debug.text ++ " " ++ ("Set " ++ t), ?_⟩
    simp only [Entry.text, Entry.message, ht]
    rfl

/-! ## Texts as names -/

theorem Value.exists_key_of_chars? {v : Value} (h : v.chars?.isSome) : ∃ k, v.key? = some k := by
  cases v with
  | text n mark => exact ⟨_, rfl⟩
  | fileType t => exact ⟨_, rfl⟩
  | _ => cases h

theorem NamedMap.exists_inner (m : NamedMap) {l : Label} (h : l.shown.chars?.isSome) :
    ∃ x, m.inner l = .ok x := by
  obtain ⟨s, hs⟩ := Option.isSome_iff_exists.mp h
  unfold NamedMap.inner
  split
  · exact ⟨_, rfl⟩
  · exact ⟨_, by rw [NamedMap.subcategory, Value.written_of_chars? hs]; rfl⟩

/-! ## Entries with the energy of a record -/

namespace Bucket

theorem exists_resolved {es : List (Energy × RecordRef)} {d : Energy × RecordRef} (hd : d ∈ es)
    {e : Energy} (hv : d.1.value = e.value) :
    ∃ x ∈ es, (graded es).resolve? e.mev false = .ok (some x) ∧ x.1.value = e.value := by
  obtain ⟨lower, x, upper, rfl, hfound, hbefore, hafter⟩ :=
    exists_first_least (List.ne_nil_of_mem hd) e.admissible
  have hle : gap e.mev x ≤ gap e.mev d := by
    rcases List.mem_append.mp hd with hd | hd
    · exact (hbefore d hd).le
    · rcases List.mem_cons.mp hd with rfl | hd
      · exact le_refl _
      · exact hafter d hd
  refine ⟨x, by simp, hfound, ?_⟩
  have hapart := Grid.apart_le_of_distance_le x.1.admissible d.1.admissible e.admissible hle
  have hzero : Grid.apart d.1.mev e.mev = 0 := abs_eq_zero.mpr (sub_eq_zero.mpr hv)
  rw [hzero, mul_zero] at hapart
  exact sub_eq_zero.mp (abs_nonpos_iff.mp hapart)

end Bucket

/-! ## Maps -/

def Record.ownKeys (r : Record) : List Value :=
  let temperature := r.evaluationTemperature.getD .null
  match r.category.shape with
  | .versioned => [r.fileType, r.fileVersion]
  | .temperature => [r.fileType, r.fileVersion, temperature, .bool false]
  | .named => [r.name.getD .null, r.fileType, r.fileVersion, temperature, .bool false]

section
variable {r : Record} {c : Category} (hr : r.BuiltIn c) (ref : RecordRef)
include hr

theorem VersionedMap.takes (m : VersionedMap) :
    (m.set ref r).2.result = .ok () ∧ Entry.firstUnwritable? (m.set ref r).2.entries = none ∧
      ∃ p ∈ (m.set ref r).1.placements, p.Fits True .versioned r ∧ p.record = ref ∧
        (m.set ref r).1.get r.fileType r.fileVersion = .ok ref := by
  obtain ⟨l₁, l₂, -, -, hplace, heq⟩ := m.set_eq ref hr
  obtain ⟨h₁, h₂⟩ := (Record.place?_eq_some_iff _ _ _).mp hplace
  obtain ⟨n, mark, -, hn⟩ := hr.normal.fileVersion
  have hat := Shelves.at?_putAt m.shelves l₁ l₂ ref l₁.key l₂.key
  rw [if_pos ⟨rfl, rfl⟩] at hat
  rw [heq]
  refine ⟨rfl, Slot.writable hn (fun g hg => by cases hg) _, ⟨none, l₁.key, l₂.key, none, ref⟩, ?_, ?_,
    rfl, ?_⟩
  · exact List.mem_map_of_mem (Shelves.mem_spots_of_at? hat)
  · exact ⟨h₁, h₂, fun hshape => absurd rfl hshape, fun hshape => by cases hshape⟩
  · unfold VersionedMap.get
    rw [Shelves.get_eq _ _ h₁ h₂]
    dsimp only
    rw [hat]

omit hr in
theorem TemperatureMap.exists_graded {m : TemperatureMap} {name : Option Key}
    (hm : ∀ p ∈ m.placements name, p.energy ≠ none) (k₁ k₂ : Key) :
    ∃ es, (m.shelves.at? k₁ k₂).getD .empty = .graded es := by
  cases hat : m.shelves.at? k₁ k₂ with
  | none => exact ⟨[], rfl⟩
  | some b =>
    cases b with
    | graded es => exact ⟨es, rfl⟩
    | lone text q =>
      refine absurd rfl (hm ⟨name, k₁, k₂, none, q⟩ ?_)
      exact List.mem_flatMap.mpr ⟨_, Shelves.mem_spots_of_at? hat, List.mem_singleton_self _⟩

theorem TemperatureMap.takes {m : TemperatureMap} {name : Option Key} (hc : c.shape ≠ .versioned)
    (hm : ∀ p ∈ m.placements name, p.energy ≠ none) :
    (m.set ref r).2.result = .ok () ∧ Entry.firstUnwritable? (m.set ref r).2.entries = none ∧
      ∃ p ∈ (m.set ref r).1.placements name, p.name = name ∧ p.Fits True .temperature r ∧
        ((m.set ref r).1.get r.fileType r.fileVersion (r.evaluationTemperature.getD .null)
          false).result = .ok p.record := by
  obtain ⟨t, n, mark, e, mark', ht, hn, he⟩ := Record.IsGraded.fields ⟨c, hc, hr⟩
  obtain ⟨l₁, hl₁⟩ : ∃ l : Label, l.shown = r.fileType := ⟨⟨_, .text t.text, rfl⟩, ht.symm⟩
  obtain ⟨l₂, hl₂⟩ : ∃ l : Label, l.shown = r.fileVersion :=
    ⟨⟨_, .number (.int n), rfl⟩, hn.symm⟩
  have h₁ : r.fileType.key? = some l₁.key := hl₁ ▸ l₁.key_shown
  have h₂ : r.fileVersion.key? = some l₂.key := hl₂ ▸ l₂.key_shown
  obtain ⟨es, hes⟩ := exists_graded hm l₁.key l₂.key
  -- the search for the energy that was entered ends at an entry of just that energy
  obtain ⟨d, hd, hmem⟩ := Bucket.exists_value_mem_insert e ref (es.eraseP (Bucket.isHit e.mev))
  obtain ⟨x, hx, hfound, hvalue⟩ := Bucket.exists_resolved hmem hd
  have hat := Shelves.at?_putAt m.shelves l₁ l₂ (.graded (entered es e ref)) l₁.key l₂.key
  rw [if_pos ⟨rfl, rfl⟩] at hat
  rw [set_graded hl₁ hl₂ he hes ref]
  refine ⟨rfl, Slot.writable hn (fun g hg => ⟨e, (Option.some.inj hg).symm⟩) _,
    ⟨name, l₁.key, l₂.key, some x.1, x.2⟩, ?_, rfl, ?_, ?_⟩
  · refine List.mem_flatMap.mpr ⟨_, Shelves.mem_spots_of_at? hat, ?_⟩
    exact List.mem_map_of_mem (List.mem_map_of_mem hx)
  · exact ⟨h₁, h₂, fun _ => ⟨x.1, e, rfl, Record.energy?_of_energy he, hvalue⟩,
      fun hshape => by cases hshape⟩
  · rw [he]
    refine get_of_at? h₁ h₂ hat ?_ rfl hfound
    exact List.isEmpty_eq_false_iff.mpr (List.ne_nil_of_mem hx)

theorem NamedMap.takes {m : NamedMap} (hc : c.shape ≠ .versioned) {v : Value}
    (hname : r.name = some v) (htext : v.chars?.isSome) (hm : ∀ p ∈ m.placements, p.energy ≠ none) :
    (m.set ref r).2.result = .ok () ∧ Entry.firstUnwritable? (m.set ref r).2.entries = none ∧
      ∃ p ∈ (m.set ref r).1.placements, p.Fits True .named r ∧
        ((m.set ref r).1.get v r.fileType r.fileVersion (r.evaluationTemperature.getD .null)
          false).result = .ok p.record := by
  obtain ⟨k, hk⟩ := Value.exists_key_of_chars? htext
  obtain ⟨l, hl, rfl⟩ : ∃ l : Label, Label.ofValue v = .ok l ∧ l.key = k :=
    ⟨⟨_, k, hk⟩, Label.ofValue_eq hk, rfl⟩
  obtain ⟨inner, hx⟩ := m.exists_inner (l := l) (by rwa [Label.shown_of_ofValue hl])
  have hinner : ∀ p ∈ inner.placements (some l.key), p.energy ≠ none := fun p hp =>
    hm p (mem_placements_inner hx hp)
  obtain ⟨hok, hwritable, p, hp, hpname, hfits, hget⟩ := TemperatureMap.takes hr ref hc hinner
  have heq : m.set ref r =
      ({ m with maps := m.maps.put l (inner.set ref r).1 }, (inner.set ref r).2) := by
    unfold NamedMap.set
    simp only [hname, hl, hx]
  have hput : (m.maps.put l (inner.set ref r).1).get? l.key = some (inner.set ref r).1 := by
    rw [Table.get?_put, if_pos rfl]
  rw [heq]
  refine ⟨hok, hwritable, p, ?_, ?_, ?_⟩
  · obtain ⟨l', hl', hkey⟩ := Table.mem_of_get? hput
    exact List.mem_flatMap.mpr ⟨_, hl', hkey ▸ hp⟩
  · exact ⟨hfits.fileType, hfits.version, fun _ => hfits.energy (by decide), fun _ =>
      ⟨l.key, v, hpname, hname, fun _ => hk⟩⟩
  · unfold NamedMap.get NamedMap.under
    rw [Table.find_eq _ hk]
    dsimp only
    rw [hput]
    exact hget

theorem RecordMap.takes {m : RecordMap} (hshape : m.shape = c.shape)
    (hname : ∀ v, r.name = some v → v.chars?.isSome)
    (hm : c.shape ≠ .versioned → ∀ p ∈ m.placements, p.energy ≠ none) :
    (m.set ref r).2.result = .ok () ∧ Entry.firstUnwritable? (m.set ref r).2.entries = none ∧
      ∃ p ∈ (m.set ref r).1.placements, p.Fits True c.shape r ∧
        (c.shape = .versioned → p.record = ref) ∧
        ((m.set ref r).1.ask .get r.ownKeys).result = .ok (.record p.record) := by
  unfold Record.ownKeys
  rw [hr.normal.category]
  cases m with
  | versioned m =>
    have hc : c.shape = .versioned := hshape.symm
    rw [hc]
    obtain ⟨hok, hwritable, p, hp, hfits, href, hget⟩ := m.takes hr ref
    refine ⟨hok, hwritable, p, hp, hfits, fun _ => href, ?_⟩
    change (answered Answer.record ((m.set ref r).1.get r.fileType r.fileVersion)).result = _
    rw [hget, href]
    rfl
  | temperature m =>
    have hc : c.shape = .temperature := hshape.symm
    rw [hc] at hm ⊢
    obtain ⟨hok, hwritable, p, hp, -, hfits, hget⟩ :=
      m.takes hr ref (by rw [hc]; decide) (hm (by decide))
    refine ⟨hok, hwritable, p, hp, hfits, (fun hversioned => by cases hversioned), ?_⟩
    exact congrArg (Except.map Answer.record) hget
  | named m =>
    have hc : c.shape = .named := hshape.symm
    rw [hc] at hm ⊢
    obtain ⟨v, hv⟩ := (hr.complete.named hc).1
    obtain ⟨hok, hwritable, p, hp, hfits, hget⟩ :=
      m.takes hr ref (by rw [hc]; decide) hv (hname v hv) (hm (by decide))
    refine ⟨hok, hwritable, p, hp, hfits, (fun hversioned => by cases hversioned), ?_⟩
    rw [hv]
    exact congrArg (Except.map Answer.record) hget

end

end ScatteringData
