import Mathlib
import ScatteringData.Proofs.Double.Value
import ScatteringData.RecordMap.Temperature

/-!
# Buckets in ascending order

The entries of a bucket stand in strictly ascending order of their energies, so a bucket is
determined by its members. Inserting keeps the order, and searching by places is searching by
members.
-/

namespace ScatteringData

def Energy.value (e : Energy) : ℚ := Double.value e.mev

namespace Energy

theorem isFinite (e : Energy) : e.mev.isFinite = true :=
  Double.isFinite_of_isMagnitude e.admissible

theorem lt_iff (e f : Energy) : e.mev < f.mev ↔ e.value < f.value :=
  Double.lt_iff_value e.isFinite f.isFinite

theorem beq_iff (e f : Energy) : (e.mev == f.mev) = true ↔ e.value = f.value :=
  Double.beq_iff_value e.isFinite f.isFinite

end Energy

theorem Grid.isMatch_of_value_eq {e f : Energy} (h : e.value = f.value) :
    Grid.isMatch e.mev f.mev = true := by
  rw [Grid.isMatch, (e.beq_iff f).mpr h, Bool.or_true]

namespace Bucket

def isHit (query : Float) (x : Energy × RecordRef) : Bool := Grid.isMatch x.1.mev query

def Ascending (es : List (Energy × RecordRef)) : Prop :=
  es.Pairwise fun x y => x.1.value < y.1.value

variable {es fs : List (Energy × RecordRef)}

/-! ## Members -/

theorem Ascending.eq_of_value_eq (h : Ascending es) {x y : Energy × RecordRef} (hx : x ∈ es)
    (hy : y ∈ es) (hv : x.1.value = y.1.value) : x = y := by
  induction es with
  | nil => cases hx
  | cons a es ih =>
    obtain ⟨ha, htail⟩ := List.pairwise_cons.mp h
    rcases List.mem_cons.mp hx with rfl | hx'
    · rcases List.mem_cons.mp hy with rfl | hy'
      · rfl
      · exact absurd hv (ha y hy').ne
    · rcases List.mem_cons.mp hy with rfl | hy'
      · exact absurd hv (ha x hx').ne'
      · exact ih htail hx' hy'

theorem Ascending.nodup (h : Ascending es) : es.Nodup :=
  List.Pairwise.imp (fun hlt heq => absurd (heq ▸ hlt) (lt_irrefl _)) h

theorem Ascending.ext (he : Ascending es) (hf : Ascending fs) (h : ∀ x, x ∈ es ↔ x ∈ fs) :
    es = fs := by
  have hperm : es.Perm fs := (List.perm_ext_iff_of_nodup he.nodup hf.nodup).mpr h
  exact hperm.eq_of_pairwise (fun x y _ _ hxy hyx => absurd hxy hyx.asymm) he hf

/-! ## Inserting -/

theorem exists_value_mem_insert (e : Energy) (r : RecordRef) (es : List (Energy × RecordRef)) :
    ∃ d : Energy, d.value = e.value ∧ (d, r) ∈ insert e r es := by
  induction es with
  | nil => exact ⟨e, rfl, List.mem_singleton_self _⟩
  | cons x es ih =>
    unfold insert
    split
    · exact ⟨e, rfl, List.mem_cons_self ..⟩
    · split
      · rename_i heq
        exact ⟨x.1, ((e.beq_iff x.1).mp heq).symm, List.mem_cons_self ..⟩
      · obtain ⟨d, hd, hmem⟩ := ih
        exact ⟨d, hd, List.mem_cons_of_mem _ hmem⟩

theorem exists_mem_insert (h : Ascending es) (e : Energy) (r : RecordRef) :
    ∃ d : Energy, d.value = e.value ∧
      (d = e ∨ ∃ q, (d, q) ∈ es) ∧
      ∀ x, x ∈ insert e r es ↔ x = (d, r) ∨ x ∈ es ∧ x.1.value ≠ e.value := by
  induction es with
  | nil => exact ⟨e, rfl, Or.inl rfl, fun x => by simp [insert]⟩
  | cons a es ih =>
    obtain ⟨ha, htail⟩ := List.pairwise_cons.mp h
    unfold insert
    by_cases hlt : e.mev < a.1.mev
    · rw [if_pos hlt]
      rw [e.lt_iff] at hlt
      refine ⟨e, rfl, Or.inl rfl, fun x => ?_⟩
      rw [List.mem_cons]
      have hne : x ∈ a :: es → x.1.value ≠ e.value := by
        intro hx
        rcases List.mem_cons.mp hx with rfl | hx
        · exact hlt.ne'
        · exact (hlt.trans (ha x hx)).ne'
      tauto
    · rw [if_neg hlt]
      rw [e.lt_iff] at hlt
      by_cases heq : (e.mev == a.1.mev) = true
      · rw [if_pos heq]
        rw [e.beq_iff] at heq
        refine ⟨a.1, heq.symm, Or.inr ⟨a.2, List.mem_cons_self ..⟩, fun x => ?_⟩
        rw [List.mem_cons, List.mem_cons]
        have hne : x ∈ es → x.1.value ≠ e.value := fun hx => heq ▸ (ha x hx).ne'
        constructor
        · rintro (hx | hx)
          · exact Or.inl hx
          · exact Or.inr ⟨Or.inr hx, hne hx⟩
        · rintro (hx | ⟨rfl | hx, hx'⟩)
          · exact Or.inl hx
          · exact absurd heq.symm hx'
          · exact Or.inr hx
      · rw [if_neg heq]
        rw [e.beq_iff] at heq
        obtain ⟨d, hd, hfrom, hmem⟩ := ih htail
        refine ⟨d, hd, hfrom.imp_right ?_, fun x => ?_⟩
        · rintro ⟨q, hq⟩
          exact ⟨q, List.mem_cons_of_mem _ hq⟩
        · rw [List.mem_cons, hmem, List.mem_cons]
          constructor
          · rintro (rfl | hx | ⟨hx, hne⟩)
            · exact Or.inr ⟨Or.inl rfl, Ne.symm heq⟩
            · exact Or.inl hx
            · exact Or.inr ⟨Or.inr hx, hne⟩
          · rintro (hx | ⟨rfl | hx, hne⟩)
            · exact Or.inr (Or.inl hx)
            · exact Or.inl rfl
            · exact Or.inr (Or.inr ⟨hx, hne⟩)

theorem Ascending.insert (h : Ascending es) (e : Energy) (r : RecordRef) :
    Ascending (insert e r es) := by
  induction es with
  | nil => exact List.pairwise_singleton ..
  | cons a es ih =>
    obtain ⟨ha, htail⟩ := List.pairwise_cons.mp h
    unfold Bucket.insert
    by_cases hlt : e.mev < a.1.mev
    · rw [if_pos hlt]
      rw [e.lt_iff] at hlt
      refine List.pairwise_cons.mpr ⟨fun x hx => ?_, h⟩
      rcases List.mem_cons.mp hx with rfl | hx
      · exact hlt
      · exact hlt.trans (ha x hx)
    · rw [if_neg hlt]
      rw [e.lt_iff] at hlt
      by_cases heq : (e.mev == a.1.mev) = true
      · rw [if_pos heq]
        exact List.pairwise_cons.mpr ⟨ha, htail⟩
      · rw [if_neg heq]
        rw [e.beq_iff] at heq
        refine List.pairwise_cons.mpr ⟨fun x hx => ?_, ih htail⟩
        obtain ⟨d, hd, -, hmem⟩ := exists_mem_insert htail e r
        rcases (hmem x).mp hx with rfl | hx
        · rw [hd]
          exact lt_of_le_of_ne (not_lt.mp hlt) (Ne.symm heq)
        · exact ha x hx.1

/-! ## Searching -/

theorem firstMatch?_grid (es : List (Energy × RecordRef)) (query : Float) :
    Grid.firstMatch? (grid es) query = es.findIdx? (isHit query) := by
  unfold Grid.firstMatch? grid
  rw [List.findIdx?_map]
  rfl

theorem resolve?_exact (es : List (Energy × RecordRef)) (query : Float) :
    (graded es).resolve? query true = .ok (es.find? (isHit query)) := by
  unfold resolve?
  simp only [Grid.find?, if_true, firstMatch?_grid]
  rw [List.find?_eq_bind_findIdx?_getElem?]

theorem hasMatch_graded (es : List (Energy × RecordRef)) (query : Float) :
    (graded es).hasMatch query = .ok (es.any (isHit query)) := by
  have hgrid : (es.map (·.1)).map (·.mev) = grid es := by
    rw [List.map_map]
    rfl
  change Except.ok (Grid.firstMatch? ((es.map (·.1)).map (·.mev)) query).isSome = _
  rw [hgrid, firstMatch?_grid, List.findIdx?_isSome]

theorem evict_eq (es : List (Energy × RecordRef)) (e : Energy) :
    evict es e = (es.eraseP (isHit e.mev), es.any (isHit e.mev)) := by
  unfold evict
  rw [firstMatch?_grid, List.eraseP_eq_eraseIdx, ← List.findIdx?_isSome]
  cases es.findIdx? (isHit e.mev) with
  | none => rfl
  | some i => rfl

theorem set_energy (es : List (Energy × RecordRef)) (e : Energy) (r : RecordRef) :
    (graded es).set (.energy e) r =
      .ok (graded (insert e r (es.eraseP (isHit e.mev))), es.any (isHit e.mev)) := by
  simp only [set, evict_eq]

/-- In ascending entries the first hit is the one with the least energy. -/
theorem Ascending.find?_eq_some_iff (h : Ascending es) (p : Energy × RecordRef → Bool)
    (x : Energy × RecordRef) :
    es.find? p = some x ↔
      x ∈ es ∧ p x = true ∧ ∀ y ∈ es, y.1.value < x.1.value → p y = false := by
  induction es with
  | nil => simp
  | cons a es ih =>
    obtain ⟨ha, htail⟩ := List.pairwise_cons.mp h
    rw [List.find?_cons]
    cases hp : p a with
    | true =>
      simp only [Option.some.injEq]
      constructor
      · rintro rfl
        refine ⟨List.mem_cons_self .., hp, fun y hy hlt => ?_⟩
        rcases List.mem_cons.mp hy with rfl | hy
        · exact absurd hlt (lt_irrefl _)
        · exact absurd (ha y hy) hlt.asymm
      · rintro ⟨hx, -, hfirst⟩
        rcases List.mem_cons.mp hx with rfl | hx
        · rfl
        · have := hfirst a (List.mem_cons_self ..) (ha x hx)
          rw [hp] at this
          cases this
    | false =>
      rw [ih htail]
      constructor
      · rintro ⟨hx, hpx, hfirst⟩
        refine ⟨List.mem_cons_of_mem _ hx, hpx, fun y hy hlt => ?_⟩
        rcases List.mem_cons.mp hy with rfl | hy
        · exact hp
        · exact hfirst y hy hlt
      · rintro ⟨hx, hpx, hfirst⟩
        rcases List.mem_cons.mp hx with rfl | hx
        · rw [hp] at hpx
          cases hpx
        · exact ⟨hx, hpx, fun y hy => hfirst y (List.mem_cons_of_mem _ hy)⟩

end Bucket

end ScatteringData
