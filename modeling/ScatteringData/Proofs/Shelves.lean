import Mathlib
import ScatteringData.Proofs.Outcome
import ScatteringData.Proofs.Table

/-!
# Shelves of records that were built

Records that were built stand under file types and integers, and no shelf of theirs is empty. What
such shelves answer about keys depends only on the pairs of keys under which something is kept.
-/

namespace ScatteringData

namespace Value

theorem greatest?_ints_cons (n k : Int) (a b : Mark) (vs : List Value) :
    greatest? (int n a :: int k b :: vs) = greatest? ((if n < k then int k b else int n a) :: vs) := by
  have hlt : (compare n k).isLT = decide (n < k) := by
    rcases lt_trichotomy n k with h | h | h
    · rw [compare_lt_iff_lt.mpr h, decide_eq_true h]
      rfl
    · rw [compare_eq_iff_eq.mpr h, decide_eq_false h.not_lt]
      rfl
    · rw [compare_gt_iff_gt.mpr h, decide_eq_false h.not_gt]
      rfl
  have hstep : (int n a).precedes? true (int k b) = some (decide (n < k)) := by
    unfold precedes?
    simp only [number?, Number.compare?, Option.any_some, if_true, hlt]
  simp only [greatest?, List.foldlM_cons, hstep, bind, Option.bind_some, decide_eq_true_eq]
  by_cases h : n < k
  · rw [if_pos h, if_pos h, Option.bind_some]
  · rw [if_neg h, if_neg h, Option.bind_some]

theorem precedes?_ints {k n : Int} (h : k ≤ n) (a b : Mark) :
    (int k a).precedes? false (int n b) = some true := by
  unfold precedes?
  simp only [number?, Number.compare?, Option.any_some, Bool.false_eq_true, if_false]
  rw [Ordering.isLE_iff_ne_gt.mpr (compare_le_iff_le.mpr h)]

theorem greatest?_ints {v : Value} {vs : List Value}
    (hvs : ∀ w ∈ v :: vs, ∃ n mark, w = .int n mark) :
    ∃ n mark, greatest? (v :: vs) = some (.int n mark) ∧ .int n mark ∈ v :: vs ∧
      ∀ k l, .int k l ∈ v :: vs → k ≤ n := by
  induction vs generalizing v with
  | nil =>
    obtain ⟨n, a, rfl⟩ := hvs v (List.mem_cons_self ..)
    refine ⟨n, a, rfl, List.mem_cons_self .., fun k l h => ?_⟩
    rw [List.mem_singleton] at h
    cases h
    exact le_refl _
  | cons w vs ih =>
    obtain ⟨n, a, rfl⟩ := hvs v (List.mem_cons_self ..)
    obtain ⟨k, b, rfl⟩ := hvs w (by simp)
    rw [greatest?_ints_cons]
    by_cases hlt : n < k
    · rw [if_pos hlt]
      obtain ⟨j, c, hj, hmem, hmax⟩ := ih fun x hx => hvs x (List.mem_cons_of_mem _ hx)
      refine ⟨j, c, hj, List.mem_cons_of_mem _ hmem, fun k' l h => ?_⟩
      rcases List.mem_cons.mp h with h | h
      · cases h
        exact hlt.le.trans (hmax k b (List.mem_cons_self ..))
      · exact hmax k' l h
    · rw [if_neg hlt]
      have hsub : ∀ x ∈ int n a :: vs, x ∈ int n a :: int k b :: vs := by
        intro x hx
        rcases List.mem_cons.mp hx with rfl | hx
        · exact List.mem_cons_self ..
        · exact List.mem_cons_of_mem _ (List.mem_cons_of_mem _ hx)
      obtain ⟨j, c, hj, hmem, hmax⟩ := ih fun x hx => hvs x (hsub x hx)
      refine ⟨j, c, hj, hsub _ hmem, fun k' l h => ?_⟩
      rcases List.mem_cons.mp h with h | h
      · cases h
        exact hmax n a (List.mem_cons_self ..)
      · rcases List.mem_cons.mp h with h | h
        · cases h
          exact (not_lt.mp hlt).trans (hmax n a (List.mem_cons_self ..))
        · exact hmax k' l (List.mem_cons_of_mem _ h)

end Value

namespace Shelves

variable {α : Type}

structure FiledShelf (shelf : Table α) : Prop where
  distinct : shelf.Distinct
  nonempty : shelf.entries ≠ []
  labels : ∀ e ∈ shelf.entries, ∃ n mark, e.1.shown = .int n mark

structure Filed (s : Shelves α) : Prop where
  distinct : Table.Distinct s
  labels : ∀ e ∈ s.entries, ∃ t, e.1.shown = .fileType t
  shelves : ∀ e ∈ s.entries, FiledShelf e.2

variable {s s' : Shelves α} {fileType version : Value} {k₁ k₂ : Key} {shelf : Table α}

theorem Filed.shelf_of_get? (h : s.Filed) (hs : Table.get? s k₁ = some shelf) :
    FiledShelf shelf := by
  obtain ⟨l, hl, -⟩ := Table.mem_of_get? hs
  exact h.shelves _ hl

/-! ## Putting -/

theorem Filed.empty : Filed (Table.empty : Shelves α) :=
  ⟨Table.Distinct.empty, (fun _ he => by cases he), (fun _ he => by cases he)⟩

theorem FiledShelf.put {l : Label} (h : shelf = Table.empty ∨ FiledShelf shelf)
    (hl : ∃ n mark, l.shown = .int n mark) (a : α) : FiledShelf (shelf.put l a) := by
  have hparts : shelf.Distinct ∧ ∀ e ∈ shelf.entries, ∃ n mark, e.1.shown = .int n mark := by
    cases h with
    | inl h =>
      subst h
      exact ⟨Table.Distinct.empty, fun _ he => by cases he⟩
    | inr h => exact ⟨h.distinct, h.labels⟩
  refine ⟨hparts.1.put l a, ?_, ?_⟩
  · intro hnil
    have hk : l.key ∈ (shelf.put l a).keys := (Table.mem_keys_put shelf l a l.key).mpr (Or.inl rfl)
    simp [Table.keys, hnil] at hk
  · intro e he
    rcases Table.mem_put he with he | ⟨-, -, he | he⟩
    · exact hparts.2 e he
    · simpa [he] using hl
    · obtain ⟨e', he', heq⟩ := List.mem_map.mp he
      rw [← heq]
      exact hparts.2 e' he'

theorem Filed.putAt (h : s.Filed) {l₁ l₂ : Label} (hl₁ : ∃ t, l₁.shown = .fileType t)
    (hl₂ : ∃ n mark, l₂.shown = .int n mark) (a : α) : (s.putAt l₁ l₂ a).Filed := by
  have hshelf : FiledShelf (((Table.get? s l₁.key).getD Table.empty).put l₂ a) := by
    apply FiledShelf.put _ hl₂
    cases hs : Table.get? s l₁.key with
    | none => exact Or.inl rfl
    | some shelf => exact Or.inr (h.shelf_of_get? hs)
  refine ⟨h.distinct.put l₁ _, ?_, ?_⟩
  · intro e he
    rcases Table.mem_put he with he | ⟨-, -, he | he⟩
    · exact h.labels e he
    · simpa [he] using hl₁
    · obtain ⟨e', he', heq⟩ := List.mem_map.mp he
      rw [← heq]
      exact h.labels e' he'
  · intro e he
    rcases Table.mem_put he with he | ⟨he, -, -⟩
    · exact h.shelves e he
    · rw [he]
      exact hshelf

/-! ## Keys under which something is kept -/

theorem mem_shelf_keys_iff (hs : Table.get? s k₁ = some shelf) (k₂ : Key) :
    k₂ ∈ shelf.keys ↔ (s.at? k₁ k₂).isSome := by
  rw [← Table.isSome_get?_iff, at?, hs, Option.bind_some]

theorem Filed.mem_keys_iff (h : s.Filed) (k₁ : Key) :
    k₁ ∈ Table.keys s ↔ ∃ k₂, (s.at? k₁ k₂).isSome := by
  rw [← Table.isSome_get?_iff]
  constructor
  · intro hsome
    obtain ⟨shelf, hs⟩ := Option.isSome_iff_exists.mp hsome
    obtain ⟨e, he⟩ := List.exists_mem_of_ne_nil _ (h.shelf_of_get? hs).nonempty
    exact ⟨e.1.key, (mem_shelf_keys_iff hs _).mp (List.mem_map.mpr ⟨e, he, rfl⟩)⟩
  · intro hk
    obtain ⟨k₂, hk⟩ := hk
    unfold at? at hk
    cases hs : Table.get? s k₁ with
    | none => simp [hs] at hk
    | some shelf => rfl

theorem Filed.at?_of_mem (h : s.Filed) {d : Label × Table α} {c : Label × α} (hd : d ∈ s.entries)
    (hc : c ∈ d.2.entries) : s.at? d.1.key c.1.key = some c.2 := by
  unfold at?
  rw [Table.get?_of_mem h.distinct hd, Option.bind_some,
    Table.get?_of_mem (h.shelves d hd).distinct hc]

theorem items_eq (s : Shelves α) :
    s.items = s.entries.flatMap fun d => d.2.entries.map (·.2) := by
  unfold items Table.contents
  rw [List.flatMap_map]

theorem Filed.mem_items_iff (h : s.Filed) (a : α) :
    a ∈ s.items ↔ ∃ k₁ k₂, s.at? k₁ k₂ = some a := by
  simp only [items_eq, List.mem_flatMap, List.mem_map]
  constructor
  · intro ha
    obtain ⟨d, hd, c, hc, rfl⟩ := ha
    exact ⟨_, _, h.at?_of_mem hd hc⟩
  · intro ha
    obtain ⟨k₁, k₂, ha⟩ := ha
    obtain ⟨shelf, hs, ha⟩ := Option.bind_eq_some_iff.mp ha
    obtain ⟨l, hl, -⟩ := Table.mem_of_get? hs
    obtain ⟨l', hl', -⟩ := Table.mem_of_get? ha
    exact ⟨_, hl, _, hl', rfl⟩

theorem Filed.pairwise_items (h : s.Filed) {R : α → α → Prop}
    (hR : ∀ k₁ k₂ a l₁ l₂ b, s.at? k₁ k₂ = some a → s.at? l₁ l₂ = some b →
      (k₁, k₂) ≠ (l₁, l₂) → R a b) : s.items.Pairwise R := by
  rw [items_eq, List.pairwise_flatMap]
  constructor
  · intro d hd
    rw [List.pairwise_map]
    apply (List.pairwise_map.mp (h.shelves d hd).distinct).imp_of_mem
    intro c c' hc hc' hne
    apply hR _ _ _ _ _ _ (h.at?_of_mem hd hc) (h.at?_of_mem hd hc')
    simp [hne]
  · apply (List.pairwise_map.mp h.distinct).imp_of_mem
    intro d d' hd hd' hne a ha b hb
    obtain ⟨c, hc, rfl⟩ := List.mem_map.mp ha
    obtain ⟨c', hc', rfl⟩ := List.mem_map.mp hb
    apply hR _ _ _ _ _ _ (h.at?_of_mem hd hc) (h.at?_of_mem hd' hc')
    simp [hne]

/-! ## Versions -/

theorem FiledShelf.greatest? (h : FiledShelf shelf) :
    ∃ n mark, Value.greatest? shelf.labels = some (.int n mark) ∧ .int n mark ∈ shelf.labels ∧
      (∀ v ∈ shelf.labels, v.precedes? false (.int n mark) = some true) ∧
      Key.number (.int n) ∈ shelf.keys ∧ ∀ k, Key.number (.int k) ∈ shelf.keys → k ≤ n := by
  obtain ⟨d, ds, hds⟩ := List.exists_cons_of_ne_nil h.nonempty
  have hints : ∀ v ∈ shelf.labels, ∃ n mark, v = .int n mark := by
    intro v hv
    obtain ⟨e, he, rfl⟩ := List.mem_map.mp hv
    exact h.labels e he
  have hmem : ∀ n, Key.number (.int n) ∈ shelf.keys ↔ ∃ mark, .int n mark ∈ shelf.labels := by
    intro n
    unfold Table.keys Table.labels
    rw [List.mem_map]
    constructor
    · intro hk
      obtain ⟨e, he, hk⟩ := hk
      obtain ⟨k, mark, hshown⟩ := h.labels e he
      have hkey := e.1.key_shown
      rw [hshown, hk] at hkey
      cases hkey
      exact ⟨mark, List.mem_map.mpr ⟨e, he, hshown⟩⟩
    · intro hmark
      obtain ⟨mark, hmark⟩ := hmark
      obtain ⟨e, he, hshown⟩ := List.mem_map.mp hmark
      have hkey := e.1.key_shown
      rw [hshown] at hkey
      exact ⟨e, he, (Option.some.inj hkey).symm⟩
  unfold Table.labels at hints hmem ⊢
  rw [hds] at hints hmem ⊢
  obtain ⟨n, mark, hgreatest, hn, hmax⟩ := Value.greatest?_ints hints
  refine ⟨n, mark, hgreatest, hn, fun v hv => ?_, (hmem n).mpr ⟨mark, hn⟩, fun k hk => ?_⟩
  · obtain ⟨k, l, rfl⟩ := hints v hv
    exact Value.precedes?_ints (hmax k l hv) l mark
  · obtain ⟨l, hl⟩ := (hmem k).mp hk
    exact hmax k l hl

theorem recommendedVersion_absent (category : String) (h₁ : fileType.key? = some k₁)
    (hs : Table.get? s k₁ = none) : s.recommendedVersion category fileType =
      .error (.raised (.request (.unknownFileType category fileType))) := by
  unfold recommendedVersion
  rw [Table.find_eq _ h₁, hs]
  rfl

theorem Filed.exists_recommendedVersion (h : s.Filed) (category : String)
    (h₁ : fileType.key? = some k₁) (hs : Table.get? s k₁ = some shelf) :
    ∃ n mark, s.recommendedVersion category fileType = .ok (.int n mark) ∧
      .int n mark ∈ shelf.labels ∧
      (∀ v ∈ shelf.labels, v.precedes? false (.int n mark) = some true) ∧
      Key.number (.int n) ∈ shelf.keys ∧ ∀ k, Key.number (.int k) ∈ shelf.keys → k ≤ n := by
  obtain ⟨n, mark, hgreatest, hrest⟩ := (h.shelf_of_get? hs).greatest?
  have hempty : shelf.isEmpty = false :=
    List.isEmpty_eq_false_iff.mpr (h.shelf_of_get? hs).nonempty
  refine ⟨n, mark, ?_, hrest⟩
  unfold recommendedVersion
  rw [Table.find_eq _ h₁, hs]
  simp only [bind, Except.bind, hempty, Bool.false_eq_true, if_false, hgreatest]
  rfl

/-! ## Same keys, same answers -/

section
variable (h : s.Filed) (h' : s'.Filed)
  (hkeys : ∀ k₁ k₂, (s.at? k₁ k₂).isSome ↔ (s'.at? k₁ k₂).isSome)
include h h' hkeys

theorem perm_keys : (Table.keys s).Perm (Table.keys s') := by
  refine (List.perm_ext_iff_of_nodup h.distinct h'.distinct).mpr fun k => ?_
  simp only [h.mem_keys_iff, h'.mem_keys_iff, hkeys]

/-- The shelves of a file type are both absent, or they have the same keys. -/
theorem shelves_alike (k₁ : Key) :
    Table.get? s k₁ = none ∧ Table.get? s' k₁ = none ∨
    ∃ shelf shelf', Table.get? s k₁ = some shelf ∧ Table.get? s' k₁ = some shelf' ∧
      shelf.keys.Perm shelf'.keys := by
  have hiff : k₁ ∈ Table.keys s ↔ k₁ ∈ Table.keys s' := (perm_keys h h' hkeys).mem_iff
  rw [← Table.isSome_get?_iff, ← Table.isSome_get?_iff] at hiff
  cases hs : Table.get? s k₁ with
  | none =>
    cases hs' : Table.get? s' k₁ with
    | none => exact Or.inl ⟨rfl, rfl⟩
    | some shelf' => simp [hs, hs'] at hiff
  | some shelf =>
    cases hs' : Table.get? s' k₁ with
    | none => simp [hs, hs'] at hiff
    | some shelf' =>
      refine Or.inr ⟨shelf, shelf', rfl, rfl, ?_⟩
      have hd := (h.shelf_of_get? hs).distinct
      have hd' := (h'.shelf_of_get? hs').distinct
      refine (List.perm_ext_iff_of_nodup hd hd').mpr fun k => ?_
      rw [mem_shelf_keys_iff hs, mem_shelf_keys_iff hs', hkeys]

theorem versions_alike (fileType : Value) :
    SameResult (fun vs ws => (Value.keys vs).Perm (Value.keys ws)) (s.versions fileType)
      (s'.versions fileType) := by
  unfold versions
  cases h₁ : fileType.key? with
  | none =>
    rw [Table.find_eq_error _ h₁, Table.find_eq_error _ h₁]
    exact rfl
  | some k₁ =>
    rw [Table.find_eq _ h₁, Table.find_eq _ h₁]
    rcases shelves_alike h h' hkeys k₁ with ⟨hs, hs'⟩ | ⟨shelf, shelf', hs, hs', hperm⟩
    · rw [hs, hs']
      exact List.Perm.refl _
    · rw [hs, hs']
      change (Value.keys shelf.labels).Perm (Value.keys shelf'.labels)
      rw [Table.keys_labels, Table.keys_labels]
      exact hperm

theorem recommendedVersion_alike (category : String) (fileType : Value) :
    SameResult (fun v w => v.key? = w.key?) (s.recommendedVersion category fileType)
      (s'.recommendedVersion category fileType) := by
  cases h₁ : fileType.key? with
  | none =>
    unfold recommendedVersion
    rw [Table.find_eq_error _ h₁, Table.find_eq_error _ h₁]
    exact rfl
  | some k₁ =>
    rcases shelves_alike h h' hkeys k₁ with ⟨hs, hs'⟩ | ⟨shelf, shelf', hs, hs', hperm⟩
    · rw [recommendedVersion_absent _ h₁ hs, recommendedVersion_absent _ h₁ hs']
      exact rfl
    · obtain ⟨n, a, hn, -, -, hnmem, hnmax⟩ := h.exists_recommendedVersion category h₁ hs
      obtain ⟨k, b, hk, -, -, hkmem, hkmax⟩ := h'.exists_recommendedVersion category h₁ hs'
      have heq : n = k := by
        have hle := hkmax n (hperm.mem_iff.mp hnmem)
        have hge := hnmax k (hperm.mem_iff.mpr hkmem)
        omega
      rw [hn, hk, heq]
      exact rfl

theorem available_alike (fileType version : Value) :
    s.available fileType version = s'.available fileType version := by
  unfold available
  by_cases hnull : fileType.isNull
  · have hempty : Table.isEmpty s = Table.isEmpty s' := by
      have hlength := (perm_keys h h' hkeys).length_eq
      simp only [Table.keys, List.length_map] at hlength
      rw [Bool.eq_iff_iff]
      simp [Table.isEmpty, ← List.length_eq_zero_iff, hlength]
    simp [hnull, hempty]
  · simp only [hnull, Bool.false_eq_true, if_false]
    cases h₁ : fileType.key? with
    | none => rw [Table.find_eq_error _ h₁, Table.find_eq_error _ h₁]
    | some k₁ =>
      rw [Table.find_eq _ h₁, Table.find_eq _ h₁]
      rcases shelves_alike h h' hkeys k₁ with ⟨hs, hs'⟩ | ⟨shelf, shelf', hs, hs', hperm⟩
      · rw [hs, hs']
      · rw [hs, hs']
        simp only [bind, Except.bind]
        cases h₂ : version.key? with
        | none => rw [Table.find_eq_error _ h₂, Table.find_eq_error _ h₂]
        | some k₂ =>
          have hiff : (shelf.get? k₂).isSome = (shelf'.get? k₂).isSome := by
            rw [Bool.eq_iff_iff, Table.isSome_get?_iff, Table.isSome_get?_iff]
            exact hperm.mem_iff
          simp only [Table.find_eq _ h₂, hiff]

end

theorem get_alike (h : s.Filed) (h' : s'.Filed) (hat : ∀ k₁ k₂, s.at? k₁ k₂ = s'.at? k₁ k₂)
    (category : String) (fileType version : Value) :
    s.get category fileType version = s'.get category fileType version := by
  cases h₁ : fileType.key? with
  | none =>
    unfold Shelves.get
    rw [Table.find_eq_error _ h₁, Table.find_eq_error _ h₁]
  | some k₁ =>
    cases h₂ : version.key? with
    | none =>
      have hkeys : ∀ k₁ k₂, (s.at? k₁ k₂).isSome ↔ (s'.at? k₁ k₂).isSome := by simp [hat]
      unfold Shelves.get
      rw [Table.find_eq _ h₁, Table.find_eq _ h₁]
      rcases shelves_alike h h' hkeys k₁ with ⟨hs, hs'⟩ | ⟨shelf, shelf', hs, hs', -⟩
      · rw [hs, hs']
      · rw [hs, hs']
        simp only [bind, Except.bind, Table.find_eq_error _ h₂]
    | some k₂ => rw [get_eq _ _ h₁ h₂, get_eq _ _ h₁ h₂, hat]

end Shelves

end ScatteringData
