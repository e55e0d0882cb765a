import Mathlib
import ScatteringData.Proofs.Heap.Layout
import ScatteringData.Proofs.Table

/-!
# Changing containers in place

A change in place leaves a reference where it is and changes what is read there. It keeps to the
containers of the value that is read, and to new ones. Changes of this kind follow one another, and a
change of what a table holds under a label is a change of the table.
-/

namespace ScatteringData

theorem Table.putIn_putIn {α : Type} (l : Label) (a b : α) (es : List (Label × α)) :
    putIn l b (putIn l a es) = putIn l b es := by
  induction es with
  | nil => simp [putIn]
  | cons e es ih => by_cases he : e.1.key = l.key <;> simp [putIn, he, ih]

theorem Table.put_put {α : Type} (t : Table α) (l : Label) (a b : α) :
    (t.put l a).put l b = t.put l b :=
  congrArg Table.mk (putIn_putIn l a b t.entries)

namespace Layout

variable {α β : Type} {L : Layout α} {h k m : Heap} {x y : Ref} {u v : α}
  {before within after own : List Location}

/-- From a heap in which the value at a reference has some containers to a heap in which the reference
shows another value. -/
structure Rewrites (L : Layout α) (x : Ref) (h : Heap) (before : List Location) (k : Heap) (v : α)
    (after : List Location) : Prop where
  shows : L.Shows k x v after
  size : h.size ≤ k.size
  own : ∀ a ∈ after, a ∈ before ∨ h.size ≤ a
  others : ∀ a, a < h.size → a ∉ before → k.get? a = h.get? a

theorem Rewrites.refl (hx : L.Shows h x v within) : L.Rewrites x h within h v within :=
  ⟨hx, le_refl _, fun _ ha => Or.inl ha, fun _ _ _ => rfl⟩

theorem Rewrites.trans (hk : L.Rewrites x h before k u within)
    (hm : L.Rewrites x k within m v after) : L.Rewrites x h before m v after where
  shows := hm.shows
  size := hk.size.trans hm.size
  own a ha := by
    rcases hm.own a ha with ha | ha
    · exact hk.own a ha
    · exact Or.inr (hk.size.trans ha)
  others a ha hnot := by
    have hwithin : a ∉ within := fun hin => (hk.own a hin).elim hnot ha.not_ge
    exact (hm.others a (ha.trans_le hk.size) hwithin).trans (hk.others a ha hnot)

/-- New containers change nothing. -/
theorem Rewrites.grows (hL : L.Lawful) (hk : L.Rewrites x h before k v after) (hm : k.Grows m) :
    L.Rewrites x h before m v after where
  shows := hk.shows.grows hL hm
  size := hk.size.trans hm.size
  own := hk.own
  others a ha hnot := (hm.get? a (ha.trans_le hk.size)).trans (hk.others a ha hnot)

theorem Rewrites.map (make : String → α → β) (category : String)
    (hk : L.Rewrites x h before k v after) :
    (Layout.map make L).Rewrites (.map category x) h before k (make category v) after where
  shows := ⟨map_eq_some.mpr ⟨category, x, v, rfl, hk.shows.1, rfl⟩, hk.shows.2⟩
  size := hk.size
  own := hk.own
  others := hk.others

theorem Rewrites.comp {γ : Type} {make : String → α → β} {w : β} (f : β → γ)
    (hk : (Layout.map make L).Rewrites x h before k w after) :
    (Layout.map (fun category v => f (make category v)) L).Rewrites x h before k (f w) after := by
  obtain ⟨category, y, v, rfl, hy, rfl⟩ := map_eq_some.mp hk.shows.1
  exact ⟨⟨map_eq_some.mpr ⟨category, y, v, rfl, hy, rfl⟩, hk.shows.2⟩, hk.size, hk.own, hk.others⟩

/-! ## What a table holds under a label -/

theorem tableAt_eq {t : Table Ref} {a : Location} (ha : h.get? a = some (.table t)) :
    h.tableAt (.container a) = t := by
  rw [Heap.tableAt, ha]

theorem readAll_get?_none {es : List (Label × Ref)} {vs : List (Label × α)}
    (hes : readAll L h es = some (vs, within)) (key : Key) :
    Table.get? ⟨vs⟩ key = none ↔ Table.get? (⟨es⟩ : Table Ref) key = none := by
  induction es generalizing vs within with
  | nil =>
    cases hes
    exact iff_of_true rfl rfl
  | cons e es ih =>
    obtain ⟨v, own, rest, others, -, hrest, rfl, rfl⟩ := readAll_cons_eq_some.mp hes
    rw [Table.get?_cons, Table.get?_cons]
    by_cases he : e.1.key = key
    · simp [he]
    · simpa [he] using ih hrest

theorem readAll_get?_some {es : List (Label × Ref)} {vs : List (Label × α)} {key : Key}
    (hes : readAll L h es = some (vs, within)) (hy : Table.get? (⟨es⟩ : Table Ref) key = some y) :
    ∃ v own, Table.get? ⟨vs⟩ key = some v ∧ L h y = some (v, own) ∧ own.Sublist within := by
  induction es generalizing vs within with
  | nil => cases hy
  | cons e es ih =>
    obtain ⟨v, own, rest, others, hv, hrest, rfl, rfl⟩ := readAll_cons_eq_some.mp hes
    rw [Table.get?_cons] at hy
    by_cases he : e.1.key = key
    · rw [if_pos he] at hy
      cases hy
      exact ⟨v, own, by rw [Table.get?_cons, if_pos he], hv, List.sublist_append_left own others⟩
    · rw [if_neg he] at hy
      obtain ⟨u, own', hu, hread, hsub⟩ := ih hrest hy
      refine ⟨u, own', ?_, hread, hsub.trans (List.sublist_append_right own others)⟩
      rw [Table.get?_cons, if_neg he, hu]

section
variable {t : Table α}

theorem Shows.get?_none (hx : (table L).Shows h x t within) (key : Key) :
    t.get? key = none ↔ (h.tableAt x).get? key = none := by
  obtain ⟨a, u, rest, rfl, ha, hrest, -⟩ := table_eq_some.mp hx.1
  rw [tableAt_eq ha]
  exact readAll_get?_none hrest key

theorem Shows.contains (hx : (table L).Shows h x t within) (key : Key) :
    (h.tableAt x).contains key = t.contains key := by
  unfold Table.contains
  rw [Bool.eq_iff_iff, Option.isSome_iff_ne_none, Option.isSome_iff_ne_none]
  exact not_congr (hx.get?_none key).symm

theorem Shows.get?_some {key : Key} (hx : (table L).Shows h x t within)
    (hy : (h.tableAt x).get? key = some y) :
    ∃ v own, t.get? key = some v ∧ L.Shows h y v own ∧ ∀ a ∈ own, a ∈ within := by
  obtain ⟨a, u, rest, rfl, ha, hrest, rfl⟩ := table_eq_some.mp hx.1
  rw [tableAt_eq ha] at hy
  obtain ⟨v, own, hv, hread, hsub⟩ := readAll_get?_some hrest hy
  refine ⟨v, own, hv, ⟨hread, hsub.nodup (List.nodup_cons.mp hx.2).2⟩, fun b hb => ?_⟩
  exact List.mem_cons_of_mem a (hsub.subset hb)

end

/-! ## A change under a label -/

theorem readAll_putIn {es : List (Label × Ref)} {vs : List (Label × α)}
    (hes : readAll L h es = some (vs, within)) (hnodup : within.Nodup) (hy : L.Shows h y v own)
    (hapart : own.Disjoint within) (l : Label) :
    ∃ within', readAll L h (Table.putIn l y es) = some (Table.putIn l v vs, within') ∧
      within'.Nodup ∧ ∀ a ∈ within', a ∈ within ∨ a ∈ own := by
  induction es generalizing vs within with
  | nil =>
    cases hes
    exact ⟨own ++ [], readAll_cons_eq_some.mpr ⟨v, own, [], [], hy.1, rfl, rfl, rfl⟩, by simpa using hy.2,
      fun a ha => Or.inr (by simpa using ha)⟩
  | cons e es ih =>
    obtain ⟨w, own', rest, others, hw, hrest, rfl, rfl⟩ := readAll_cons_eq_some.mp hes
    obtain ⟨hown, hothers, hdisjoint⟩ := List.nodup_append'.mp hnodup
    obtain ⟨hapart', hapart⟩ := List.disjoint_append_right.mp hapart
    by_cases he : e.1.key = l.key
    · refine ⟨own ++ others, ?_, List.nodup_append'.mpr ⟨hy.2, hothers, hapart⟩, fun a ha => ?_⟩
      · rw [Table.putIn, if_pos he]
        refine readAll_cons_eq_some.mpr ⟨v, own, rest, others, hy.1, hrest, ?_, rfl⟩
        rw [Table.putIn, if_pos he]
      · rcases List.mem_append.mp ha with ha | ha
        · exact Or.inr ha
        · exact Or.inl (List.mem_append_right _ ha)
    · obtain ⟨within', hread, hnodup', hfrom⟩ := ih hrest hothers hapart
      refine ⟨own' ++ within', ?_, ?_, fun a ha => ?_⟩
      · rw [Table.putIn, if_neg he]
        refine readAll_cons_eq_some.mpr ⟨w, own', _, within', hw, hread, ?_, rfl⟩
        rw [Table.putIn, if_neg he]
      · refine List.nodup_append'.mpr ⟨hown, hnodup', fun a ha hin => ?_⟩
        rcases hfrom a hin with hin | hin
        · exact hdisjoint ha hin
        · exact hapart' hin ha
      · rcases List.mem_append.mp ha with ha | ha
        · exact Or.inl (List.mem_append_left _ ha)
        · exact (hfrom a ha).imp_left (List.mem_append_right _)

section
variable (hL : L.Lawful)
include hL

theorem readAll_rewrites {es : List (Label × Ref)} {vs : List (Label × α)} {l : Label}
    (hes : readAll L h es = some (vs, within)) (hnodup : within.Nodup)
    (hy : Table.get? (⟨es⟩ : Table Ref) l.key = some y) (hv : L h y = some (v, own))
    (hk : L.Rewrites y h own k u after) :
    ∃ within', readAll L k es = some (Table.putIn l u vs, within') ∧ within'.Nodup ∧
      ∀ a ∈ within', a ∈ within ∨ h.size ≤ a := by
  induction es generalizing vs within with
  | nil => cases hy
  | cons e es ih =>
    obtain ⟨w, own', rest, others, hw, hrest, rfl, rfl⟩ := readAll_cons_eq_some.mp hes
    obtain ⟨hown, hothers, hapart⟩ := List.nodup_append'.mp hnodup
    rw [Table.get?_cons] at hy
    by_cases he : e.1.key = l.key
    · -- the first entry is the changed one, and all others are read as before
      rw [if_pos he] at hy
      cases hy
      obtain ⟨rfl, rfl⟩ : w = v ∧ own' = own := by simpa using hw.symm.trans hv
      have hkept : readAll L k es = some (rest, others) := readAll_congr hL hrest fun a ha =>
        hk.others a (readAll_held hL hrest a ha) fun hin => hapart hin ha
      refine ⟨after ++ others, ?_, ?_, fun a ha => ?_⟩
      · refine readAll_cons_eq_some.mpr ⟨u, after, rest, others, hk.shows.1, hkept, ?_, rfl⟩
        rw [Table.putIn, if_pos he]
      · refine List.nodup_append'.mpr ⟨hk.shows.2, hothers, fun a ha hin => ?_⟩
        rcases hk.own a ha with ha | ha
        · exact hapart ha hin
        · exact (readAll_held hL hrest a hin).not_ge ha
      · rcases List.mem_append.mp ha with ha | ha
        · exact (hk.own a ha).imp_left (List.mem_append_left _)
        · exact Or.inl (List.mem_append_right _ ha)
    · rw [if_neg he] at hy
      obtain ⟨within', hread, hnodup', hfrom⟩ := ih hrest hothers hy
      obtain ⟨v', second, -, hread', hsub⟩ := readAll_get?_some hrest hy
      obtain ⟨rfl, rfl⟩ : v' = v ∧ second = own := by simpa using hread'.symm.trans hv
      have hkept : L k e.2 = some (w, own') := hL.congr hw fun a ha =>
        hk.others a (hL.held hw a ha) fun hin => hapart ha (hsub.subset hin)
      refine ⟨own' ++ within', ?_, ?_, fun a ha => ?_⟩
      · refine readAll_cons_eq_some.mpr ⟨w, own', _, within', hkept, hread, ?_, rfl⟩
        rw [Table.putIn, if_neg he]
      · refine List.nodup_append'.mpr ⟨hown, hnodup', fun a ha hin => ?_⟩
        rcases hfrom a hin with hin | hin
        · exact hapart ha hin
        · exact (hL.held hw a ha).not_ge hin
      · rcases List.mem_append.mp ha with ha | ha
        · exact Or.inl (List.mem_append_left _ ha)
        · exact (hfrom a ha).imp_left (List.mem_append_right _)

variable {t : Table α} {l : Label}

/-- A change of what a table holds under a label is a change of the table. -/
theorem Rewrites.under (hk : (table L).Rewrites x h before k t within)
    (hy : (k.tableAt x).get? l.key = some y) (hv : L.Shows k y v own)
    (hm : L.Rewrites y k own m u after) :
    ∃ after', (table L).Rewrites x h before m (t.put l u) after' := by
  obtain ⟨a, s, rest, rfl, ha, hrest, rfl⟩ := table_eq_some.mp hk.shows.1
  obtain ⟨haway, hnodup⟩ := List.nodup_cons.mp hk.shows.2
  rw [tableAt_eq ha] at hy
  obtain ⟨v', own', -, hv', hsub⟩ := readAll_get?_some hrest hy
  obtain ⟨rfl, rfl⟩ : v' = v ∧ own' = own := by simpa using hv'.symm.trans hv.1
  obtain ⟨within', hread, hnodup', hfrom⟩ := readAll_rewrites hL hrest hnodup hy hv.1 hm
  -- the container of the table itself is none of those that were changed
  have hcell : m.get? a = some (.table s) :=
    (hm.others a (Heap.lt_size_of_get? ha) fun hin => haway (hsub.subset hin)).trans ha
  have hin : ∀ b ∈ a :: within', b ∈ a :: rest ∨ k.size ≤ b := by
    intro b hb
    rcases List.mem_cons.mp hb with rfl | hb
    · exact Or.inl (List.mem_cons_self ..)
    · exact (hfrom b hb).imp_left (List.mem_cons_of_mem a)
  refine ⟨a :: within', hk.trans ⟨⟨?_, ?_⟩, hm.size, hin, fun b hb hnot => ?_⟩⟩
  · exact table_eq_some.mpr ⟨a, s, within', rfl, hcell, hread, rfl⟩
  · refine List.nodup_cons.mpr ⟨fun hin' => ?_, hnodup'⟩
    rcases hfrom a hin' with hin' | hin'
    · exact haway hin'
    · exact (Heap.lt_size_of_get? ha).not_ge hin'
  · exact hm.others b hb fun hin' => hnot (List.mem_cons_of_mem a (hsub.subset hin'))

/-- Something else is put in a table, which has none of the containers of the table. -/
theorem Rewrites.put (hk : (table L).Rewrites x h before k t within) (hy : L.Shows k y v own)
    (hown : ∀ a ∈ own, a ∈ before ∨ h.size ≤ a) (hapart : own.Disjoint within) (l : Label) :
    ∃ after, (table L).Rewrites x h before (k.put x l y) (t.put l v) after := by
  obtain ⟨a, s, rest, rfl, ha, hrest, rfl⟩ := table_eq_some.mp hk.shows.1
  obtain ⟨haway, hnodup⟩ := List.nodup_cons.mp hk.shows.2
  obtain ⟨hnot, hapart⟩ := List.disjoint_cons_right.mp hapart
  obtain ⟨within', hread, hnodup', hfrom⟩ := readAll_putIn hrest hnodup hy hapart l
  have hin : ∀ b ∈ within', b ∈ before ∨ h.size ≤ b := by
    intro b hb
    rcases hfrom b hb with hb | hb
    · exact hk.own b (List.mem_cons_of_mem a hb)
    · exact hown b hb
  have haway' : a ∉ within' := fun hin => (hfrom a hin).elim haway hnot
  have hput : k.put (.container a) l y = k.write a (.table (s.put l y)) := by
    rw [Heap.put, tableAt_eq ha]
  rw [hput]
  refine ⟨a :: within', ⟨?_, List.nodup_cons.mpr ⟨haway', hnodup'⟩⟩, ?_, fun b hb => ?_, ?_⟩
  · refine table_eq_some.mpr ⟨a, s.put l y, within', rfl, ?_, ?_, rfl⟩
    · exact Heap.get?_write_self k (Heap.lt_size_of_get? ha) _
    · refine readAll_congr hL hread fun b hb => Heap.get?_write_of_ne k ?_ _
      rintro rfl
      exact haway' hb
  · rw [Heap.size_write]
    exact hk.size
  · rcases List.mem_cons.mp hb with rfl | hb
    · exact hk.own b (List.mem_cons_self ..)
    · exact hin b hb
  · intro b hb hnot
    have hne : a ≠ b := by
      rintro rfl
      exact (hk.own a (List.mem_cons_self ..)).elim hnot hb.not_ge
    rw [Heap.get?_write_of_ne k hne]
    exact hk.others b hb hnot

theorem Shows.putNew (hx : (table L).Shows h x t within) {c : Cell}
    (hy : L.Shows (h.new c).1 y v [h.size]) (l : Label) :
    let k := (h.new c).1.put x l y
    ∃ after, (table L).Rewrites x h within k (t.put l v) after ∧
      (k.tableAt x).get? l.key = some y ∧ L.Shows k y v [h.size] := by
  intro k
  have hgrown := (Rewrites.refl hx).grows (table_lawful hL) (h.grows_new c)
  have hapart : List.Disjoint [h.size] within := by
    rw [List.singleton_disjoint]
    exact fun hin => lt_irrefl _ ((table_lawful hL).held hx.1 _ hin)
  obtain ⟨after, hput⟩ := hgrown.put hL hy (fun a ha => Or.inr (List.mem_singleton.mp ha).ge) hapart l
  obtain ⟨a, s, rest, rfl, ha, -, rfl⟩ := table_eq_some.mp hgrown.shows.1
  have hk : k = (h.new c).1.write a (.table (s.put l y)) := by
    rw [← tableAt_eq ha]
    rfl
  refine ⟨after, hput, ?_, ?_, hy.2⟩
  · rw [hk, tableAt_eq (Heap.get?_write_self _ (Heap.lt_size_of_get? ha) _), Table.get?_put, if_pos rfl]
  · -- the new container is not the one of the table, which alone was written
    rw [hk]
    refine hL.congr hy.1 fun b hb => Heap.get?_write_of_ne _ ?_ _
    rintro rfl
    exact hapart hb (List.mem_cons_self ..)

/-- After a label was entered in a table, the table holds something under it. -/
theorem Shows.enter {d : α} {c : Cell} (hx : (table L).Shows h x t within)
    (hc : ∀ k a, Heap.get? k a = some c → L k (.container a) = some (d, [a])) (l : Label) :
    let k := h.enter x l c
    ∃ after own, (table L).Rewrites x h within k.1 (t.put l ((t.get? l.key).getD d)) after ∧
      (k.1.tableAt x).get? l.key = some k.2 ∧ L.Shows k.1 k.2 ((t.get? l.key).getD d) own := by
  unfold Heap.enter
  cases hy : (h.tableAt x).get? l.key with
  | some y =>
    obtain ⟨v, own, hv, hshows, -⟩ := hx.get?_some hy
    rw [hv, Option.getD_some, Table.put_of_get? hv]
    exact ⟨within, own, Rewrites.refl hx, hy, hshows⟩
  | none =>
    rw [(hx.get?_none l.key).mpr hy, Option.getD_none]
    have hcell : (h.new c).1.get? h.size = some c := by rw [Heap.get?_new, if_pos rfl]
    obtain ⟨after, hput⟩ := hx.putNew hL ⟨hc _ _ hcell, List.nodup_singleton _⟩ l
    exact ⟨after, [h.size], hput⟩

end

end Layout

end ScatteringData
