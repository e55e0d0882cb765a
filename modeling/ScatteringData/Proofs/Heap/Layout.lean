import Mathlib
import ScatteringData.Heap.Basic

/-!
# Reading containers

What is read at a reference depends on nothing but the containers that are reported with it. So it is
the same in every heap that has these containers, in particular in every later one.
-/

namespace ScatteringData

namespace Heap

variable {h k l : Heap} {a : Location}

/-- The containers of a heap are all in a later one, unchanged. -/
structure Grows (h k : Heap) : Prop where
  size : h.size ≤ k.size
  get? : ∀ a, a < h.size → k.get? a = h.get? a

theorem Grows.refl (h : Heap) : h.Grows h := ⟨le_refl _, fun _ _ => rfl⟩

theorem Grows.trans (hk : h.Grows k) (hl : k.Grows l) : h.Grows l :=
  ⟨hk.size.trans hl.size, fun a ha => (hl.get? a (ha.trans_le hk.size)).trans (hk.get? a ha)⟩

theorem lt_size_of_get? {c : Cell} (hc : h.get? a = some c) : a < h.size :=
  (Array.getElem?_eq_some_iff.mp hc).1

theorem size_new (h : Heap) (c : Cell) : (h.new c).1.size = h.size + 1 := Array.size_push ..

theorem get?_new (h : Heap) (c : Cell) (a : Location) :
    (h.new c).1.get? a = if a = h.size then some c else h.get? a :=
  Array.getElem?_push

theorem grows_new (h : Heap) (c : Cell) : h.Grows (h.new c).1 where
  size := by rw [size_new]; exact Nat.le_succ _
  get? a ha := by rw [get?_new, if_neg ha.ne]

theorem size_write (h : Heap) (a : Location) (c : Cell) : (h.write a c).size = h.size :=
  Array.size_setIfInBounds

theorem get?_write_self (h : Heap) {a : Location} (ha : a < h.size) (c : Cell) :
    (h.write a c).get? a = some c :=
  Array.getElem?_setIfInBounds_self_of_lt ha

theorem get?_write_of_ne (h : Heap) {a b : Location} (hab : a ≠ b) (c : Cell) :
    (h.write a c).get? b = h.get? b :=
  Array.getElem?_setIfInBounds_ne hab

end Heap

namespace Layout

variable {α β : Type} {L : Layout α} {h k : Heap} {x : Ref} {v : α} {within : List Location}

/-- The reported containers are there, and they are all that a layout looks at. -/
structure Lawful (L : Layout α) : Prop where
  held : ∀ {h x v within}, L h x = some (v, within) → ∀ a ∈ within, a < h.size
  congr : ∀ {h k x v within}, L h x = some (v, within) → (∀ a ∈ within, k.get? a = h.get? a) →
    L k x = some (v, within)

theorem Lawful.grows (hL : L.Lawful) (hx : L h x = some (v, within)) (hk : h.Grows k) :
    L k x = some (v, within) :=
  hL.congr hx fun a ha => hk.get? a (hL.held hx a ha)

theorem record_eq_some {r : RecordRef} :
    record h x = some (r, within) ↔ x = .record r ∧ within = [] := by
  cases x <;> simp [record, eq_comm]

theorem bucket_eq_some {b : Bucket} :
    bucket h x = some (b, within) ↔ ∃ a, x = .container a ∧ h.get? a = some (.bucket b) ∧ within = [a] := by
  cases x with
  | container a =>
    cases hc : h.get? a with
    | none => simp [bucket, hc]
    | some c => cases c <;> simp [bucket, hc, eq_comm]
  | _ => simp [bucket]

theorem readAll_cons_eq_some {e : Label × Ref} {es : List (Label × Ref)} {vs : List (Label × α)} :
    readAll L h (e :: es) = some (vs, within) ↔ ∃ v own rest others,
      L h e.2 = some (v, own) ∧ readAll L h es = some (rest, others) ∧ vs = (e.1, v) :: rest ∧
        within = own ++ others := by
  have hstep : readAll L h (e :: es) = (L h e.2).bind fun y => (readAll L h es).bind fun z =>
      some ((e.1, y.1) :: z.1, y.2 ++ z.2) := rfl
  rw [hstep]
  cases L h e.2 with
  | none => simp
  | some y =>
    cases readAll L h es with
    | none => simp
    | some z => simp [eq_comm, Prod.ext_iff]

theorem table_eq_some {t : Table α} :
    table L h x = some (t, within) ↔ ∃ a u rest, x = .container a ∧ h.get? a = some (.table u) ∧
      readAll L h u.entries = some (t.entries, rest) ∧ within = a :: rest := by
  cases x with
  | container a =>
    cases hc : h.get? a with
    | none => simp [table, hc]
    | some c =>
      cases c with
      | bucket b => simp [table, hc]
      | table u =>
        obtain ⟨es⟩ := t
        cases hu : readAll L h u.entries with
        | none => simp [table, hc, hu]
        | some y => simp [table, hc, hu, eq_comm, Prod.ext_iff]
  | _ => simp [table]

theorem map_eq_some {make : String → α → β} {u : β} :
    map make L h x = some (u, within) ↔ ∃ category y v, x = .map category y ∧
      L h y = some (v, within) ∧ u = make category v := by
  cases x with
  | map category y =>
    cases hy : L h y with
    | none => simp [map, hy]
    | some z => simp [map, hy, eq_comm, Prod.ext_iff, and_comm]
  | _ => simp [map]

section
variable {m : RecordMap}

theorem versioned_eq_some : ofShape .versioned h x = some (m, within) ↔ ∃ category y s,
    x = .map category y ∧ table (table record) h y = some (s, within) ∧ m = .versioned ⟨category, s⟩ := by
  unfold ofShape
  exact map_eq_some

theorem temperature_eq_some : ofShape .temperature h x = some (m, within) ↔ ∃ category y s,
    x = .map category y ∧ table (table bucket) h y = some (s, within) ∧
      m = .temperature ⟨category, s⟩ := by
  unfold ofShape
  exact map_eq_some

theorem named_eq_some : ofShape .named h x = some (m, within) ↔ ∃ category y t,
    x = .map category y ∧ table graded h y = some (t, within) ∧ m = .named ⟨category, t⟩ := by
  unfold ofShape
  exact map_eq_some

end

theorem record_lawful : record.Lawful where
  held hx a ha := by
    rw [(record_eq_some.mp hx).2] at ha
    cases ha
  congr hx _ := record_eq_some.mpr (record_eq_some.mp hx)

theorem bucket_lawful : bucket.Lawful where
  held hx a ha := by
    obtain ⟨b, -, hb, rfl⟩ := bucket_eq_some.mp hx
    rw [List.mem_singleton.mp ha]
    exact Heap.lt_size_of_get? hb
  congr hx hk := by
    obtain ⟨b, rfl, hb, rfl⟩ := bucket_eq_some.mp hx
    exact bucket_eq_some.mpr ⟨b, rfl, (hk b (List.mem_singleton_self b)).trans hb, rfl⟩

section
variable (hL : L.Lawful)
include hL

theorem readAll_held {es : List (Label × Ref)} {vs : List (Label × α)}
    (hes : readAll L h es = some (vs, within)) : ∀ a ∈ within, a < h.size := by
  induction es generalizing vs within with
  | nil =>
    cases hes
    exact fun a ha => absurd ha List.not_mem_nil
  | cons e es ih =>
    obtain ⟨v, own, rest, others, hv, hrest, -, rfl⟩ := readAll_cons_eq_some.mp hes
    intro a ha
    rcases List.mem_append.mp ha with ha | ha
    · exact hL.held hv a ha
    · exact ih hrest a ha

theorem readAll_congr {es : List (Label × Ref)} {vs : List (Label × α)}
    (hes : readAll L h es = some (vs, within)) (hk : ∀ a ∈ within, k.get? a = h.get? a) :
    readAll L k es = some (vs, within) := by
  induction es generalizing vs within with
  | nil => exact hes
  | cons e es ih =>
    obtain ⟨v, own, rest, others, hv, hrest, rfl, rfl⟩ := readAll_cons_eq_some.mp hes
    refine readAll_cons_eq_some.mpr ⟨v, own, rest, others, ?_, ?_, rfl, rfl⟩
    · exact hL.congr hv fun a ha => hk a (List.mem_append_left _ ha)
    · exact ih hrest fun a ha => hk a (List.mem_append_right _ ha)

theorem table_lawful : (table L).Lawful where
  held hx a ha := by
    obtain ⟨b, u, rest, -, hb, hrest, rfl⟩ := table_eq_some.mp hx
    rcases List.mem_cons.mp ha with rfl | ha
    · exact Heap.lt_size_of_get? hb
    · exact readAll_held hL hrest a ha
  congr hx hk := by
    obtain ⟨b, u, rest, rfl, hb, hrest, rfl⟩ := table_eq_some.mp hx
    refine table_eq_some.mpr ⟨b, u, rest, rfl, ?_, ?_, rfl⟩
    · exact (hk b (List.mem_cons_self ..)).trans hb
    · exact readAll_congr hL hrest fun a ha => hk a (List.mem_cons_of_mem b ha)

theorem map_lawful (make : String → α → β) : (map make L).Lawful where
  held hx a ha := by
    obtain ⟨category, y, v, -, hy, -⟩ := map_eq_some.mp hx
    exact hL.held hy a ha
  congr hx hk := by
    obtain ⟨category, y, v, rfl, hy, rfl⟩ := map_eq_some.mp hx
    exact map_eq_some.mpr ⟨category, y, v, rfl, hL.congr hy hk, rfl⟩

end

theorem graded_lawful : graded.Lawful := map_lawful (table_lawful (table_lawful bucket_lawful)) _

theorem ofShape_lawful : ∀ shape, (ofShape shape).Lawful
  | .versioned => map_lawful (table_lawful (table_lawful record_lawful)) fun category shelves =>
      RecordMap.versioned ⟨category, shelves⟩
  | .temperature => map_lawful (table_lawful (table_lawful bucket_lawful)) fun category shelves =>
      RecordMap.temperature ⟨category, shelves⟩
  | .named => map_lawful (table_lawful graded_lawful) fun category maps =>
      RecordMap.named ⟨category, maps⟩

/-- What is read at a reference, when each of the containers is met only once. -/
def Shows (L : Layout α) (h : Heap) (x : Ref) (v : α) (within : List Location) : Prop :=
  L h x = some (v, within) ∧ within.Nodup

theorem Shows.grows (hL : L.Lawful) (hx : L.Shows h x v within) (hk : h.Grows k) :
    L.Shows k x v within :=
  ⟨hL.grows hx.1 hk, hx.2⟩

end Layout

end ScatteringData
