import Mathlib
import ScatteringData.RecordMap.Versioned

/-!
# Tables as finite maps

A table in which no two labels have one key is a finite map from keys, with an order that later
contents do not change. Shelves are finite maps of two keys.
-/

namespace ScatteringData

theorem mem_of_lookup {α β : Type} [BEq α] [LawfulBEq α] {xs : List (α × β)} {a : α} {b : β}
    (h : xs.lookup a = some b) : (a, b) ∈ xs := by
  obtain ⟨l₁, l₂, rfl, -⟩ := List.lookup_eq_some_iff.mp h
  exact List.mem_append_right _ (List.mem_cons_self ..)

/-! ## Reading keys -/

theorem Label.ofValue_eq {v : Value} {k : Key} (h : v.key? = some k) :
    Label.ofValue v = .ok ⟨v, k, h⟩ := by
  unfold Label.ofValue
  split
  · rename_i k' h'
    rw [h] at h'
    cases h'
    rfl
  · rename_i h'
    rw [h] at h'
    cases h'

theorem Label.ofValue_shown (l : Label) : Label.ofValue l.shown = .ok l :=
  Label.ofValue_eq l.key_shown

theorem Label.shown_of_ofValue {v : Value} {l : Label} (h : Label.ofValue v = .ok l) :
    l.shown = v := by
  unfold Label.ofValue at h
  split at h
  · cases h
    rfl
  · cases h

theorem Label.key_of_ofValue {v : Value} {l : Label} (h : Label.ofValue v = .ok l) :
    v.key? = some l.key :=
  shown_of_ofValue h ▸ l.key_shown

theorem Value.key_eq {v : Value} {k : Key} (h : v.key? = some k) : v.key = .ok k := by
  simp only [Value.key, h]

theorem Value.key_eq_error {v : Value} (h : v.key? = none) : v.key = .error .wrongType := by
  simp only [Value.key, h]

theorem Value.isNull_eq_false {v : Value} {k : Key} (h : v.key? = some k) (hk : k ≠ .null) :
    v.isNull = false := by
  cases v with
  | null => exact absurd (Option.some.inj h).symm hk
  | _ => rfl

namespace Table

variable {α β σ : Type}

def keys (t : Table α) : List Key := t.entries.map (·.1.key)

def Distinct (t : Table α) : Prop := t.keys.Nodup

theorem find_eq (t : Table α) {v : Value} {k : Key} (h : v.key? = some k) :
    t.find v = .ok (t.get? k) := by
  simp only [find, Value.key_eq h]
  rfl

theorem find_eq_error (t : Table α) {v : Value} (h : v.key? = none) :
    t.find v = .error .wrongType := by
  simp only [find, Value.key_eq_error h]
  rfl

/-! ## Look-ups and members -/

theorem mem_of_get? {t : Table α} {k : Key} {a : α} (h : t.get? k = some a) :
    ∃ l, (l, a) ∈ t.entries ∧ l.key = k := by
  unfold get? at h
  obtain ⟨⟨l, b⟩, hfind, rfl⟩ := Option.map_eq_some_iff.mp h
  exact ⟨l, List.mem_of_find?_eq_some hfind, by simpa using List.find?_some hfind⟩

theorem get?_cons (e : Label × α) (es : List (Label × α)) (k : Key) :
    (⟨e :: es⟩ : Table α).get? k = if e.1.key = k then some e.2 else (⟨es⟩ : Table α).get? k := by
  unfold get?
  rw [List.find?_cons]
  by_cases hk : e.1.key = k
  · rw [if_pos hk, show (e.1.key == k) = true by simpa using hk]
    rfl
  · rw [if_neg hk, show (e.1.key == k) = false by simpa using hk]

theorem get?_of_mem {t : Table α} (ht : t.Distinct) {l : Label} {a : α} (h : (l, a) ∈ t.entries) :
    t.get? l.key = some a := by
  obtain ⟨es⟩ := t
  unfold Distinct keys at ht
  induction es with
  | nil => cases h
  | cons e es ih =>
    simp only [List.map_cons, List.nodup_cons] at ht
    rw [get?_cons]
    rcases List.mem_cons.mp h with rfl | h
    · rw [if_pos rfl]
    · have hne : e.1.key ≠ l.key := fun heq =>
        ht.1 (heq ▸ List.mem_map.mpr ⟨(l, a), h, rfl⟩)
      rw [if_neg hne]
      exact ih ht.2 h

theorem get?_eq_none_iff (t : Table α) (k : Key) : t.get? k = none ↔ k ∉ t.keys := by
  unfold get? keys
  rw [Option.map_eq_none_iff, List.find?_eq_none, List.mem_map]
  constructor
  · rintro h ⟨e, he, rfl⟩
    exact h e he (by simp)
  · intro h e he heq
    exact h ⟨e, he, by simpa using heq⟩

theorem isSome_get?_iff (t : Table α) (k : Key) : (t.get? k).isSome ↔ k ∈ t.keys := by
  rw [Option.isSome_iff_ne_none, ne_eq, get?_eq_none_iff, not_not]

theorem keys_labels (t : Table α) : Value.keys t.labels = t.keys := by
  have h : (Value.key? ∘ fun e : Label × α => e.1.shown) = some ∘ fun e => e.1.key :=
    funext fun e => e.1.key_shown
  unfold Value.keys labels keys
  rw [List.filterMap_map, h, List.filterMap_eq_map]

theorem keys_eq_of_labels {t : Table α} {u : Table β} (h : t.labels = u.labels) :
    t.keys = u.keys := by
  rw [← keys_labels, ← keys_labels, h]

/-! ## Putting -/

theorem keys_putIn (l : Label) (a : α) (es : List (Label × α)) (k : Key) :
    k ∈ (putIn l a es).map (·.1.key) ↔ k = l.key ∨ k ∈ es.map (·.1.key) := by
  induction es with
  | nil => simp [putIn]
  | cons e es ih =>
    unfold putIn
    split
    · rename_i h
      simp only [List.map_cons, List.mem_cons, h]
      tauto
    · simp only [List.map_cons, List.mem_cons, ih]
      tauto

theorem mem_keys_put (t : Table α) (l : Label) (a : α) (k : Key) :
    k ∈ (t.put l a).keys ↔ k = l.key ∨ k ∈ t.keys :=
  keys_putIn l a t.entries k

theorem Distinct.empty : (Table.empty : Table α).Distinct := List.nodup_nil

theorem Distinct.put {t : Table α} (ht : t.Distinct) (l : Label) (a : α) :
    (t.put l a).Distinct := by
  obtain ⟨es⟩ := t
  unfold Distinct keys Table.put at *
  simp only at *
  induction es with
  | nil => simp [putIn]
  | cons e es ih =>
    rw [List.map_cons, List.nodup_cons] at ht
    unfold putIn
    split
    · exact List.nodup_cons.mpr ht
    · rename_i h
      refine List.nodup_cons.mpr ⟨?_, ih ht.2⟩
      intro hm
      rcases (keys_putIn l a es _).mp hm with hk | hk
      · exact h hk
      · exact ht.1 hk

theorem mem_put {t : Table α} {l : Label} {a : α} {e : Label × α} (h : e ∈ (t.put l a).entries) :
    e ∈ t.entries ∨ e.2 = a ∧ e.1.key = l.key ∧ (e.1 = l ∨ e.1 ∈ t.entries.map (·.1)) := by
  obtain ⟨es⟩ := t
  unfold put at h
  simp only at *
  induction es with
  | nil =>
    rw [putIn, List.mem_singleton] at h
    subst h
    exact Or.inr ⟨rfl, rfl, Or.inl rfl⟩
  | cons d es ih =>
    unfold putIn at h
    split at h
    · rename_i hk
      rcases List.mem_cons.mp h with rfl | h
      · exact Or.inr ⟨rfl, hk, Or.inr (by simp)⟩
      · exact Or.inl (List.mem_cons_of_mem _ h)
    · rcases List.mem_cons.mp h with rfl | h
      · exact Or.inl (List.mem_cons_self ..)
      · rcases ih h with h | ⟨h1, h2, h3⟩
        · exact Or.inl (List.mem_cons_of_mem _ h)
        · exact Or.inr ⟨h1, h2, h3.imp_right (List.mem_cons_of_mem _)⟩

theorem mem_contents_put (t : Table α) (l : Label) (a : α) : a ∈ (t.put l a).contents := by
  have hget : (t.put l a).get? l.key = some a := by rw [get?_put, if_pos rfl]
  obtain ⟨l', hmem, -⟩ := mem_of_get? hget
  exact List.mem_map_of_mem hmem

theorem put_of_get? {t : Table α} {l : Label} {a : α} (h : t.get? l.key = some a) :
    t.put l a = t := by
  obtain ⟨es⟩ := t
  unfold put
  congr 1
  induction es with
  | nil => cases h
  | cons e es ih =>
    unfold putIn
    rw [get?_cons] at h
    by_cases hk : e.1.key = l.key
    · rw [if_pos hk] at h ⊢
      rw [← Option.some.inj h]
    · rw [if_neg hk] at h ⊢
      exact congrArg (e :: ·) (ih h)

theorem length_flatMap_put (f : α → List β) (t : Table α) (l : Label) (a : α) :
    ((t.put l a).contents.flatMap f).length + (((t.get? l.key).map f).getD []).length =
      (t.contents.flatMap f).length + (f a).length := by
  obtain ⟨es⟩ := t
  unfold put contents
  induction es with
  | nil => simp [putIn, get?]
  | cons e es ih =>
    dsimp only at ih ⊢
    unfold putIn
    rw [get?_cons]
    by_cases hk : e.1.key = l.key
    · simp only [if_pos hk, List.map_cons, List.flatMap_cons, List.length_append, Option.map_some,
        Option.getD_some]
      omega
    · simp only [if_neg hk, List.map_cons, List.flatMap_cons, List.length_append]
      omega

theorem flatMap_put (f : α → List β) {t : Table α} {l : Label} {a : α}
    (h : f a = ((t.get? l.key).map f).getD []) :
    (t.put l a).contents.flatMap f = t.contents.flatMap f := by
  obtain ⟨es⟩ := t
  unfold put contents
  induction es with
  | nil => simpa [putIn, get?] using h
  | cons e es ih =>
    unfold putIn
    rw [get?_cons] at h
    by_cases hk : e.1.key = l.key
    · rw [if_pos hk] at h ⊢
      exact congrArg (· ++ (es.map (·.2)).flatMap f) h
    · rw [if_neg hk] at h ⊢
      exact congrArg (f e.2 ++ ·) (ih h)

/-! ## Erasing -/

theorem mem_keys_erase (t : Table α) (k k' : Key) :
    k' ∈ (t.erase k).keys ↔ k' ∈ t.keys ∧ k' ≠ k := by
  unfold erase keys
  simp only [List.mem_map, List.mem_filter, decide_eq_true_iff]
  constructor
  · rintro ⟨e, ⟨he, hne⟩, rfl⟩
    exact ⟨⟨e, he, rfl⟩, hne⟩
  · rintro ⟨⟨e, he, rfl⟩, hne⟩
    exact ⟨e, ⟨he, hne⟩, rfl⟩

theorem get?_erase (t : Table α) {k k' : Key} (h : k' ≠ k) : (t.erase k).get? k' = t.get? k' := by
  unfold erase get?
  rw [List.find?_filter]
  congr 2
  funext e
  by_cases he : e.1.key = k'
  · simp [he, h]
  · simp [he]

theorem keys_erase (t : Table α) (k : Key) : (t.erase k).keys = t.keys.filter (· ≠ k) := by
  unfold erase keys
  rw [List.filter_map]
  rfl

theorem Distinct.filter {t : Table α} (ht : t.Distinct) (p : Label × α → Bool) :
    (⟨t.entries.filter p⟩ : Table α).Distinct :=
  List.Nodup.sublist (List.filter_sublist.map _) ht

theorem Distinct.erase {t : Table α} (ht : t.Distinct) (k : Key) : (t.erase k).Distinct :=
  ht.filter _

theorem size_erase {t : Table α} (ht : t.Distinct) {k : Key} (hk : k ∈ t.keys) :
    (t.erase k).size + 1 = t.size := by
  have hsize : ∀ u : Table α, u.size = u.keys.length := fun u => (List.length_map _).symm
  have hfilter : t.keys.filter (· ≠ k) = t.keys.erase k := by
    rw [List.Nodup.erase_eq_filter ht]
    congr 1
    funext j
    by_cases hj : j = k <;> simp [hj]
  rw [hsize, hsize, keys_erase, hfilter, List.length_erase_of_mem hk]
  exact Nat.sub_add_cancel (List.length_pos_of_mem hk)

theorem get?_filter {t : Table α} (ht : t.Distinct) (p : α → Bool) (k : Key) :
    (⟨t.entries.filter fun e => p e.2⟩ : Table α).get? k = (t.get? k).filter p := by
  cases ha : t.get? k with
  | none =>
    rw [get?_eq_none_iff] at ha
    refine (get?_eq_none_iff _ _).mpr fun hk => ?_
    obtain ⟨e, he, rfl⟩ := List.mem_map.mp hk
    exact ha (List.mem_map_of_mem (List.mem_of_mem_filter he))
  | some a =>
    obtain ⟨l, hl, rfl⟩ := mem_of_get? ha
    cases hp : p a with
    | true =>
      rw [Option.filter_some_pos hp]
      exact get?_of_mem (ht.filter _) (List.mem_filter.mpr ⟨hl, hp⟩)
    | false =>
      rw [Option.filter_some_neg (by simp [hp])]
      refine (get?_eq_none_iff _ _).mpr fun hk => ?_
      obtain ⟨e, he, heq⟩ := List.mem_map.mp hk
      obtain ⟨he, hpe⟩ := List.mem_filter.mp he
      -- the entry with this key is the one whose content was refused
      have hsame := get?_of_mem ht he
      rw [heq, ha] at hsame
      rw [← Option.some.inj hsame, hp] at hpe
      cases hpe

end Table

namespace Shelves

variable {α : Type}

def at? (s : Shelves α) (k₁ k₂ : Key) : Option α := (Table.get? s k₁).bind fun shelf => shelf.get? k₂

def putAt (s : Shelves α) (l₁ l₂ : Label) (a : α) : Shelves α :=
  Table.put s l₁ (((Table.get? s l₁.key).getD Table.empty).put l₂ a)

theorem at?_putAt (s : Shelves α) (l₁ l₂ : Label) (a : α) (k₁ k₂ : Key) :
    (s.putAt l₁ l₂ a).at? k₁ k₂ =
      if l₁.key = k₁ ∧ l₂.key = k₂ then some a else s.at? k₁ k₂ := by
  unfold at? putAt
  rw [Table.get?_put]
  by_cases h₁ : l₁.key = k₁
  · subst h₁
    rw [if_pos rfl, Option.bind_some, Table.get?_put]
    by_cases h₂ : l₂.key = k₂
    · rw [if_pos h₂, if_pos ⟨rfl, h₂⟩]
    · rw [if_neg h₂, if_neg (fun h => h₂ h.2)]
      cases Table.get? s l₁.key with
      | none => rfl
      | some shelf => rfl
  · rw [if_neg h₁, if_neg (fun h => h₁ h.1)]

theorem length_flatMap_putAt {β : Type} (f : α → List β) (s : Shelves α) (l₁ l₂ : Label) (a : α) :
    ((s.putAt l₁ l₂ a).items.flatMap f).length + (((s.at? l₁.key l₂.key).map f).getD []).length =
      (s.items.flatMap f).length + (f a).length := by
  have hitems : ∀ s : Shelves α, s.items.flatMap f =
      (Table.contents s).flatMap fun shelf => shelf.contents.flatMap f := fun s => by
    rw [items, List.flatMap_assoc]
  have houter := Table.length_flatMap_put (fun shelf => shelf.contents.flatMap f) s l₁
    (((Table.get? s l₁.key).getD Table.empty).put l₂ a)
  have hinner := Table.length_flatMap_put f ((Table.get? s l₁.key).getD Table.empty) l₂ a
  rw [hitems, hitems, putAt, at?]
  cases hs : Table.get? s l₁.key with
  | none =>
    have hempty : ((Table.empty : Table α).contents.flatMap f).length = 0 := rfl
    simp only [hs, Option.getD_none, Option.map_none, Option.bind_none, Table.get?_empty, hempty,
      List.length_nil] at hinner houter ⊢
    omega
  | some shelf =>
    simp only [hs, Option.getD_some, Option.map_some, Option.bind_some] at hinner houter ⊢
    omega

/-! ## Queries -/

section
variable (s : Shelves α) (category : String) {fileType version : Value} {k₁ k₂ : Key}

theorem get_eq (h₁ : fileType.key? = some k₁) (h₂ : version.key? = some k₂) :
    s.get category fileType version =
      match s.at? k₁ k₂ with
      | some a => .ok a
      | none => .error (.raised (.request (.unknownVersion category fileType version))) := by
  unfold Shelves.get at?
  rw [Table.find_eq s h₁]
  cases hs : Table.get? s k₁ with
  | none => rfl
  | some shelf =>
    simp only [bind, Except.bind, Table.find_eq shelf h₂, Option.bind_some]
    cases shelf.get? k₂ with
    | none => rfl
    | some a => rfl

theorem available_eq_isSome (h₁ : fileType.key? = some k₁) (hk₁ : k₁ ≠ .null)
    (h₂ : version.key? = some k₂) (hk₂ : k₂ ≠ .null) :
    s.available fileType version = .ok (s.at? k₁ k₂).isSome := by
  unfold Shelves.available at?
  rw [Value.isNull_eq_false h₁ hk₁, Value.isNull_eq_false h₂ hk₂, Table.find_eq s h₁]
  cases hs : Table.get? s k₁ with
  | none => rfl
  | some shelf =>
    simp only [bind, Except.bind, Bool.false_eq_true, if_false, Table.find_eq shelf h₂,
      Option.bind_some]
    rfl

theorem available_null_eq (h₁ : fileType.key? = some k₁) (hk₁ : k₁ ≠ .null) :
    s.available fileType .null = .ok (Table.get? s k₁).isSome := by
  unfold Shelves.available
  rw [Value.isNull_eq_false h₁ hk₁, Table.find_eq s h₁]
  cases Table.get? s k₁ with
  | none => rfl
  | some shelf => rfl

theorem versions_eq_labels (h₁ : fileType.key? = some k₁) :
    s.versions fileType = .ok (((Table.get? s k₁).map Table.labels).getD []) := by
  unfold Shelves.versions
  rw [Table.find_eq s h₁]
  cases Table.get? s k₁ with
  | none => rfl
  | some shelf => rfl

end

end Shelves

end ScatteringData
