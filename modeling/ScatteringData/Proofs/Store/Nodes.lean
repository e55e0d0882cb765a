import Mathlib
import ScatteringData.Proofs.Record.Built
import ScatteringData.Proofs.Table
import ScatteringData.Proofs.Bucket.Ascending
import ScatteringData.Store.Operation

/-!
# References in maps and records

A change of a map adds references to the record that is set and to what its keys refer to, and no
others. The same holds of the fields of a record that is built or written.
-/

namespace ScatteringData

variable {P : Node → Prop}

/-! ## Values and records -/

theorem Value.mem_nodesAll {vs : List Value} {n : Node} :
    n ∈ Value.nodesAll vs ↔ ∃ v ∈ vs, n ∈ v.nodes := by
  induction vs with
  | nil => simp [Value.nodesAll]
  | cons v vs ih => simp [Value.nodesAll, ih]

namespace Record

def Within (P : Node → Prop) (r : Record) : Prop := ∀ v ∈ r.contents, ∀ n ∈ v.nodes, P n

theorem within_iff {r : Record} : r.Within P ↔ ∀ n ∈ r.nodes, P n := by
  unfold Within Record.nodes
  simp only [Value.mem_nodesAll]
  constructor
  · rintro h n ⟨v, hv, hn⟩
    exact h v hv n hn
  · intro h v hv n hn
    exact h n ⟨v, hv, hn⟩

variable {r : Record}

theorem Within.fileType (h : r.Within P) : ∀ n ∈ r.fileType.nodes, P n :=
  h _ (by simp [contents])

theorem Within.fileVersion (h : r.Within P) : ∀ n ∈ r.fileVersion.nodes, P n :=
  h _ (by simp [contents])

theorem Within.name (h : r.Within P) {v : Value} (hv : r.name = some v) : ∀ n ∈ v.nodes, P n :=
  h _ (by simp [contents, hv])

theorem mem_contents_write {f : Field} {v w : Value} (h : w ∈ (r.write f v).contents) :
    w = v ∨ w ∈ r.contents := by
  unfold contents at h ⊢
  simp only [List.mem_append, List.mem_cons, Option.mem_toList, List.mem_map] at h ⊢
  cases f <;> simp only [Record.write] at h <;> grind

theorem Within.write (h : r.Within P) (f : Field) {v : Value} (hv : ∀ n ∈ v.nodes, P n) :
    (r.write f v).Within P := by
  intro w hw
  rcases mem_contents_write hw with rfl | hw
  · exact hv
  · exact h w hw

theorem nodes_lookup {given : List (Field × Value)} (hgiven : ∀ g ∈ given, ∀ n ∈ g.2.nodes, P n)
    (f : Field) {absent : Value} (habsent : absent.nodes = []) :
    ∀ n ∈ ((given.lookup f).getD absent).nodes, P n := by
  cases h : given.lookup f with
  | none =>
    intro n hn
    rw [Option.getD_none, habsent] at hn
    cases hn
  | some v => exact hgiven (f, v) (mem_of_lookup h)

theorem within_of_build {c : Category} {mark : Mark} {given : List (Field × Value)}
    (h : build c mark given = .ok r) (hgiven : ∀ g ∈ given, ∀ n ∈ g.2.nodes, P n) : r.Within P := by
  have hversion := nodes_lookup hgiven .fileVersion (show Value.null.nodes = [] from rfl)
  have hline := nodes_lookup hgiven .fileStartLine (show (Value.int 0 .shared).nodes = [] from rfl)
  have htable := nodes_lookup hgiven .tableName (show (Value.text "" .shared).nodes = [] from rfl)
  have hname := nodes_lookup hgiven .name (show Value.null.nodes = [] from rfl)
  unfold build at h
  simp only [except_bind_eq_ok] at h
  obtain ⟨-, -, z, -, t, -, n, -, p, -, h⟩ := h
  unfold Within contents
  split at h
  · cases h
    simpa [Value.nodes, or_imp, forall_and] using ⟨hversion, hline, htable⟩
  · simp only [except_bind_eq_ok] at h
    obtain ⟨e, -, h⟩ := h
    cases h
    simpa [Value.nodes, or_imp, forall_and] using ⟨hversion, hline, htable⟩
  · simp only [except_bind_eq_ok] at h
    obtain ⟨e, -, zs, -, h⟩ := h
    cases h
    simpa [Value.nodes, or_imp, forall_and] using ⟨hversion, hline, htable, hname⟩

end Record

/-! ## Tables -/

namespace Table

variable {α : Type} {content : α → List Node} {t : Table α}

theorem mem_nodes {n : Node} :
    n ∈ t.nodes content ↔ ∃ e ∈ t.entries, n ∈ e.1.shown.nodes ∨ n ∈ content e.2 := by
  simp [Table.nodes]

theorem nodes_empty : (Table.empty : Table α).nodes content = [] := rfl

theorem nodes_get? {k : Key} {a : α} (h : ∀ n ∈ t.nodes content, P n) (ha : t.get? k = some a) :
    ∀ n ∈ content a, P n := by
  obtain ⟨l, hl, -⟩ := mem_of_get? ha
  exact fun n hn => h n (mem_nodes.mpr ⟨_, hl, Or.inr hn⟩)

theorem nodes_put {l : Label} {a : α} (h : ∀ n ∈ t.nodes content, P n)
    (hl : ∀ n ∈ l.shown.nodes, P n) (ha : ∀ n ∈ content a, P n) :
    ∀ n ∈ (t.put l a).nodes content, P n := by
  intro n hn
  obtain ⟨e, he, hn⟩ := mem_nodes.mp hn
  rcases mem_put he with he | ⟨hcontent, -, hlabel⟩
  · exact h n (mem_nodes.mpr ⟨e, he, hn⟩)
  · rcases hn with hn | hn
    · rcases hlabel with heq | hmem
      · exact hl n (heq ▸ hn)
      · obtain ⟨e', he', heq⟩ := List.mem_map.mp hmem
        exact h n (mem_nodes.mpr ⟨e', he', Or.inl (heq ▸ hn)⟩)
    · exact ha n (hcontent ▸ hn)

theorem nodes_sublist {t' : Table α} (hsub : ∀ e ∈ t'.entries, e ∈ t.entries)
    (h : ∀ n ∈ t.nodes content, P n) : ∀ n ∈ t'.nodes content, P n := by
  intro n hn
  obtain ⟨e, he, hn⟩ := mem_nodes.mp hn
  exact h n (mem_nodes.mpr ⟨e, hsub e he, hn⟩)

end Table

/-! ## Maps of records -/

theorem Shelves.nodes_shelf {α : Type} {content : α → List Node} {s : Shelves α} {k : Key}
    (h : ∀ n ∈ Table.nodes (Table.nodes content) s, P n) :
    ∀ n ∈ ((Table.get? s k).getD Table.empty).nodes content, P n := by
  cases hs : Table.get? s k with
  | none => exact fun n hn => by cases hn
  | some shelf => exact Table.nodes_get? h hs

section
variable {ref : RecordRef} {r : Record}

theorem VersionedMap.nodes_set {m : VersionedMap} (h : ∀ n ∈ (RecordMap.versioned m).nodes, P n)
    (href : P (.record ref)) (hr : r.Within P) :
    ∀ n ∈ (RecordMap.versioned (m.set ref r).1).nodes, P n := by
  have hshelf := fun k => Shelves.nodes_shelf (k := k) h
  unfold VersionedMap.set
  split
  · exact h
  · rename_i fileType hft
    have hl := Label.shown_of_ofValue hft ▸ hr.fileType
    split
    · exact Table.nodes_put h hl (hshelf _)
    · rename_i version hfv
      have hl' := Label.shown_of_ofValue hfv ▸ hr.fileVersion
      refine Table.nodes_put h hl (Table.nodes_put (hshelf _) hl' ?_)
      intro n hn
      rw [List.mem_singleton] at hn
      exact hn ▸ href

theorem Bucket.mem_insert {e : Energy} {es : List (Energy × RecordRef)} {x : Energy × RecordRef}
    (hx : x ∈ Bucket.insert e ref es) : x.2 = ref ∨ x ∈ es := by
  induction es with
  | nil =>
    rw [Bucket.insert, List.mem_singleton] at hx
    exact Or.inl (hx ▸ rfl)
  | cons y es ih =>
    unfold Bucket.insert at hx
    split at hx
    · rcases List.mem_cons.mp hx with rfl | hx
      · exact Or.inl rfl
      · exact Or.inr hx
    · split at hx
      · rcases List.mem_cons.mp hx with rfl | hx
        · exact Or.inl rfl
        · exact Or.inr (List.mem_cons_of_mem _ hx)
      · rcases List.mem_cons.mp hx with rfl | hx
        · exact Or.inr (List.mem_cons_self ..)
        · exact (ih hx).imp_right (List.mem_cons_of_mem _)

theorem Bucket.mem_nodes_graded {es : List (Energy × RecordRef)} {n : Node} :
    n ∈ (Bucket.graded es).nodes ↔ ∃ x ∈ es, n = .record x.2 := by
  simp [Bucket.nodes, Bucket.records, eq_comm]

theorem Bucket.nodes_set {b b' : Bucket} {g : Grade} {replaced : Bool} (h : ∀ n ∈ b.nodes, P n)
    (href : P (.record ref)) (hb : b.set g ref = .ok (b', replaced)) : ∀ n ∈ b'.nodes, P n := by
  cases b with
  | lone text q => cases hb
  | graded es =>
    cases g with
    | energy e =>
      rw [Bucket.set_energy] at hb
      cases hb
      intro n hn
      obtain ⟨x, hx, rfl⟩ := Bucket.mem_nodes_graded.mp hn
      rcases Bucket.mem_insert hx with heq | hx
      · exact heq ▸ href
      · exact h _ (Bucket.mem_nodes_graded.mpr ⟨x, List.mem_of_mem_eraseP hx, rfl⟩)
    | text t =>
      cases es with
      | nil =>
        cases hb
        intro n hn
        rw [Bucket.nodes, Bucket.records, List.map_singleton, List.mem_singleton] at hn
        exact hn ▸ href
      | cons x es => cases hb

theorem TemperatureMap.nodes_set {m : TemperatureMap} (h : ∀ n ∈ m.nodes, P n)
    (href : P (.record ref)) (hr : r.Within P) : ∀ n ∈ (m.set ref r).1.nodes, P n := by
  have hshelf := fun k => Shelves.nodes_shelf (k := k) h
  have hbucket : ∀ k k', ∀ n ∈ ((((Table.get? m.shelves k).getD Table.empty).get? k').getD
      Bucket.empty).nodes, P n := by
    intro k k'
    cases hb : ((Table.get? m.shelves k).getD Table.empty).get? k' with
    | none => exact fun n hn => by cases hn
    | some b => exact Table.nodes_get? (hshelf k) hb
  unfold TemperatureMap.set
  split
  · exact h
  · rename_i fileType hft
    have hl := Label.shown_of_ofValue hft ▸ hr.fileType
    split
    · exact Table.nodes_put h hl (hshelf _)
    · rename_i version hfv
      have hl' := Label.shown_of_ofValue hfv ▸ hr.fileVersion
      split
      · exact Table.nodes_put h hl (Table.nodes_put (hshelf _) hl' (hbucket _ _))
      · dsimp only
        split
        · exact Table.nodes_put h hl (Table.nodes_put (hshelf _) hl' (hbucket _ _))
        · rename_i b replaced hb
          have hb := Bucket.nodes_set (hbucket _ _) href hb
          exact Table.nodes_put h hl (Table.nodes_put (hshelf _) hl' hb)

theorem NamedMap.nodes_inner {m : NamedMap} {l : Label} {x : TemperatureMap}
    (h : ∀ n ∈ (RecordMap.named m).nodes, P n) (hx : m.inner l = .ok x) : ∀ n ∈ x.nodes, P n := by
  rcases NamedMap.inner_eq_ok hx with hs | ⟨-, category, rfl⟩
  · exact Table.nodes_get? h hs
  · exact fun n hn => by cases hn

theorem NamedMap.nodes_set {m : NamedMap} (h : ∀ n ∈ (RecordMap.named m).nodes, P n)
    (href : P (.record ref)) (hr : r.Within P) :
    ∀ n ∈ (RecordMap.named (m.set ref r).1).nodes, P n := by
  rcases m.set_cases ref r with ⟨f, heq⟩ | ⟨name, l, x, hname, hlabel, hx, heq⟩
  · exact heq ▸ h
  · have hl := Label.shown_of_ofValue hlabel ▸ hr.name hname
    rw [heq]
    exact Table.nodes_put h hl (TemperatureMap.nodes_set (NamedMap.nodes_inner h hx) href hr)

theorem NamedMap.nodes_setUnusable {m : NamedMap} {name : Value}
    (h : ∀ n ∈ (RecordMap.named m).nodes, P n) (hname : ∀ n ∈ name.nodes, P n) :
    ∀ n ∈ (RecordMap.named (m.setUnusable name).1).nodes, P n := by
  rcases m.setUnusable_cases name with ⟨f, heq⟩ | ⟨l, x, hlabel, hx, heq⟩
  · exact heq ▸ h
  · rw [heq]
    exact Table.nodes_put h (Label.shown_of_ofValue hlabel ▸ hname) (NamedMap.nodes_inner h hx)

theorem RecordMap.nodes_set {m : RecordMap} (h : ∀ n ∈ m.nodes, P n) (href : P (.record ref))
    (hr : r.Within P) : ∀ n ∈ (m.set ref r).1.nodes, P n := by
  cases m with
  | versioned m => exact VersionedMap.nodes_set h href hr
  | temperature m => exact TemperatureMap.nodes_set h href hr
  | named m => exact NamedMap.nodes_set h href hr

theorem RecordMap.nodes_followed {s : Store} {old : RecordMap} {change : RecordMap × Outcome Unit}
    (h : ∀ n ∈ old.nodes, P n) (hnew : ∀ n ∈ change.1.nodes, P n) :
    ∀ n ∈ (s.followed old change).1.nodes, P n := by
  unfold Store.followed Outcome.heard
  split
  · split
    · exact hnew
    · dsimp only
      split
      · exact h
      · exact hnew
  · exact hnew

theorem RecordMap.mem_nodes_of_mem_records {m : RecordMap} (hr : ref ∈ m.records) :
    Node.record ref ∈ m.nodes := by
  have hbucket : ∀ {b : Bucket}, ref ∈ b.records → Node.record ref ∈ b.nodes := fun h =>
    List.mem_map_of_mem h
  have htemperature : ∀ {m : TemperatureMap}, ref ∈ m.records → Node.record ref ∈ m.nodes := by
    intro m hr
    obtain ⟨b, hb, hr⟩ := List.mem_flatMap.mp hr
    obtain ⟨shelf, hs, hb⟩ := List.mem_flatMap.mp hb
    obtain ⟨e, he, rfl⟩ := List.mem_map.mp hs
    obtain ⟨c, hc, rfl⟩ := List.mem_map.mp hb
    exact Table.mem_nodes.mpr ⟨e, he, Or.inr (Table.mem_nodes.mpr ⟨c, hc, Or.inr (hbucket hr)⟩)⟩
  cases m with
  | versioned m =>
    obtain ⟨shelf, hs, hr⟩ := List.mem_flatMap.mp hr
    obtain ⟨e, he, rfl⟩ := List.mem_map.mp hs
    obtain ⟨c, hc, rfl⟩ := List.mem_map.mp hr
    refine Table.mem_nodes.mpr ⟨e, he, Or.inr (Table.mem_nodes.mpr ⟨c, hc, Or.inr ?_⟩)⟩
    exact List.mem_singleton_self _
  | temperature m => exact htemperature hr
  | named m =>
    obtain ⟨inner, hi, hr⟩ := List.mem_flatMap.mp hr
    obtain ⟨e, he, rfl⟩ := List.mem_map.mp hi
    exact Table.mem_nodes.mpr ⟨e, he, Or.inr (htemperature hr)⟩

theorem RecordMap.nodes_empty (shape : Shape) (category : String) :
    (RecordMap.empty shape category).nodes = [] := by
  cases shape <;> rfl

end

end ScatteringData
