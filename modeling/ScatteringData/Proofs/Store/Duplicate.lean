import Mathlib
import ScatteringData.Proofs.Store.Item
import ScatteringData.Proofs.Store.Nodes

/-!
# What duplicating a record does

The object and all that it refers to are added once more, and references in the copies lead to
copies. All other objects stay as they are, so a closed store stays closed.
-/

namespace ScatteringData

namespace Duplication

variable {P Q : Node → Prop} {d : Duplication}

def item (d : Duplication) : Item → Item
  | .record r => .record (d.recordContent r)
  | .atom a => .atom (d.atomContent a)
  | .nuclide n => .nuclide (d.nuclideContent n)
  | .map m => .map (d.mapObject m)
  | .cache c => .cache (d.cacheContent c)

theorem contents_recordContent (d : Duplication) (r : Record) :
    (d.recordContent r).contents = r.contents.map d.value := by
  unfold Record.contents recordContent
  cases r.evaluationTemperature <;> cases r.name <;> cases r.zaids <;> simp

/-! ## References of copies -/

structure Maps (d : Duplication) (P Q : Node → Prop) : Prop where
  record : ∀ r, P (.record r) → Q (.record (d.record r))
  atom : ∀ a, P (.center (.atom a)) → Q (.center (.atom (d.atom a)))
  center : ∀ c, P (.center c) → Q (.center (d.center c))
  map : ∀ m, P (.map m) → Q (.map (d.map m))
  cache : ∀ c, P (.cache c) → Q (.cache (d.cache c))

/-- What holds of all copies still holds where references are replaced by copies. -/
theorem maps_self (hd : ∀ p ∈ d.places, P p.2) : d.Maps P P where
  record r h := by
    unfold Duplication.record
    split
    · rename_i q hq
      exact hd _ (mem_of_lookup hq)
    · exact h
  atom a h := by
    unfold Duplication.atom
    split
    · rename_i b hb
      exact hd _ (mem_of_lookup hb)
    · exact h
  center c h := by
    unfold Duplication.center
    split
    · rename_i b hb
      exact hd _ (mem_of_lookup hb)
    · exact h
  map m h := by
    unfold Duplication.map
    split
    · rename_i n hn
      exact hd _ (mem_of_lookup hn)
    · exact h
  cache c h := by
    unfold Duplication.cache
    split
    · rename_i b hb
      exact hd _ (mem_of_lookup hb)
    · exact h

theorem Maps.object (hd : d.Maps P Q) {o : Object} (h : P o.node) : Q (d.object o).node := by
  cases o with
  | record kind r => exact hd.record r h
  | center c caption => exact hd.center c h
  | map shape m => exact hd.map m h
  | cache c => exact hd.cache c h

mutual

theorem nodes_value (hd : d.Maps P Q) :
    ∀ v : Value, (∀ n ∈ v.nodes, P n) → ∀ n ∈ (d.value v).nodes, Q n
  | .list vs _, h => nodes_valueAll hd vs h
  | .set vs _, h => nodes_valueAll hd vs h
  | .object o, h => by
    intro n hn
    rw [value, Value.nodes, List.mem_singleton] at hn
    exact hn ▸ hd.object (h _ (List.mem_singleton_self _))
  | .null, _ | .bool _, _ | .int _ _, _ | .float _ _, _ | .text _ _, _ | .fileType _, _
  | .energy _ _, _ | .temperature _ _, _ | .zaid _ _, _ | .path _ _, _ | .zaids _ _, _ =>
    fun n hn => by cases hn

theorem nodes_valueAll (hd : d.Maps P Q) :
    ∀ vs : List Value, (∀ n ∈ Value.nodesAll vs, P n) →
      ∀ n ∈ Value.nodesAll (d.valueAll vs), Q n
  | [], _ => fun n hn => by cases hn
  | v :: vs, h => by
    intro n hn
    rw [valueAll, Value.nodesAll, List.mem_append] at hn
    rw [Value.nodesAll] at h
    rcases hn with hn | hn
    · exact nodes_value hd v (fun k hk => h k (List.mem_append_left _ hk)) n hn
    · exact nodes_valueAll hd vs (fun k hk => h k (List.mem_append_right _ hk)) n hn

end

section
variable (hd : d.Maps P Q)
include hd

theorem nodes_table {α : Type} {content : α → List Node} {copy : α → α}
    (hcopy : ∀ a, (∀ n ∈ content a, P n) → ∀ n ∈ content (copy a), Q n) {t : Table α}
    (h : ∀ n ∈ t.nodes content, P n) : ∀ n ∈ (d.table copy t).nodes content, Q n := by
  intro n hn
  obtain ⟨e, he, hor⟩ := Table.mem_nodes.mp hn
  obtain ⟨e', he', rfl⟩ := List.mem_map.mp he
  have hold : ∀ k, k ∈ e'.1.shown.nodes ∨ k ∈ content e'.2 → P k := fun k hk =>
    h k (Table.mem_nodes.mpr ⟨e', he', hk⟩)
  rcases hor with hlabel | hcontent
  · exact nodes_value hd e'.1.shown (fun k hk => hold k (Or.inl hk)) n hlabel
  · exact hcopy e'.2 (fun k hk => hold k (Or.inr hk)) n hcontent

theorem nodes_bucket (b : Bucket) (h : ∀ n ∈ b.nodes, P n) : ∀ n ∈ (d.bucket b).nodes, Q n := by
  cases b with
  | graded es =>
    intro n hn
    obtain ⟨x, hx, rfl⟩ := Bucket.mem_nodes_graded.mp hn
    obtain ⟨y, hy, rfl⟩ := List.mem_map.mp hx
    exact hd.record _ (h _ (Bucket.mem_nodes_graded.mpr ⟨y, hy, rfl⟩))
  | lone text r =>
    intro n hn
    rw [bucket, Bucket.nodes, Bucket.records, List.map_singleton, List.mem_singleton] at hn
    exact hn ▸ hd.record _ (h _ (List.mem_singleton_self _))

theorem nodes_temperatureMap (m : TemperatureMap) (h : ∀ n ∈ m.nodes, P n) :
    ∀ n ∈ (d.temperatureMap m).nodes, Q n :=
  nodes_table hd (fun _ hs => nodes_table hd (nodes_bucket hd) hs) h

theorem nodes_recordMap (m : RecordMap) (h : ∀ n ∈ m.nodes, P n) :
    ∀ n ∈ (d.recordMap m).nodes, Q n := by
  cases m with
  | versioned m =>
    refine nodes_table hd (fun _ hs => nodes_table hd (fun r hr => ?_) hs) h
    intro n hn
    rw [List.mem_singleton] at hn
    exact hn ▸ hd.record _ (hr _ (List.mem_singleton_self _))
  | temperature m => exact nodes_temperatureMap hd m h
  | named m => exact nodes_table hd (nodes_temperatureMap hd) h

theorem within_recordContent {r : Record} (h : r.Within P) : (d.recordContent r).Within Q := by
  intro w hw
  rw [contents_recordContent, List.mem_map] at hw
  obtain ⟨v, hv, rfl⟩ := hw
  exact nodes_value hd v (h v hv)

theorem nodes_item {i : Item} (h : ∀ n ∈ i.nodes, P n) : ∀ n ∈ (d.item i).nodes, Q n := by
  cases i with
  | record r => exact Record.within_iff.mp (within_recordContent hd (Record.within_iff.mpr h))
  | map m =>
    intro n hn
    rcases List.mem_append.mp hn with hn | hn
    · exact nodes_value hd m.category (fun k hk => h k (List.mem_append_left _ hk)) n hn
    · exact nodes_recordMap hd m.content (fun k hk => h k (List.mem_append_right _ hk)) n hn
  | cache c =>
    intro n hn
    rcases List.mem_append.mp hn with hn | hn
    · refine nodes_table hd (fun o ho k hk => ?_) (fun k hk => h k (List.mem_append_left _ hk)) n hn
      rw [List.mem_singleton] at hk
      exact hk ▸ hd.object (ho _ (List.mem_singleton_self _))
    · exact nodes_table hd (nodes_value hd) (fun k hk => h k (List.mem_append_right _ hk)) n hn
  | atom a =>
    intro n hn
    rcases List.mem_append.mp hn with hn | hn
    · exact nodes_value hd a.identity.name (fun k hk => h k (List.mem_append_left _ hk)) n hn
    · obtain ⟨c, hc, hn⟩ := List.mem_flatMap.mp hn
      have hget : (d.atomContent a).maps.get c = d.recordMap (a.maps.get c) := by cases c <;> rfl
      rw [hget] at hn
      refine nodes_recordMap hd (a.maps.get c) (fun k hk => ?_) n hn
      exact h k (List.mem_append_right _ (List.mem_flatMap.mpr ⟨c, hc, hk⟩))
  | nuclide x =>
    intro n hn
    rcases List.mem_append.mp hn with hn | hn
    · exact nodes_value hd x.identity.name (fun k hk => h k (List.mem_append_left _ hk)) n hn
    · rcases List.mem_cons.mp hn with rfl | hn
      · exact hd.atom _ (h _ (List.mem_append_right _ (List.mem_cons_self ..)))
      · obtain ⟨c, hc, hn⟩ := List.mem_flatMap.mp hn
        have hget : (d.nuclideContent x).maps.get c = d.recordMap (x.maps.get c) := by
          cases c <;> rfl
        rw [hget] at hn
        refine nodes_recordMap hd (x.maps.get c) (fun k hk => h k ?_) n hn
        refine List.mem_append_right _ (List.mem_cons_of_mem _ ?_)
        exact List.mem_flatMap.mpr ⟨c, hc, hk⟩

end

end Duplication

end ScatteringData
