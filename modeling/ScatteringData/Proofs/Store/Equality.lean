import Mathlib
import ScatteringData.Proofs.Store.Copying
import ScatteringData.Store.Equality

/-!
# Clones are equal

A value and its copy agree as far as the records in them do. Hence a record that refers to records
only is equal to its clone. Other objects are equal only to themselves, so a record that refers to
one of them is not.
-/

namespace ScatteringData

variable {d : Duplication} {T : Option Bool → Prop} {records : RecordRef → RecordRef → Option Bool}

namespace Duplication

theorem valueAll_eq_map (d : Duplication) (vs : List Value) : d.valueAll vs = vs.map d.value := by
  induction vs with
  | nil => rfl
  | cons v vs ih => rw [valueAll, ih, List.map_cons]

theorem key?_value {v : Value} (h : ∀ n ∈ v.nodes, ∃ r, n = .record r) :
    (d.value v).key? = v.key? := by
  cases v with
  | object o =>
    obtain ⟨r, hr⟩ := h o.node (List.mem_singleton_self _)
    cases o with
    | record kind r => rfl
    | center c caption => cases hr
    | map shape m => cases hr
    | cache c => cases hr
  | zaids zs m => simp [value, Value.key?]
  | _ => rfl

theorem keys_valueAll {vs : List Value} (h : ∀ n ∈ Value.nodesAll vs, ∃ r, n = .record r) :
    Value.keys (d.valueAll vs) = Value.keys vs := by
  induction vs with
  | nil => rfl
  | cons v vs ih =>
    rw [Value.nodesAll] at h
    have hhead := key?_value (d := d) fun n hn => h n (List.mem_append_left _ hn)
    have htail := ih fun n hn => h n (List.mem_append_right _ hn)
    unfold Value.keys at htail ⊢
    rw [valueAll, List.filterMap_cons, List.filterMap_cons, hhead, htail]

mutual

theorem equalsWith_value (hT : T (some true)) :
    ∀ v : Value, (∀ n ∈ v.nodes, ∃ r, n = .record r ∧ T (records (d.record r) r)) →
      (d.value v).same v = true ∨ T (Value.equalsWith records (d.value v) v)
  | .list vs m, h => by
    -- a copied list has a mark of its own, so its members are compared
    right
    rw [value, Value.equalsWith, valueAll_eq_map, List.length_map, if_pos rfl, ← valueAll_eq_map]
    exact agreeWith_valueAll hT vs h
  | .set vs m, h => by
    right
    have hkeys : Value.keys (d.valueAll vs) = Value.keys vs :=
      keys_valueAll fun n hn => (h n hn).imp fun _ hr => hr.1
    have hall : ((Value.keys vs).all fun k => k ∈ Value.keys vs) = true :=
      List.all_eq_true.mpr fun k hk => decide_eq_true hk
    rw [value, Value.equalsWith, hkeys, hall, beq_self_eq_true]
    exact hT
  | .object (.record kind r), h => by
    right
    obtain ⟨q, hq, hT⟩ := h _ (List.mem_singleton_self _)
    cases hq
    exact hT
  | .object (.center c caption), h => by
    obtain ⟨q, hq, -⟩ := h _ (List.mem_singleton_self _)
    cases hq
  | .object (.map shape m), h => by
    obtain ⟨q, hq, -⟩ := h _ (List.mem_singleton_self _)
    cases hq
  | .object (.cache c), h => by
    obtain ⟨q, hq, -⟩ := h _ (List.mem_singleton_self _)
    cases hq
  | .null, _ | .bool _, _ | .int _ _, _ | .float _ _, _ | .text _ _, _ | .fileType _, _ => by
    left
    simp [value, Value.same]
  | .energy _ _, _ | .temperature _ _, _ | .zaid _ _, _ | .path _ _, _ | .zaids _ _, _ => by
    right
    simpa [value, Value.equalsWith, Value.isNaN, Value.number?, Value.key?, Function.comp_def]
      using hT

theorem agreeWith_valueAll (hT : T (some true)) :
    ∀ vs : List Value, (∀ n ∈ Value.nodesAll vs, ∃ r, n = .record r ∧ T (records (d.record r) r)) →
      T (Value.agreeWith records (d.valueAll vs) vs)
  | [], _ => by
    rw [valueAll, Value.agreeWith]
    · exact hT
    · intro v vs w ws h
      cases h
  | v :: vs, h => by
    rw [Value.nodesAll] at h
    have hhead := equalsWith_value hT v fun n hn => h n (List.mem_append_left _ hn)
    have htail := agreeWith_valueAll hT vs fun n hn => h n (List.mem_append_right _ hn)
    rw [valueAll, Value.agreeWith]
    by_cases hsame : (d.value v).same v = true
    · rw [if_pos hsame]
      exact htail
    · rw [if_neg hsame]
      have hanswer := hhead.resolve_left hsame
      split
      · exact htail
      · exact hanswer

end

theorem values_recordContent (d : Duplication) (r : Record) :
    (d.recordContent r).values = d.valueAll r.values := by
  have hread : ∀ f, ((d.recordContent r).read? f) = (r.read? f).map d.value := by
    intro f
    cases f with
    | further name =>
      unfold Record.read? recordContent
      dsimp only
      induction r.others with
      | nil => rfl
      | cons o os ih =>
        rw [List.map_cons, List.lookup_cons, List.lookup_cons]
        cases name == o.1 with
        | true => rfl
        | false => exact ih
    | _ => rfl
  unfold Record.values
  rw [valueAll_eq_map, List.map_map]
  refine List.map_congr_left fun f _ => ?_
  rw [hread, Function.comp_apply]
  cases r.read? f with
  | none => rfl
  | some v => rfl

end Duplication

theorem Record.mem_nodes_of_values {r : Record} {n : Node} (h : n ∈ Value.nodesAll r.values) :
    n ∈ r.nodes := by
  obtain ⟨v, hv, hn⟩ := Value.mem_nodesAll.mp h
  obtain ⟨f, hf, rfl⟩ := List.mem_map.mp hv
  cases hr : r.read? f with
  | none =>
    rw [hr] at hn
    cases hn
  | some v =>
    rw [hr] at hn
    refine Value.mem_nodesAll.mpr ⟨v, ?_, hn⟩
    cases f with
    | further name =>
      have := List.mem_map_of_mem (f := (·.2)) (mem_of_lookup hr)
      simp [contents, this]
    | _ => simp_all [read?, contents]

namespace Store

variable {s t : Store}

def EndsWithin (s : Store) : Nat → RecordRef → Prop
  | 0, _ => False
  | n + 1, r => ∀ k ∈ (s.record r).nodes, ∃ q, k = .record q ∧ s.EndsWithin n q

theorem recordsEqual_copy (hd : d.Copies s t) (hst : s.Extends t) (hT : T (some true)) {n : Nat}
    {r : RecordRef} (hr : Node.record r ∈ d.places.map (·.1))
    (h : ∀ k ∈ (s.record r).nodes, ∃ q, k = .record q ∧ T (t.recordsEqual n (d.record q) q)) :
    T (t.recordsEqual (n + 1) (d.record r) r) := by
  obtain ⟨p, hp, heq⟩ := List.mem_map.mp hr
  have hheld : s.Holds (.record r) := heq ▸ hd.source p hp
  have hold : t.record r = s.record r := Item.record.inj (hst _ hheld).2
  have hcategory : (d.recordContent (s.record r)).category = (s.record r).category := rfl
  rw [recordsEqual, hd.record_eq hr, hold, Record.equalsWith, if_pos hcategory,
    Duplication.values_recordContent]
  exact Duplication.agreeWith_valueAll hT _ fun k hk => h k (Record.mem_nodes_of_values hk)

/-- A clone does not differ from a record from which only records are reached. -/
theorem recordsEqual_ne_false (hd : d.Copies s t) (hst : s.Extends t) {P : RecordRef → Prop}
    (hP : ∀ r, P r → ∀ k ∈ (s.record r).nodes, ∃ q, k = .record q ∧ P q) (n : Nat) {r : RecordRef}
    (hr : Node.record r ∈ d.places.map (·.1)) (h : P r) :
    t.recordsEqual n (d.record r) r ≠ some false := by
  induction n generalizing r with
  | zero => exact fun h => by cases h
  | succ n ih =>
    refine recordsEqual_copy (T := (· ≠ some false)) hd hst (by decide) hr fun k hk => ?_
    obtain ⟨q, rfl, hq⟩ := hP r h k hk
    exact ⟨q, rfl, ih (hd.saturated _ hr _ (neighbours_eq s _ ▸ hk)) hq⟩

theorem recordsEqual_eq_true (hd : d.Copies s t) (hst : s.Extends t) {n : Nat} {r : RecordRef}
    (hr : Node.record r ∈ d.places.map (·.1)) (h : s.EndsWithin n r) :
    t.recordsEqual n (d.record r) r = some true := by
  induction n generalizing r with
  | zero => exact h.elim
  | succ n ih =>
    refine recordsEqual_copy (T := (· = some true)) hd hst rfl hr fun k hk => ?_
    obtain ⟨q, rfl, hq⟩ := h k hk
    exact ⟨q, rfl, ih (hd.saturated _ hr _ (neighbours_eq s _ ▸ hk)) hq⟩

end Store

end ScatteringData
