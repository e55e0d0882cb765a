import Mathlib
import ScatteringData.Proofs.RecordMap.Placements
import ScatteringData.Proofs.Store.Equality

/-!
# Placements in duplicates

The duplicate of a map has the duplicates of all keys. Where only the records of a map are cloned its
keys stay, and so they are still the fields of the clones, but for names that refer to objects.
-/

namespace ScatteringData

namespace Duplication

variable (d : Duplication)

def node : Node → Node
  | .record r => .record (d.record r)
  | .center c => .center (d.center c)
  | .map m => .map (d.map m)
  | .cache c => .cache (d.cache c)

def key : Key → Key
  | .object n => .object (d.node n)
  | k => k

def placement (p : Placement) : Placement :=
  ⟨p.name.map d.key, d.key p.fileType, d.key p.version, p.energy, d.record p.record⟩

theorem node_object (o : Object) : (d.object o).node = d.node o.node := by
  cases o <;> rfl

theorem key?_copy (v : Value) : (d.value v).key? = v.key?.map d.key := by
  cases v with
  | object o => cases o <;> rfl
  | float x m =>
    change (Value.float x m).key? = _
    rw [Value.key?]
    cases x.isNaN with
    | true => rfl
    | false => rfl
  | zaids zs m => simp [value, Value.key?, key]
  | _ => rfl

theorem key_label (l : Label) : (d.label l).key = d.key l.key := by
  have h := (d.label l).key_shown
  change (d.value l.shown).key? = _ at h
  rw [key?_copy, l.key_shown] at h
  exact (Option.some.inj h).symm

mutual

theorem nodes_copy : ∀ v : Value, (d.value v).nodes = v.nodes.map d.node
  | .list vs _ => nodesAll_copy vs
  | .set vs _ => nodesAll_copy vs
  | .object o => by
    rw [value, Value.nodes, Value.nodes, node_object]
    rfl
  | .null | .bool _ | .int _ _ | .float _ _ | .text _ _ | .fileType _
  | .energy _ _ | .temperature _ _ | .zaid _ _ | .path _ _ | .zaids _ _ => rfl

theorem nodesAll_copy :
    ∀ vs : List Value, Value.nodesAll (d.valueAll vs) = (Value.nodesAll vs).map d.node
  | [] => rfl
  | v :: vs => by
    rw [valueAll, Value.nodesAll, Value.nodesAll, List.map_append, nodes_copy v, nodesAll_copy vs]

end

/-! ## The duplicate of a map -/

theorem spots_table {α : Type} (content : α → α) (s : Shelves α) :
    Shelves.spots (d.table (d.table content) s) =
      s.spots.map fun x => (d.key x.1, d.key x.2.1, content x.2.2) := by
  simp only [Shelves.spots, table, List.flatMap_map, List.map_flatMap, List.map_map,
    Function.comp_def, key_label]

theorem placed_bucket (b : Bucket) : (d.bucket b).placed = b.placed.map fun x => (x.1, d.record x.2) := by
  cases b with
  | graded es => simp only [bucket, Bucket.placed, List.map_map, Function.comp_def]
  | lone text r => rfl

theorem placements_temperatureMap (m : TemperatureMap) (name : Option Key) :
    (d.temperatureMap m).placements (name.map d.key) = (m.placements name).map d.placement := by
  unfold temperatureMap TemperatureMap.placements
  simp only [spots_table, placed_bucket, List.flatMap_map, List.map_flatMap, List.map_map]
  rfl

theorem placements_recordMap (m : RecordMap) :
    (d.recordMap m).placements = m.placements.map d.placement := by
  cases m with
  | versioned m =>
    change VersionedMap.placements _ = m.placements.map d.placement
    unfold VersionedMap.placements
    rw [spots_table, List.map_map, List.map_map]
    rfl
  | temperature m => exact d.placements_temperatureMap m none
  | named m =>
    change NamedMap.placements _ = m.placements.map d.placement
    unfold NamedMap.placements
    simp only [table, List.flatMap_map, List.map_flatMap, key_label]
    exact List.flatMap_congr fun e _ => d.placements_temperatureMap e.2 (some e.1.key)

theorem shape_recordMap (m : RecordMap) : (d.recordMap m).shape = m.shape := by
  cases m <;> rfl

/-! ## The copy of a record -/

theorem grade_recordContent (r : Record) : (d.recordContent r).grade = r.grade := by
  unfold Record.grade recordContent
  dsimp only
  cases r.evaluationTemperature with
  | none => rfl
  | some v => cases v <;> rfl

theorem energy?_recordContent (r : Record) : (d.recordContent r).energy? = r.energy? := by
  rw [Record.energy?, grade_recordContent]
  rfl

theorem complete_recordContent {c : Category} {r : Record} (h : r.Complete c) :
    (d.recordContent r).Complete c := by
  obtain ⟨⟨hcategory, ⟨t, htype, ht⟩, ⟨n, mark, hn, hv⟩, htemperature⟩, ⟨z, mark', hz⟩, hcold,
    hnameless, hnamed⟩ := h
  unfold recordContent
  refine ⟨⟨hcategory, ⟨t, htype, ?_⟩, ⟨n, mark, hn, ?_⟩, fun hc => ?_⟩, ⟨z, d.mark mark', ?_⟩,
    fun hc => ?_, fun hc => ?_, fun hc => ?_⟩
  · rw [ht]
    rfl
  · rw [hv]
    rfl
  · obtain ⟨e, mark, he⟩ := htemperature hc
    rw [he]
    exact ⟨e, _, rfl⟩
  · rw [hz]
    rfl
  · rw [hcold hc]
    rfl
  · rw [hnameless hc]
    rfl
  · obtain ⟨⟨v, hv⟩, zs, mark, hzs⟩ := hnamed hc
    rw [hv, hzs]
    exact ⟨⟨_, rfl⟩, _, _, rfl⟩

end Duplication

namespace Placement

variable {d : Duplication} {allNames : Prop} {shape : Shape} {p : Placement} {r : Record}

theorem Fits.copy (h : p.Fits allNames shape r) :
    (d.placement p).Fits allNames shape (d.recordContent r) := by
  refine ⟨?_, ?_, fun hshape => ?_, fun hshape => ?_⟩
  · exact (d.key?_copy r.fileType).trans (congrArg (Option.map d.key) h.fileType)
  · exact (d.key?_copy r.fileVersion).trans (congrArg (Option.map d.key) h.version)
  · rw [d.energy?_recordContent]
    exact h.energy hshape
  · obtain ⟨k, v, hk, hv, hkey⟩ := h.name hshape
    refine ⟨d.key k, d.value v, congrArg (Option.map d.key) hk,
      congrArg (Option.map d.value) hv, fun hplain => ?_⟩
    rw [d.nodes_copy, List.map_eq_nil_iff] at hplain
    rw [d.key?_copy, hkey hplain]
    rfl

theorem Fits.clone {c : Category} (h : p.Fits allNames shape r) (hr : r.Complete c)
    (hnames : ¬ allNames) (q : RecordRef) :
    Fits allNames shape { p with record := q } (d.recordContent r) := by
  obtain ⟨t, -, ht⟩ := hr.fileType
  obtain ⟨n, mark, -, hn⟩ := hr.fileVersion
  refine ⟨?_, ?_, fun hshape => ?_, fun hshape => ?_⟩
  · have hkey := h.fileType
    rw [ht] at hkey
    unfold Duplication.recordContent
    dsimp only
    rw [ht]
    exact hkey
  · have hkey := h.version
    rw [hn] at hkey
    unfold Duplication.recordContent
    dsimp only
    rw [hn]
    exact hkey
  · rw [d.energy?_recordContent]
    exact h.energy hshape
  · obtain ⟨k, v, hk, hv, hkey⟩ := h.name hshape
    refine ⟨k, d.value v, hk, congrArg (Option.map d.value) hv, fun hplain => ?_⟩
    rw [d.nodes_copy, List.map_eq_nil_iff] at hplain
    have hnone : v.nodes = [] := hplain.resolve_left hnames
    rw [Duplication.key?_value fun n hn => ?_]
    · exact hkey (Or.inr hnone)
    · rw [hnone] at hn
      cases hn

end Placement

end ScatteringData
