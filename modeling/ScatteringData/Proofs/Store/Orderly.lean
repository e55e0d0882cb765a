import Mathlib
import ScatteringData.Proofs.RecordMap.Duplicates
import ScatteringData.Proofs.Store.Closed

/-!
# Records of centers and their copies

The records that a center keeps in a category are of that category and belong to the center, and they
stand under the keys that their own fields are. Copies rebuild maps without any check and keep this.
-/

namespace ScatteringData

/-- A record belongs to a center with an identifier: to the element in the atomic categories, and to
the nuclide itself in the others, where thermal data may cover several. -/
def Record.BelongsTo (c : Category) (z : Zaid) (r : Record) : Prop :=
  match c with
  | .atomic _ => ∃ y mark, r.zaid = .zaid y mark ∧ y.atom = z.atom
  | .nuclide k =>
    match k.shape with
    | .named => ∃ zs mark, r.zaids = some (.zaids zs mark) ∧ z ∈ zs.map (·.1)
    | _ => ∃ mark, r.zaid = .zaid z mark

theorem Record.BelongsTo.copy {d : Duplication} {c : Category} {z : Zaid} {r : Record}
    (h : r.BelongsTo c z) : (d.recordContent r).BelongsTo c z := by
  unfold Record.BelongsTo Duplication.recordContent at *
  dsimp only
  cases c with
  | atomic k =>
    obtain ⟨y, mark, hz, helement⟩ := h
    rw [hz]
    exact ⟨y, _, rfl, helement⟩
  | nuclide k =>
    dsimp only at h ⊢
    split at h
    · obtain ⟨zs, mark, hzs, hmem⟩ := h
      rw [hzs]
      refine ⟨_, _, rfl, ?_⟩
      rw [List.map_map]
      exact hmem
    · obtain ⟨mark, hz⟩ := h
      rw [hz]
      exact ⟨_, rfl⟩

theorem Zaid.equals_iff {y z : Zaid} {mark mark' : Mark} :
    (Value.zaid y mark).equals (.zaid z mark') = true ↔ y = z := by
  have hraw : (Value.zaid y mark).equals (.zaid z mark') = true ↔ y.raw = z.raw := by
    simp [Value.equals, Value.equalsWith, Value.key?, Value.isNaN, Value.number?]
  rw [hraw]
  constructor
  · intro h
    cases y
    cases z
    cases h
    rfl
  · intro h
    rw [h]

namespace Store

/-- The records of a map stand under the keys that their fields are. -/
def Arranged (s : Store) (allNames : Prop) (m : RecordMap) : Prop :=
  ∀ p ∈ m.placements, p.Fits allNames m.shape (s.record p.record)

/-- A map holds records of a category that belong to a center, each under its fields. -/
structure Keeps (s : Store) (allNames : Prop) (c : Category) (z : Zaid) (m : RecordMap) : Prop where
  shape : m.shape = c.shape
  category : ∀ r ∈ m.records, (s.record r).category = c
  owned : ∀ r ∈ m.records, (s.record r).BelongsTo c z
  arranged : s.Arranged allNames m

/-- What is true of an object as long as no field of a record is overwritten. -/
def Orderly (s : Store) (allNames : Prop) : Item → Prop
  | .record r => ∃ c, r.Complete c
  | .atom a => ∀ k, s.Keeps allNames (.atomic k) a.identity.zaid (a.maps.get k)
  | .nuclide n => ∀ k, s.Keeps allNames (.nuclide k) n.identity.zaid (n.maps.get k)
  | .map m => s.Arranged allNames m.content
  | .cache _ => True

def AllOrderly (s : Store) (allNames : Prop) : Prop :=
  ∀ n, s.Holds n → s.Orderly allNames (s.item n)

variable {s t : Store} {allNames : Prop} {c : Category} {z : Zaid} {m n : RecordMap}
  {d : Duplication}

/-! ## Maps -/

theorem mem_records_iff {r : RecordRef} : r ∈ m.records ↔ ∃ p ∈ m.placements, p.record = r := by
  rw [← m.placements_records, List.mem_map]

theorem Arranged.congr (h : s.Arranged allNames m)
    (hrecords : ∀ r ∈ m.records, t.record r = s.record r) : t.Arranged allNames m := by
  intro p hp
  rw [hrecords _ (mem_records_iff.mpr ⟨p, hp, rfl⟩)]
  exact h p hp

theorem Keeps.congr (h : s.Keeps allNames c z m)
    (hrecords : ∀ r ∈ m.records, t.record r = s.record r) : t.Keeps allNames c z m := by
  refine ⟨h.shape, fun r hr => ?_, fun r hr => ?_, h.arranged.congr hrecords⟩
  · rw [hrecords r hr]
    exact h.category r hr
  · rw [hrecords r hr]
    exact h.owned r hr

theorem Arranged.empty (shape : Shape) (category : String) :
    s.Arranged allNames (.empty shape category) := by
  intro p hp
  rw [RecordMap.placements_empty] at hp
  cases hp

theorem Keeps.empty (c : Category) (z : Zaid) : s.Keeps allNames c z c.emptyMap := by
  have hnone : ∀ r, r ∉ c.emptyMap.records := by
    intro r hr
    obtain ⟨p, hp, -⟩ := mem_records_iff.mp hr
    rw [Category.emptyMap, RecordMap.placements_empty] at hp
    cases hp
  refine ⟨?_, fun r hr => absurd hr (hnone r), fun r hr => absurd hr (hnone r), Arranged.empty _ _⟩
  unfold Category.emptyMap
  cases c.shape <;> rfl

/-! ## Setting a record -/

section
variable {r : RecordRef} {k : Category}

theorem Arranged.set (h : s.Arranged allNames m) (hr : (s.record r).Complete k) :
    s.Arranged allNames (m.set r (s.record r)).1 := by
  intro p hp
  rw [RecordMap.shape_set]
  rcases RecordMap.mem_placements_set allNames (fun _ => hr.energy_of_grade) hp with hp | ⟨href, hfits⟩
  · exact h p hp
  · rw [href]
    exact hfits

theorem Keeps.set (h : s.Keeps allNames c z m) (hr : (s.record r).Complete k)
    (hcategory : (s.record r).category = c) (howned : (s.record r).BelongsTo c z) :
    s.Keeps allNames c z (m.set r (s.record r)).1 := by
  have hrecords : ∀ q ∈ (m.set r (s.record r)).1.records, q ∈ m.records ∨ q = r := by
    intro q hq
    obtain ⟨p, hp, rfl⟩ := mem_records_iff.mp hq
    rcases RecordMap.mem_placements_set allNames (fun _ => hr.energy_of_grade) hp with hp | ⟨href, -⟩
    · exact Or.inl (mem_records_iff.mpr ⟨p, hp, rfl⟩)
    · exact Or.inr href
  refine ⟨(m.shape_set r _).trans h.shape, fun q hq => ?_, fun q hq => ?_, h.arranged.set hr⟩
  · rcases hrecords q hq with hq | rfl
    · exact h.category q hq
    · exact hcategory
  · rcases hrecords q hq with hq | rfl
    · exact h.owned q hq
    · exact howned

theorem followed_cases (s : Store) (old : RecordMap) (change : RecordMap × Outcome Unit) :
    (s.followed old change).1 = old ∨ (s.followed old change).1 = change.1 := by
  unfold followed Outcome.heard
  split
  · split
    · exact Or.inr rfl
    · dsimp only
      split
      · exact Or.inl rfl
      · exact Or.inr rfl
  · exact Or.inr rfl

end

/-! ## Copies of maps -/

theorem records_recordMap (d : Duplication) (m : RecordMap) :
    (d.recordMap m).records = m.records.map d.record := by
  rw [← RecordMap.placements_records, d.placements_recordMap, ← m.placements_records, List.map_map,
    List.map_map]
  rfl

theorem Arranged.copy (h : s.Arranged allNames m)
    (hrecords : ∀ r ∈ m.records, t.record (d.record r) = d.recordContent (s.record r)) :
    t.Arranged allNames (d.recordMap m) := by
  intro p hp
  rw [d.placements_recordMap] at hp
  obtain ⟨q, hq, rfl⟩ := List.mem_map.mp hp
  have hrecord := hrecords _ (mem_records_iff.mpr ⟨q, hq, rfl⟩)
  change (d.placement q).Fits allNames _ (t.record (d.record q.record))
  rw [hrecord, d.shape_recordMap]
  exact (h q hq).copy

theorem Keeps.copy (h : s.Keeps allNames c z m)
    (hrecords : ∀ r ∈ m.records, t.record (d.record r) = d.recordContent (s.record r)) :
    t.Keeps allNames c z (d.recordMap m) := by
  refine ⟨(d.shape_recordMap m).trans h.shape, fun q hq => ?_, fun q hq => ?_,
    h.arranged.copy hrecords⟩
  · rw [records_recordMap] at hq
    obtain ⟨r, hr, rfl⟩ := List.mem_map.mp hq
    rw [hrecords r hr]
    exact h.category r hr
  · rw [records_recordMap] at hq
    obtain ⟨r, hr, rfl⟩ := List.mem_map.mp hq
    rw [hrecords r hr]
    exact (h.owned r hr).copy

theorem record_of_isClone {r q : RecordRef} (h : s.IsClone t r q) :
    ∃ d : Duplication, t.record q = d.recordContent (s.record r) := by
  obtain ⟨d, hd, hr, rfl⟩ := h
  exact ⟨d, hd.record_eq hr⟩

/-- Where the records of a map are cloned its keys stay. They are the fields of the clones but for
names that refer to objects. -/
theorem Arranged.related (h : s.Arranged allNames m) (hrel : m.Related (s.IsClone t) n)
    (hnames : ¬ allNames) (hcomplete : ∀ r ∈ m.records, ∃ c, (s.record r).Complete c) :
    t.Arranged allNames n := by
  intro q hq
  obtain ⟨p, hp, heq, hclone⟩ := hrel.exists_placement hq
  obtain ⟨d, hrecord⟩ := record_of_isClone hclone
  obtain ⟨c, hr⟩ := hcomplete _ (mem_records_iff.mpr ⟨p, hp, rfl⟩)
  rw [hrecord, heq, ← hrel.shape]
  exact (h p hp).clone hr hnames q.record

theorem Keeps.related (h : s.Keeps allNames c z m) (hrel : m.Related (s.IsClone t) n)
    (hnames : ¬ allNames) (hcomplete : ∀ r ∈ m.records, ∃ c, (s.record r).Complete c) :
    t.Keeps allNames c z n := by
  have hold : ∀ q ∈ n.records, ∃ r ∈ m.records, ∃ d : Duplication,
      t.record q = d.recordContent (s.record r) := by
    intro q hq
    obtain ⟨y, hy, rfl⟩ := mem_records_iff.mp hq
    obtain ⟨x, hx, -, hclone⟩ := hrel.exists_placement hy
    exact ⟨x.record, mem_records_iff.mpr ⟨x, hx, rfl⟩, record_of_isClone hclone⟩
  refine ⟨hrel.shape.symm.trans h.shape, fun q hq => ?_, fun q hq => ?_,
    h.arranged.related hrel hnames hcomplete⟩
  · obtain ⟨r, hr, d, hrecord⟩ := hold q hq
    rw [hrecord]
    exact h.category r hr
  · obtain ⟨r, hr, d, hrecord⟩ := hold q hq
    rw [hrecord]
    exact (h.owned r hr).copy

/-! ## Objects -/

theorem Orderly.congr {i : Item} (h : s.Orderly allNames i)
    (hrecords : ∀ r, .record r ∈ i.nodes → t.record r = s.record r) : t.Orderly allNames i := by
  cases i with
  | record r => exact h
  | atom a =>
    intro k
    refine (h k).congr fun r hr => hrecords r (Atom.mem_nodes.mpr (Or.inr ⟨k, ?_⟩))
    exact RecordMap.mem_nodes_of_mem_records hr
  | nuclide x =>
    intro k
    refine (h k).congr fun r hr => hrecords r (Nuclide.mem_nodes.mpr (Or.inr (Or.inr ⟨k, ?_⟩)))
    exact RecordMap.mem_nodes_of_mem_records hr
  | map m =>
    refine Arranged.congr h fun r hr => hrecords r (List.mem_append_right _ ?_)
    exact RecordMap.mem_nodes_of_mem_records hr
  | cache x => trivial

theorem Orderly.copy {i : Item} (h : s.Orderly allNames i)
    (hrecords : ∀ r, .record r ∈ i.nodes →
      t.record (d.record r) = d.recordContent (s.record r)) : t.Orderly allNames (d.item i) := by
  cases i with
  | record r =>
    obtain ⟨c, hr⟩ := h
    exact ⟨c, d.complete_recordContent hr⟩
  | atom a =>
    intro k
    have hget : (d.atomContent a).maps.get k = d.recordMap (a.maps.get k) := by cases k <;> rfl
    change t.Keeps allNames (.atomic k) a.identity.zaid ((d.atomContent a).maps.get k)
    rw [hget]
    refine (h k).copy fun r hr => hrecords r (Atom.mem_nodes.mpr (Or.inr ⟨k, ?_⟩))
    exact RecordMap.mem_nodes_of_mem_records hr
  | nuclide x =>
    intro k
    have hget : (d.nuclideContent x).maps.get k = d.recordMap (x.maps.get k) := by cases k <;> rfl
    change t.Keeps allNames (.nuclide k) x.identity.zaid ((d.nuclideContent x).maps.get k)
    rw [hget]
    refine (h k).copy fun r hr => hrecords r (Nuclide.mem_nodes.mpr (Or.inr (Or.inr ⟨k, ?_⟩)))
    exact RecordMap.mem_nodes_of_mem_records hr
  | map m =>
    refine Arranged.copy h fun r hr => hrecords r (List.mem_append_right _ ?_)
    exact RecordMap.mem_nodes_of_mem_records hr
  | cache x => trivial

/-! ## Stores -/

theorem record_of_extends (hst : s.Extends t) {r : RecordRef} (hr : s.Holds (.record r)) :
    t.record r = s.record r :=
  Item.record.inj (hst _ hr).2

theorem AllOrderly.complete (h : s.AllOrderly allNames) {r : RecordRef} (hr : s.Holds (.record r)) :
    ∃ c, (s.record r).Complete c :=
  h _ hr

theorem AllOrderly.extend (h : s.AllOrderly allNames) (hs : s.Closed) (hst : s.Extends t)
    (hnew : ∀ n, t.Holds n → ¬ s.Holds n → t.Orderly allNames (t.item n)) :
    t.AllOrderly allNames := by
  intro n hn
  by_cases hold : s.Holds n
  · rw [(hst n hold).2]
    exact (h n hold).congr fun r hr => record_of_extends hst (hs n hold _ hr)
  · exact hnew n hn hold

theorem record_add {i : Item} (hi : ∀ x, i ≠ .record x) (r : RecordRef) :
    (s.add i).1.record r = s.record r := by
  cases i with
  | record x => exact absurd rfl (hi x)
  | _ => rfl

theorem AllOrderly.add (h : s.AllOrderly allNames) {i : Item} (hi : ∀ x, i ≠ .record x)
    (horderly : s.Orderly allNames i) : (s.add i).1.AllOrderly allNames := by
  intro n hn
  rw [item_add]
  by_cases hnew : n = (s.add i).2
  · rw [if_pos hnew]
    exact horderly.congr fun r _ => record_add hi r
  · rw [if_neg hnew]
    exact (h n (((holds_add s i n).mp hn).resolve_right hnew)).congr fun r _ => record_add hi r

theorem AllOrderly.addRecord (h : s.AllOrderly allNames) (hs : s.Closed) {x : Record}
    (hx : x.Complete c) : (s.addRecord x).1.AllOrderly allNames := by
  refine h.extend hs (extends_add s (.record x)) fun n hn hnot => ?_
  have hnew := ((holds_add s (.record x) n).mp hn).resolve_left hnot
  change Orderly _ allNames ((s.add (.record x)).1.item n)
  rw [item_add, if_pos hnew]
  exact ⟨c, hx⟩

theorem record_put {k : Node} {i : Item} (hi : ∀ x, i ≠ .record x) (r : RecordRef) :
    (s.put k i).record r = s.record r := by
  rcases k with k | (k | k) | k | k <;> cases i <;> first | rfl | exact absurd rfl (hi _)

theorem AllOrderly.put (h : s.AllOrderly allNames) {k : Node} {i : Item} (hfit : Fits k i)
    (hi : ∀ x, i ≠ .record x) (horderly : s.Orderly allNames i) :
    (s.put k i).AllOrderly allNames := by
  by_cases hk : s.Holds k
  · intro n hn
    rw [item_put hk hfit]
    by_cases heq : n = k
    · rw [if_pos heq]
      exact horderly.congr fun r _ => record_put hi r
    · rw [if_neg heq]
      exact (h n ((holds_put s k i n).mp hn)).congr fun r _ => record_put hi r
  · rw [put_of_not_holds hk]
    exact h

/-! ## Clones and copies -/

/-- What is duplicated with a record is as orderly as it was: all that it holds is duplicated too. -/
theorem AllOrderly.cloneRecord (h : s.AllOrderly allNames) (hs : s.Closed) {r : RecordRef}
    (hr : s.Holds (.record r)) : (s.cloneRecord r).1.AllOrderly allNames := by
  obtain ⟨-, hext, d, hd, -, -, hnew⟩ := cloneRecord_spec hs hr
  refine h.extend hs hext fun n hn hnot => ?_
  obtain ⟨p, hp, rfl⟩ := List.mem_map.mp ((hnew n hn).resolve_left hnot)
  rw [hd.item p hp]
  refine (h _ (hd.source p hp)).copy fun q hq => hd.record_eq ?_
  refine hd.saturated _ (List.mem_map_of_mem hp) _ ?_
  rw [neighbours_eq]
  exact hq

theorem passes_allOrderly (allNames : Prop) {s₀ : Store} (hs₀ : s₀.Closed) :
    Passes (fun s => (s.Closed ∧ s₀.Extends s) ∧ s.AllOrderly allNames) Extends cloneRecord
      (fun r => s₀.Holds (.record r)) fun t => s₀.IsClone t := by
  refine ⟨fun h hle => h.extend hle, fun {s r} hs hr => ?_⟩
  obtain ⟨⟨hclosed, hext⟩, horderly⟩ := hs
  obtain ⟨hclosed', hst, hclone⟩ := cloneRecord_isClone hs₀ hext hclosed hr
  refine ⟨⟨⟨hclosed', hext.trans hst⟩, ?_⟩, hst, hclone⟩
  exact horderly.cloneRecord hclosed (hext _ hr).1

section
variable (hs : s.Closed) (h : s.AllOrderly allNames)
include hs h

theorem AllOrderly.copyMap {m : MapRef} (hm : s.Holds (.map m)) {deep : Bool}
    (hdeep : deep = true → ¬ allNames) : (s.copyMap m deep).1.AllOrderly allNames := by
  cases deep with
  | false =>
    rw [copyMap_shared]
    exact h.add (i := .map (s.mapObject m)) (fun x hx => by cases hx) (h _ hm)
  | true =>
    have hfit : ∀ r ∈ (s.map m).records, s.Holds (.record r) := fun r hr =>
      hs _ hm _ (List.mem_append_right _ (RecordMap.mem_nodes_of_mem_records hr))
    have hpass := (passes_allOrderly allNames hs).recordMap Extends.refl Extends.trans
    obtain ⟨⟨-, horderly⟩, -, hrel⟩ := hpass.step ⟨⟨hs, Extends.refl s⟩, h⟩ hfit
    refine horderly.add (i := .map _) (fun x hx => by cases hx) ?_
    exact Arranged.related (h _ hm) hrel (hdeep rfl) fun r hr => h.complete (hfit r hr)

theorem AllOrderly.copyAtom {a : AtomRef} (ha : s.Holds (.center (.atom a))) {deep : Bool}
    (hdeep : deep = true → ¬ allNames) : (s.copyAtom a deep).1.AllOrderly allNames := by
  cases deep with
  | false =>
    rw [copyAtom_shared]
    exact h.add (i := .atom (s.atom a)) (fun x hx => by cases hx) (h _ ha)
  | true =>
    have hfit : ∀ k, ∀ r ∈ ((s.atom a).maps.get k).records, s.Holds (.record r) := fun k r hr =>
      hs _ ha _ (Atom.mem_nodes.mpr (Or.inr ⟨k, RecordMap.mem_nodes_of_mem_records hr⟩))
    have hpass := ((passes_allOrderly allNames hs).recordMap Extends.refl Extends.trans).atomicMaps
      fun h h' => h.trans h'
    obtain ⟨⟨-, horderly⟩, -, hrel⟩ := hpass.step ⟨⟨hs, Extends.refl s⟩, h⟩ hfit
    refine horderly.add (i := .atom _) (fun x hx => by cases hx) fun k => ?_
    exact Keeps.related (h _ ha k) (hrel k) (hdeep rfl) fun r hr => h.complete (hfit k r hr)

theorem AllOrderly.addNuclideOn {n : NuclideRef} (hn : s.Holds (.center (.nuclide n))) {t : Store}
    (ht : t.Closed) (hext : s.Extends t) (horderly : t.AllOrderly allNames) (hnames : ¬ allNames)
    (a : AtomRef) : (t.addNuclideOn (s.nuclide n) a true).1.AllOrderly allNames := by
  have hfit : ∀ k, ∀ r ∈ ((s.nuclide n).maps.get k).records, s.Holds (.record r) := fun k r hr =>
    hs _ hn _ (Nuclide.mem_nodes.mpr (Or.inr (Or.inr ⟨k, RecordMap.mem_nodes_of_mem_records hr⟩)))
  have hpass := ((passes_allOrderly allNames hs).recordMap Extends.refl Extends.trans).nuclideMaps
    fun h h' => h.trans h'
  obtain ⟨⟨-, horderly⟩, -, hrel⟩ := hpass.step ⟨⟨ht, hext⟩, horderly⟩ hfit
  rw [Store.addNuclideOn, passMap_renewed]
  generalize (s.nuclide n).maps.rebuild (RecordMap.rebuild Store.cloneRecord) t = x at horderly hrel ⊢
  refine horderly.add (i := .nuclide _) (fun x hx => by cases hx) fun k => ?_
  exact Keeps.related (h _ hn k) (hrel k) hnames fun r hr => h.complete (hfit k r hr)

theorem AllOrderly.copyNuclide {n : NuclideRef} (hn : s.Holds (.center (.nuclide n))) {depth : Depth}
    (hdeep : depth ≠ .maps → ¬ allNames) : (s.copyNuclide n depth).1.AllOrderly allNames := by
  cases depth with
  | maps =>
    change (s.addNuclideOn (s.nuclide n) (s.nuclide n).atom false).1.AllOrderly allNames
    rw [addNuclideOn_shared]
    exact h.add (i := .nuclide (s.nuclide n)) (fun x hx => by cases hx) (h _ hn)
  | records => exact h.addNuclideOn hs hn hs (Extends.refl s) h (hdeep (by decide)) _
  | everything =>
    -- the atom is copied first; the records are still those that the first store held
    have hnames := hdeep (by decide)
    have ha := hs _ hn _ (Nuclide.mem_nodes.mpr (Or.inr (Or.inl rfl)))
    obtain ⟨hclosed, hext, -⟩ := copyAtom_spec hs ha true
    exact h.addNuclideOn hs hn hclosed hext (h.copyAtom hs ha fun _ => hnames) hnames _

theorem AllOrderly.copyCenter {x : CenterRef} (hx : s.Holds (.center x)) {depth : Depth}
    (hdeep : depth ≠ .maps → ¬ allNames) : (s.copyCenter x depth).1.AllOrderly allNames := by
  cases x with
  | atom a => exact h.copyAtom hs hx fun hd => hdeep (of_decide_eq_true hd)
  | nuclide n => exact h.copyNuclide hs hx hdeep

theorem AllOrderly.copyObject {v : Value} (hv : ∀ n ∈ v.nodes, s.Holds n) :
    (s.copyObject v).1.AllOrderly allNames := by
  unfold Store.copyObject
  split
  · exact h.copyCenter hs (hv _ (List.mem_singleton_self _)) fun hd => absurd rfl hd
  · exact h.cloneRecord hs (hv _ (List.mem_singleton_self _))
  · exact h

end

end Store

end ScatteringData
