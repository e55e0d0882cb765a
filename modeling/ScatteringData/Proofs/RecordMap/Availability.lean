import Mathlib
import ScatteringData.Proofs.RecordMap.Agreement
import ScatteringData.Proofs.RecordMap.Placements

/-!
# Availability and the records that are there

A check of availability is asked for some of the keys and leaves the others out. It looks at the keys
from the outermost one inwards, and stops at one that is left out; only a temperature makes it go on
below a file type that is left out.
-/

namespace ScatteringData

/-! ## Requests -/

/-- A null asks for any key. -/
def Value.AsksFor (v : Value) (k : Key) : Prop := v.isNull = true ∨ v.key? = some k

/-- The keys that availability is checked for; a null is left out. -/
structure Request where
  name : Value
  fileType : Value
  version : Value
  temperature : Value

def Shape.keyCount : Shape → Nat
  | .versioned => 2
  | .temperature => 3
  | .named => 4

namespace Request

def ofArguments (shape : Shape) (args : List Value) : Request :=
  let arg (i : Nat) : Value := argument args i .null
  match shape with
  | .versioned => ⟨.null, arg 0, arg 1, .null⟩
  | .temperature => ⟨.null, arg 0, arg 1, arg 2⟩
  | .named => ⟨arg 0, arg 1, arg 2, arg 3⟩

/-- All that is given can be a key, or a temperature. -/
structure IsValid (q : Request) : Prop where
  name : ∃ k, q.name.key? = some k
  fileType : ∃ k, q.fileType.key? = some k
  version : ∃ k, q.version.key? = some k
  temperature : q.temperature.isNull = true ∨ q.temperature.IsQuery

/-- A version below a file type that is left out is looked at for the sake of a temperature only. -/
def belowName (q : Request) : Request :=
  if q.fileType.isNull ∧ q.temperature.isNull then { q with version := .null } else q

/-- The keys that a check looks at. -/
def considered (q : Request) (shape : Shape) : Request :=
  if shape = .named ∧ q.name.isNull then ⟨.null, .null, .null, .null⟩ else q.belowName

/-- No key is given below one that is left out, but for a temperature below a file type or version. -/
structure IsNested (q : Request) (shape : Shape) : Prop where
  name : shape = .named → q.name.isNull = true →
    q.fileType.isNull = true ∧ q.version.isNull = true ∧ q.temperature.isNull = true
  fileType : q.fileType.isNull = true → q.version.isNull = true ∨ q.temperature.isNull = false

end Request

/-- The keys of a record are all those that are asked for, its energy within the tolerance. -/
structure Placement.Matches (p : Placement) (q : Request) : Prop where
  name : ∀ k, p.name = some k → q.name.AsksFor k
  fileType : q.fileType.AsksFor p.fileType
  version : q.version.AsksFor p.version
  temperature : q.temperature.isNull = true ∨ ∃ e query, p.energy = some e ∧
    q.temperature.toMev = .ok query ∧ Grid.isMatch e.mev query = true

theorem Value.eq_null_of_isNull {v : Value} (h : v.isNull = true) : v = .null := by
  cases v with
  | null => rfl
  | _ => cases h

theorem Value.asksFor_null (k : Key) : Value.null.AsksFor k := Or.inl rfl

theorem Value.asksFor_iff_eq {v : Value} {k k' : Key} (hnull : v.isNull = false) (h : v.key? = some k) :
    v.AsksFor k' ↔ k' = k := by
  unfold AsksFor
  rw [hnull, h]
  simp [eq_comm]

theorem Request.considered_eq {q : Request} {shape : Shape} (h : q.IsNested shape) :
    q.considered shape = q := by
  obtain ⟨name, fileType, version, temperature⟩ := q
  unfold considered belowName
  split
  · rename_i hname
    obtain ⟨h₁, h₂, h₃⟩ := h.name hname.1 hname.2
    rw [Request.mk.injEq]
    exact ⟨(Value.eq_null_of_isNull hname.2).symm, (Value.eq_null_of_isNull h₁).symm,
      (Value.eq_null_of_isNull h₂).symm, (Value.eq_null_of_isNull h₃).symm⟩
  · split
    · rename_i hnull
      rcases h.fileType hnull.1 with hversion | ht
      · rw [Request.mk.injEq]
        exact ⟨rfl, rfl, (Value.eq_null_of_isNull hversion).symm, rfl⟩
      · exact absurd (hnull.2.symm.trans ht) (by decide)
    · rfl

theorem Placement.Matches.considered {p : Placement} {q : Request} (h : p.Matches q) (shape : Shape) :
    p.Matches (q.considered shape) := by
  unfold Request.considered Request.belowName
  split
  · exact ⟨fun k _ => Value.asksFor_null k, Value.asksFor_null _, Value.asksFor_null _, Or.inl rfl⟩
  · split
    · exact ⟨h.name, h.fileType, Value.asksFor_null _, h.temperature⟩
    · exact h

/-! ## Checks on shelves -/

structure Shelves.Filled {α : Type} (P : α → Prop) (s : Shelves α) : Prop where
  distinct : s.Distinct
  shelves : ∀ e ∈ s.entries, e.2.Distinct ∧ e.2.entries ≠ [] ∧ ∀ d ∈ e.2.entries, P d.2

section
variable {α : Type}

theorem Table.mem_get?_iff {t : Table α} (ht : t.Distinct) {k : Key} {a : α} :
    t.get? k = some a ↔ ∃ e ∈ t.entries, e.1.key = k ∧ e.2 = a := by
  constructor
  · intro h
    obtain ⟨l, hl, hk⟩ := mem_of_get? h
    exact ⟨(l, a), hl, hk, rfl⟩
  · rintro ⟨⟨l, b⟩, he, rfl, rfl⟩
    exact get?_of_mem ht he

theorem Table.mem_selected_iff {t : Table α} (ht : t.Distinct) {v : Value} {k : Key}
    (hv : v.key? = some k) (a : α) :
    a ∈ (if v.isNull then t.contents else (t.get? k).toList) ↔
      ∃ e ∈ t.entries, v.AsksFor e.1.key ∧ e.2 = a := by
  cases hnull : v.isNull with
  | true =>
    rw [if_pos rfl, Table.contents, List.mem_map]
    simp only [Value.AsksFor, hnull, true_or, true_and]
  | false =>
    simp only [Bool.false_eq_true, if_false, Option.mem_toList, mem_get?_iff ht,
      Value.asksFor_iff_eq hnull hv]

namespace Shelves

variable {P : α → Prop} {s : Shelves α} (h : s.Filled P) {fileType version : Value} {k₁ k₂ : Key}
  (h₁ : fileType.key? = some k₁) (h₂ : version.key? = some k₂)
include h h₁ h₂

theorem Filled.available_iff : ∃ b, s.available fileType version = .ok b ∧
    (b = true ↔ ∃ e ∈ s.entries, fileType.AsksFor e.1.key ∧ ∃ d ∈ e.2.entries,
      (if fileType.isNull then .null else version : Value).AsksFor d.1.key) := by
  unfold Shelves.available
  cases hnull : fileType.isNull with
  | true =>
    refine ⟨_, rfl, ?_⟩
    simp only [if_true, Value.AsksFor, hnull, true_or, true_and, Table.isEmpty, Bool.not_eq_true',
      List.isEmpty_eq_false_iff]
    constructor
    · intro hne
      obtain ⟨e, he⟩ := List.exists_mem_of_ne_nil _ hne
      obtain ⟨d, hd⟩ := List.exists_mem_of_ne_nil _ (h.shelves e he).2.1
      exact ⟨e, he, d, hd, Or.inl rfl⟩
    · rintro ⟨e, he, -⟩
      exact List.ne_nil_of_mem he
  | false =>
    simp only [Bool.false_eq_true, if_false, Table.find_eq s h₁, bind, Except.bind,
      Value.asksFor_iff_eq hnull h₁]
    cases hs : Table.get? s k₁ with
    | none =>
      refine ⟨false, rfl, ?_⟩
      simp only [Bool.false_eq_true, false_iff]
      rintro ⟨e, he, hk, -⟩
      rw [(Table.mem_get?_iff h.distinct).mpr ⟨e, he, hk, rfl⟩] at hs
      cases hs
    | some shelf =>
      obtain ⟨e, he, hk, rfl⟩ := (Table.mem_get?_iff h.distinct).mp hs
      obtain ⟨hdistinct, hne, -⟩ := h.shelves e he
      -- the shelf of the file type is the only one that the right side can be about
      have honly : ∀ e' ∈ s.entries, e'.1.key = k₁ → e'.2 = e.2 := by
        intro e' he' hk'
        have hs' := (Table.mem_get?_iff h.distinct).mpr ⟨e', he', hk', rfl⟩
        exact Option.some.inj (hs'.symm.trans hs)
      have hiff : (∃ e ∈ s.entries, e.1.key = k₁ ∧ ∃ d ∈ e.2.entries, version.AsksFor d.1.key) ↔
          ∃ d ∈ e.2.entries, version.AsksFor d.1.key := by
        constructor
        · rintro ⟨e', he', hk', hd⟩
          exact honly e' he' hk' ▸ hd
        · exact fun hd => ⟨e, he, hk, hd⟩
      rw [hiff]
      cases hversion : version.isNull with
      | true =>
        refine ⟨true, rfl, ?_⟩
        simp only [true_iff, Value.AsksFor, hversion, true_or, and_true]
        exact List.exists_mem_of_ne_nil _ hne
      | false =>
        refine ⟨(e.2.get? k₂).isSome, ?_, ?_⟩
        · simp only [Bool.false_eq_true, if_false, Table.find_eq e.2 h₂]
          rfl
        · simp only [Option.isSome_iff_exists, Table.mem_get?_iff hdistinct,
            Value.asksFor_iff_eq hversion h₂]
          constructor
          · intro hget
            obtain ⟨_, d, hd, hk, -⟩ := hget
            exact ⟨d, hd, hk⟩
          · intro hmem
            obtain ⟨d, hd, hk⟩ := hmem
            exact ⟨d.2, d, hd, hk, rfl⟩

end Shelves

end

/-! ## Maps without empty places -/

structure Bucket.Filled (b : Bucket) : Prop where
  graded : b = .graded b.entries
  nonempty : b.entries ≠ []

theorem TemperatureMap.Sound.filled {m : TemperatureMap} (h : m.Sound anyRecord) :
    m.shelves.Filled Bucket.Filled := by
  refine ⟨h.distinct, fun e he => ?_⟩
  have hs := h.shelves e he
  exact ⟨hs.distinct, hs.nonempty, fun d hd => ⟨(hs.buckets d hd).graded, (hs.buckets d hd).nonempty⟩⟩

/-- No shelf and no bucket of the map is empty, and none of its maps under names is. -/
def RecordMap.Filled : RecordMap → Prop
  | versioned m => m.shelves.Filled fun _ => True
  | temperature m => m.Sound anyRecord
  | named m => m.maps.Distinct ∧ ∀ e ∈ m.maps.entries, e.2.Sound anyRecord ∧ e.2.shelves.entries ≠ []

theorem Shelves.Filled.empty {α : Type} (P : α → Prop) : Shelves.Filled P Table.empty :=
  ⟨Table.Distinct.empty, fun _ he => by cases he⟩

theorem Table.entries_put_ne_nil {α : Type} (t : Table α) (l : Label) (a : α) :
    (t.put l a).entries ≠ [] := by
  intro hnil
  have hmem := Table.mem_contents_put t l a
  rw [Table.contents, hnil] at hmem
  cases hmem

theorem Shelves.Filled.putAt {α : Type} {P : α → Prop} {s : Shelves α} (h : s.Filled P)
    (l₁ l₂ : Label) {a : α} (ha : P a) : (s.putAt l₁ l₂ a).Filled P := by
  refine ⟨h.distinct.put l₁ _, fun e he => ?_⟩
  rcases Table.mem_put he with he | ⟨heq, -, -⟩
  · exact h.shelves e he
  · rw [heq]
    refine ⟨?_, Table.entries_put_ne_nil _ l₂ a, fun d hd => ?_⟩
    · cases hs : Table.get? s l₁.key with
      | none => exact Table.Distinct.empty.put l₂ a
      | some shelf =>
        obtain ⟨e', he', -, rfl⟩ := (Table.mem_get?_iff h.distinct).mp hs
        exact (h.shelves e' he').1.put l₂ a
    · rcases Table.mem_put hd with hd | ⟨heq, -, -⟩
      · cases hs : Table.get? s l₁.key with
        | none =>
          rw [hs] at hd
          cases hd
        | some shelf =>
          rw [hs] at hd
          obtain ⟨e', he', -, rfl⟩ := (Table.mem_get?_iff h.distinct).mp hs
          exact (h.shelves e' he').2.2 d hd
      · exact heq ▸ ha

/-- The maps that come of an empty one by setting records that were built, without a fault, and by
copying. -/
inductive RecordMap.Built : RecordMap → Prop
  | empty (shape : Shape) (category : String) : Built (empty shape category)
  | set {m : RecordMap} (h : Built m) (ref : RecordRef) {c : Category} {r : Record} (hr : r.BuiltIn c)
    (hset : (m.set ref r).2.result = .ok ()) : Built (m.set ref r).1
  | copy {m : RecordMap} (h : Built m) {σ : Type} (f : σ → RecordRef → σ × RecordRef) (s : σ) :
    Built (m.rebuild f s).2

section
variable {c : Category} {r : Record} {ref : RecordRef}

theorem Record.BuiltIn.isGraded_of_set (hr : r.BuiltIn c) {m : TemperatureMap}
    (hset : (m.set ref r).2.result = .ok ()) : r.IsGraded := by
  refine ⟨c, fun hshape => ?_, hr⟩
  have hgrade : r.grade = .error .noAttribute := by rw [grade, hr.complete.cold hshape]
  unfold TemperatureMap.set at hset
  cases h₁ : Label.ofValue r.fileType with
  | error f => rw [h₁] at hset; cases hset
  | ok l₁ =>
    cases h₂ : Label.ofValue r.fileVersion with
    | error f => rw [h₁, h₂] at hset; cases hset
    | ok l₂ =>
      rw [h₁, h₂, hgrade] at hset
      cases hset

theorem VersionedMap.filled_set {m : VersionedMap} (h : m.shelves.Filled fun _ => True)
    (hset : (m.set ref r).2.result = .ok ()) : (m.set ref r).1.shelves.Filled fun _ => True := by
  unfold VersionedMap.set at hset ⊢
  cases h₁ : Label.ofValue r.fileType with
  | error f => rw [h₁] at hset; cases hset
  | ok l₁ =>
    cases h₂ : Label.ofValue r.fileVersion with
    | error f => rw [h₁, h₂] at hset; cases hset
    | ok l₂ => exact h.putAt l₁ l₂ trivial

theorem TemperatureMap.shelves_set_ne_nil {m : TemperatureMap} (h : m.Sound anyRecord)
    (hr : r.IsGraded) : (m.set ref r).1.shelves.entries ≠ [] := by
  obtain ⟨l₁, l₂, e, -, -, -, heq⟩ := h.set_eq ref hr
  rw [heq]
  exact Table.entries_put_ne_nil _ l₁ _

theorem NamedMap.filled_set {m : NamedMap} (hr : r.BuiltIn c) (h : (RecordMap.named m).Filled)
    (hset : (m.set ref r).2.result = .ok ()) : (RecordMap.named (m.set ref r).1).Filled := by
  obtain ⟨hdistinct, hmaps⟩ := h
  rcases NamedMap.set_cases m ref r with ⟨f, heq⟩ | ⟨-, l, x, -, -, hx, heq⟩
  · rw [heq] at hset
    cases hset
  · rw [heq] at hset ⊢
    have hinner : x.Sound anyRecord := by
      rcases NamedMap.inner_eq_ok hx with hget | ⟨-, category, rfl⟩
      · obtain ⟨e, he, -, rfl⟩ := (Table.mem_get?_iff hdistinct).mp hget
        exact (hmaps e he).1
      · exact TemperatureMap.Sound.empty category
    have hgraded := hr.isGraded_of_set hset
    refine ⟨hdistinct.put l _, fun e he => ?_⟩
    rcases Table.mem_put he with he | ⟨heq, -, -⟩
    · exact hmaps e he
    · exact heq ▸ ⟨hinner.set_any ref hgraded, TemperatureMap.shelves_set_ne_nil hinner hgraded⟩

end

theorem Table.Related.ne_nil {α β : Type} {Q : α → β → Prop} {t : Table α} {u : Table β}
    (h : t.Related Q u) (ht : t.entries ≠ []) : u.entries ≠ [] := by
  intro hnil
  have hlength := List.Forall₂.length_eq h
  rw [hnil] at hlength
  exact ht (List.eq_nil_of_length_eq_zero hlength)

theorem RecordMap.Filled.copy {m : RecordMap} (h : m.Filled) {σ : Type}
    (f : σ → RecordRef → σ × RecordRef) (s : σ) : (m.rebuild f s).2.Filled := by
  cases m with
  | versioned m =>
    have hrel : Table.Related (Table.Related fun _ _ => True) m.shelves (m.rebuild f s).2.shelves :=
      (((passes_any f).table (fun _ => trivial) (fun _ _ => trivial)).table (fun _ => trivial)
        (fun _ _ => trivial)).step trivial (fun _ _ _ _ => trivial) |>.2.2
    refine ⟨Table.Related.distinct hrel h.distinct, fun d hd => ?_⟩
    obtain ⟨e, he, -, hshelf⟩ := Table.Related.exists_of_mem hrel hd
    obtain ⟨hdistinct, hne, -⟩ := h.shelves e he
    exact ⟨hshelf.distinct hdistinct, hshelf.ne_nil hne, fun _ _ => trivial⟩
  | temperature m => exact (TemperatureMap.rebuild_related f s m).sound h
  | named m =>
    have hrel := NamedMap.rebuild_related f s m
    refine ⟨hrel.distinct h.1, fun d hd => ?_⟩
    obtain ⟨e, he, -, hmap⟩ := hrel.exists_of_mem hd
    obtain ⟨hsound, hne⟩ := h.2 e he
    exact ⟨hmap.sound hsound, Table.Related.ne_nil hmap.shelves hne⟩

theorem RecordMap.Built.filled {m : RecordMap} (h : m.Built) : m.Filled := by
  induction h with
  | empty shape category =>
    cases shape with
    | versioned => exact Shelves.Filled.empty _
    | temperature => exact TemperatureMap.Sound.empty category
    | named => exact ⟨Table.Distinct.empty, fun _ he => by cases he⟩
  | @set m _ ref c r hr hset ih =>
    cases m with
    | versioned m => exact VersionedMap.filled_set ih hset
    | temperature m => exact ih.set_any ref (hr.isGraded_of_set hset)
    | named m => exact NamedMap.filled_set hr ih hset
  | copy _ f s ih => exact ih.copy f s

/-! ## Checks and placements -/

namespace TemperatureMap

variable {m : TemperatureMap} {fileType version : Value} {k₁ k₂ : Key}

/-- The buckets that are searched are those of the file types and versions that are asked for. -/
theorem mem_buckets_iff (h : m.shelves.Filled Bucket.Filled) (h₁ : fileType.key? = some k₁)
    (h₂ : version.key? = some k₂) : ∃ bs, m.buckets fileType version = .ok bs ∧
      ∀ b, b ∈ bs ↔ ∃ e ∈ m.shelves.entries, fileType.AsksFor e.1.key ∧
        ∃ d ∈ e.2.entries, version.AsksFor d.1.key ∧ d.2 = b := by
  have hfind : (fun shelf : Table Bucket => shelf.find version) = fun shelf => pure (shelf.get? k₂) :=
    funext fun shelf => Table.find_eq shelf h₂
  have hbuckets : m.buckets fileType version =
      .ok ((if fileType.isNull then m.shelves.contents else (Table.get? m.shelves k₁).toList).flatMap
        fun shelf => if version.isNull then shelf.contents else (shelf.get? k₂).toList) := by
    unfold buckets
    simp only [Table.find_eq _ h₁, hfind, List.mapM_pure]
    cases fileType.isNull <;> cases version.isNull <;>
      simp [bind, Except.bind, pure, Except.pure, List.flatMap_map,
        List.filterMap_eq_flatMap_toList]
  refine ⟨_, hbuckets, fun b => ?_⟩
  rw [List.mem_flatMap]
  simp only [Table.mem_selected_iff h.distinct h₁]
  constructor
  · rintro ⟨shelf, ⟨e, he, hask, rfl⟩, hb⟩
    exact ⟨e, he, hask, (Table.mem_selected_iff (h.shelves e he).1 h₂ b).mp hb⟩
  · rintro ⟨e, he, hask, hd⟩
    exact ⟨e.2, ⟨e, he, hask, rfl⟩, (Table.mem_selected_iff (h.shelves e he).1 h₂ b).mpr hd⟩

theorem anyM_hasMatch {bs : List Bucket} (h : ∀ b ∈ bs, b.Filled) (query : Float) :
    (bs.anyM fun b => b.hasMatch query) =
      .ok (bs.any fun b => b.entries.any (Bucket.isHit query)) := by
  induction bs with
  | nil => rfl
  | cons b bs ih =>
    have hb : b.hasMatch query = .ok (b.entries.any (Bucket.isHit query)) := by
      rw [(h b (List.mem_cons_self ..)).graded]
      exact Bucket.hasMatch_graded _ query
    rw [List.anyM, hb, List.any_cons, ih fun b hb => h b (List.mem_cons_of_mem _ hb)]
    cases b.entries.any (Bucket.isHit query) with
    | true => rfl
    | false => rfl

theorem mem_placed_iff {b : Bucket} (h : b.Filled) {x : Option Energy × RecordRef} :
    x ∈ b.placed ↔ ∃ y ∈ b.entries, (some y.1, y.2) = x := by
  rw [h.graded]
  exact List.mem_map

theorem Sound.available_below (h : m.Sound anyRecord) {q : Request} (hq : q.IsValid) {name : Option Key}
    (hname : ∀ k, name = some k → q.name.AsksFor k) :
    ∃ b, m.available q.fileType q.version q.temperature = .ok b ∧
      (b = true ↔ ∃ p ∈ m.placements name, p.Matches q.belowName) := by
  obtain ⟨k₁, h₁⟩ := hq.fileType
  obtain ⟨k₂, h₂⟩ := hq.version
  have hfilled := h.filled
  unfold TemperatureMap.available Request.belowName
  cases hnull : q.temperature.isNull with
  | true =>
    -- without a temperature it is enough that there is a bucket, as none is empty
    obtain ⟨b, hb, hiff⟩ := hfilled.available_iff h₁ h₂
    refine ⟨b, hb, hiff.trans ?_⟩
    constructor
    · rintro ⟨e, he, hfile, d, hd, hversion⟩
      have hbucket := (hfilled.shelves e he).2.2 d hd
      obtain ⟨y, hy⟩ := List.exists_mem_of_ne_nil _ hbucket.nonempty
      refine ⟨⟨name, e.1.key, d.1.key, some y.1, y.2⟩, mem_placements.mpr
        ⟨e, he, d, hd, _, (mem_placed_iff hbucket).mpr ⟨y, hy, rfl⟩, rfl⟩, ?_⟩
      split
      · rename_i hboth
        exact ⟨hname, hfile, Value.asksFor_null _, Or.inl hnull⟩
      · rename_i hboth
        rw [if_neg fun hf => hboth ⟨hf, rfl⟩] at hversion
        exact ⟨hname, hfile, hversion, Or.inl hnull⟩
    · rintro ⟨p, hp, hmatch⟩
      obtain ⟨e, he, d, hd, x, hx, rfl⟩ := mem_placements.mp hp
      split at hmatch
      · rename_i hboth
        exact ⟨e, he, hmatch.fileType, d, hd, by rw [if_pos hboth.1]; exact Value.asksFor_null _⟩
      · rename_i hboth
        refine ⟨e, he, hmatch.fileType, d, hd, ?_⟩
        rw [if_neg fun hf => hboth ⟨hf, rfl⟩]
        exact hmatch.version
  | false =>
    obtain ⟨query, ht⟩ := hq.temperature.resolve_left (by rw [hnull]; decide)
    obtain ⟨bs, hbs, hmem⟩ := mem_buckets_iff hfilled h₁ h₂
    have hall : ∀ b ∈ bs, b.Filled := by
      intro b hb
      obtain ⟨e, he, -, d, hd, -, rfl⟩ := (hmem b).mp hb
      exact (hfilled.shelves e he).2.2 d hd
    refine ⟨bs.any fun b => b.entries.any (Bucket.isHit query), ?_, ?_⟩
    · simp only [Bool.false_eq_true, if_false, ht, hbs, bind, Except.bind]
      exact anyM_hasMatch hall query
    · rw [if_neg fun hboth => absurd hboth.2 (by decide), List.any_eq_true]
      constructor
      · rintro ⟨b, hb, hany⟩
        obtain ⟨y, hy, hhit⟩ := List.any_eq_true.mp hany
        obtain ⟨e, he, hfile, d, hd, hversion, rfl⟩ := (hmem b).mp hb
        refine ⟨⟨name, e.1.key, d.1.key, some y.1, y.2⟩, mem_placements.mpr
          ⟨e, he, d, hd, _, (mem_placed_iff (hall _ hb)).mpr ⟨y, hy, rfl⟩, rfl⟩, ?_⟩
        exact ⟨hname, hfile, hversion, Or.inr ⟨y.1, query, rfl, ht, hhit⟩⟩
      · rintro ⟨p, hp, hmatch⟩
        obtain ⟨e, he, d, hd, x, hx, rfl⟩ := mem_placements.mp hp
        have hb := (hmem d.2).mpr ⟨e, he, hmatch.fileType, d, hd, hmatch.version, rfl⟩
        obtain ⟨y, hy, rfl⟩ := (mem_placed_iff (hall _ hb)).mp hx
        obtain ⟨e', query', he', ht', hhit⟩ := hmatch.temperature.resolve_left (by rw [hnull]; decide)
        cases he'
        cases ht.symm.trans ht'
        exact ⟨d.2, hb, List.any_eq_true.mpr ⟨y, hy, hhit⟩⟩

end TemperatureMap

theorem VersionedMap.available_below {m : VersionedMap} (h : m.shelves.Filled fun _ => True)
    {q : Request} (hq : q.IsValid) (ht : q.temperature.isNull = true) :
    ∃ b, m.available q.fileType q.version = .ok b ∧
      (b = true ↔ ∃ p ∈ m.placements, p.Matches q.belowName) := by
  obtain ⟨k₁, h₁⟩ := hq.fileType
  obtain ⟨k₂, h₂⟩ := hq.version
  obtain ⟨b, hb, hiff⟩ := h.available_iff h₁ h₂
  refine ⟨b, hb, hiff.trans ?_⟩
  have hversion : q.belowName.version = if q.fileType.isNull then .null else q.version := by
    unfold Request.belowName
    simp only [ht, and_true]
    split <;> rfl
  have hrest : q.belowName.fileType = q.fileType ∧ q.belowName.temperature = q.temperature := by
    unfold Request.belowName
    split <;> exact ⟨rfl, rfl⟩
  simp only [mem_placements]
  constructor
  · rintro ⟨e, he, hfile, d, hd, hask⟩
    refine ⟨_, ⟨e, he, d, hd, rfl⟩, ?_⟩
    exact ⟨fun k hk => (by cases hk), hrest.1 ▸ hfile, hversion ▸ hask, Or.inl (hrest.2 ▸ ht)⟩
  · rintro ⟨p, ⟨e, he, d, hd, rfl⟩, hmatch⟩
    exact ⟨e, he, hrest.1 ▸ hmatch.fileType, d, hd, hversion ▸ hmatch.version⟩

/-- Without a name every map under a name counts, and none of them is empty. -/
theorem NamedMap.available_without_name {m : NamedMap} (h : (RecordMap.named m).Filled) :
    (!m.maps.isEmpty) = true ↔ ∃ p ∈ m.placements, p.Matches ⟨.null, .null, .null, .null⟩ := by
  rw [Table.isEmpty, Bool.not_eq_true', List.isEmpty_eq_false_iff]
  unfold placements
  simp only [List.mem_flatMap, TemperatureMap.mem_placements]
  constructor
  · intro hne
    obtain ⟨e, he⟩ := List.exists_mem_of_ne_nil _ hne
    obtain ⟨hsound, hshelves⟩ := h.2 e he
    obtain ⟨d, hd⟩ := List.exists_mem_of_ne_nil _ hshelves
    obtain ⟨-, hshelf, hbuckets⟩ := hsound.filled.shelves d hd
    obtain ⟨b, hb⟩ := List.exists_mem_of_ne_nil _ hshelf
    obtain ⟨y, hy⟩ := List.exists_mem_of_ne_nil _ (hbuckets b hb).nonempty
    refine ⟨_, ⟨e, he, d, hd, b, hb, _, (TemperatureMap.mem_placed_iff (hbuckets b hb)).mpr
      ⟨y, hy, rfl⟩, rfl⟩, ?_⟩
    exact ⟨fun k _ => Value.asksFor_null k, Value.asksFor_null _, Value.asksFor_null _, Or.inl rfl⟩
  · rintro ⟨p, ⟨e, he, -⟩, -⟩
    exact List.ne_nil_of_mem he

theorem NamedMap.available_request {m : NamedMap} (h : (RecordMap.named m).Filled) {q : Request}
    (hq : q.IsValid) : ∃ b, m.available q.name q.fileType q.version q.temperature = .ok b ∧
      (b = true ↔ ∃ p ∈ m.placements, p.Matches (q.considered .named)) := by
  unfold NamedMap.available Request.considered
  cases hnull : q.name.isNull with
  | true => exact ⟨_, rfl, available_without_name h⟩
  | false =>
    obtain ⟨k, hk⟩ := hq.name
    have hname : ∀ k', q.belowName.name.AsksFor k' ↔ k' = k := by
      intro k'
      unfold Request.belowName
      split <;> exact Value.asksFor_iff_eq hnull hk
    simp only [Bool.false_eq_true, if_false, and_false, Table.find_eq _ hk, bind, Except.bind]
    cases hget : m.maps.get? k with
    | none =>
      refine ⟨false, rfl, ?_⟩
      simp only [Bool.false_eq_true, false_iff]
      rintro ⟨p, hp, hmatch⟩
      obtain ⟨e, he, hp⟩ := List.mem_flatMap.mp hp
      obtain ⟨d, -, b, -, x, -, rfl⟩ := TemperatureMap.mem_placements.mp hp
      rw [(Table.mem_get?_iff h.1).mpr ⟨e, he, (hname _).mp (hmatch.name _ rfl), rfl⟩] at hget
      cases hget
    | some inner =>
      obtain ⟨e, he, rfl, rfl⟩ := (Table.mem_get?_iff h.1).mp hget
      have hask : ∀ k, some e.1.key = some k → q.name.AsksFor k := by
        rintro k' ⟨⟩
        exact Or.inr hk
      obtain ⟨b, hb, hiff⟩ := (h.2 e he).1.available_below hq hask
      refine ⟨b, hb, hiff.trans ?_⟩
      constructor
      · rintro ⟨p, hp, hmatch⟩
        exact ⟨p, List.mem_flatMap.mpr ⟨e, he, hp⟩, hmatch⟩
      · rintro ⟨p, hp, hmatch⟩
        obtain ⟨e', he', hp⟩ := List.mem_flatMap.mp hp
        obtain ⟨d, hd, c, hc, x, hx, rfl⟩ := TemperatureMap.mem_placements.mp hp
        -- a name that is asked for is the name of one map only
        have hkey := (hname _).mp (hmatch.name _ rfl)
        have hsame := (Table.mem_get?_iff h.1).mpr ⟨e', he', hkey, rfl⟩
        rw [← Option.some.inj (hget.symm.trans hsame)] at hd
        exact ⟨_, TemperatureMap.mem_placements.mpr ⟨d, hd, c, hc, x, hx, rfl⟩, hkey ▸ hmatch⟩

namespace RecordMap

theorem Filled.ask_available {m : RecordMap} (h : m.Filled) {args : List Value}
    (hcount : args.length ≤ m.shape.keyCount) (hargs : (Request.ofArguments m.shape args).IsValid) :
    ∃ b, m.ask .available args = Outcome.ok (.truth b) ∧ (b = true ↔ ∃ p ∈ m.placements,
      p.Matches ((Request.ofArguments m.shape args).considered m.shape)) := by
  have hask : m.ask .available args =
      match m with
      | versioned m => m.ask .available args
      | temperature m => m.ask .available args
      | named m => m.ask .available args := by
    unfold ask
    cases m <;> exact if_neg fun hlt => hlt.elim (Nat.not_lt_zero _) (Nat.not_lt.mpr hcount)
  rw [hask]
  cases m with
  | versioned m =>
    obtain ⟨b, hb, hiff⟩ := VersionedMap.available_below h hargs rfl
    exact ⟨b, congrArg (answered Answer.truth) hb, hiff⟩
  | temperature m =>
    obtain ⟨b, hb, hiff⟩ := TemperatureMap.Sound.available_below h hargs
      fun k (hk : none = some k) => by cases hk
    exact ⟨b, congrArg (answered Answer.truth) hb, hiff⟩
  | named m =>
    obtain ⟨b, hb, hiff⟩ := NamedMap.available_request h hargs
    exact ⟨b, congrArg (answered Answer.truth) hb, hiff⟩

/-- A check of availability always answers. It tells whether there is a record with the keys that it
looks at, so its false is right; its true is right too where no key is given below one that is left
out, but for a temperature. -/
theorem Built.availability {m : RecordMap} (h : m.Built) {args : List Value}
    (hcount : args.length ≤ m.shape.keyCount) (hargs : (Request.ofArguments m.shape args).IsValid) :
    ∃ b, m.ask .available args = Outcome.ok (.truth b) ∧
      (b = true ↔ ∃ p ∈ m.placements,
        p.Matches ((Request.ofArguments m.shape args).considered m.shape)) ∧
      ((∃ p ∈ m.placements, p.Matches (Request.ofArguments m.shape args)) → b = true) ∧
      ((Request.ofArguments m.shape args).IsNested m.shape →
        (b = true ↔ ∃ p ∈ m.placements, p.Matches (Request.ofArguments m.shape args))) := by
  obtain ⟨b, hb, hiff⟩ := h.filled.ask_available hcount hargs
  refine ⟨b, hb, hiff, ?_, fun hnested => ?_⟩
  · rintro ⟨p, hp, hmatch⟩
    exact hiff.mpr ⟨p, hp, hmatch.considered m.shape⟩
  · rw [Request.considered_eq hnested] at hiff
    exact hiff

def single : RecordMap :=
  ((empty .temperature "nuclear").set ⟨0⟩ (.hydrogen 0 ⟨1.0, Double.isMagnitude_one⟩)).1

theorem single_built : single.Built :=
  .set (.empty .temperature "nuclear") ⟨0⟩ (Record.hydrogen_built 0 _) rfl

theorem single_placements : single.placements =
    [⟨none, .text "ACE", .number (.int 0), some ⟨1.0, Double.isMagnitude_one⟩, ⟨0⟩⟩] := by
  with_unfolding_all rfl

theorem single_availability :
    single.Built ∧
      ∃ b, single.ask .available [.text "ACE" .shared, .int 0 .shared] = Outcome.ok (.truth b) ∧
        (b = true ↔ ∃ p ∈ single.placements,
          p.Matches ⟨.null, .text "ACE" .shared, .int 0 .shared, .null⟩) := by
  obtain ⟨b, hb, -, -, hnested⟩ := single_built.availability
    (show [Value.text "ACE" .shared, .int 0 .shared].length ≤ 3 by decide)
    ⟨⟨_, rfl⟩, ⟨_, rfl⟩, ⟨_, rfl⟩, Or.inl rfl⟩
  exact ⟨single_built, b, hb, hnested ⟨fun h => (by cases h), fun h => (by cases h)⟩⟩

def singleName : RecordMap :=
  ((empty .named "thermal nuclear").set ⟨0⟩
    (.boundHydrogen (.text "H2O" .shared) ⟨1.0, Double.isMagnitude_one⟩)).1

/-- A version is not looked at where the file type is left out, and nothing where the name is. -/
theorem availability_overlooked :
    (single.Built ∧ (Request.ofArguments .temperature [.null, .int 7 .shared]).IsValid ∧
      single.ask .available [.null, .int 7 .shared] = Outcome.ok (.truth true) ∧
      ¬ ∃ p ∈ single.placements,
        p.Matches (Request.ofArguments .temperature [.null, .int 7 .shared])) ∧
    (singleName.Built ∧ (Request.ofArguments .named [.null, .text "Native" .shared]).IsValid ∧
      singleName.ask .available [.null, .text "Native" .shared] = Outcome.ok (.truth true) ∧
      ¬ ∃ p ∈ singleName.placements,
        p.Matches (Request.ofArguments .named [.null, .text "Native" .shared])) := by
  have hplaced : singleName.placements =
      [⟨some (.text "H2O"), .text "ACE", .number (.int 0), some ⟨1.0, Double.isMagnitude_one⟩, ⟨0⟩⟩] := by
    with_unfolding_all rfl
  refine ⟨⟨single_built, ⟨⟨_, rfl⟩, ⟨_, rfl⟩, ⟨_, rfl⟩, Or.inl rfl⟩, by with_unfolding_all rfl, ?_⟩,
    ⟨.set (.empty .named "thermal nuclear") ⟨0⟩ (Record.boundHydrogen_built _ _) rfl,
      ⟨⟨_, rfl⟩, ⟨_, rfl⟩, ⟨_, rfl⟩, Or.inl rfl⟩, by with_unfolding_all rfl, ?_⟩⟩
  · rw [single_placements]
    rintro ⟨p, hp, hmatch⟩
    cases List.mem_singleton.mp hp
    exact hmatch.version.elim (fun h => by cases h) (fun h => absurd h (by decide))
  · rw [hplaced]
    rintro ⟨p, hp, hmatch⟩
    cases List.mem_singleton.mp hp
    exact hmatch.fileType.elim (fun h => by cases h) (fun h => absurd h (by decide))

end RecordMap

end ScatteringData
