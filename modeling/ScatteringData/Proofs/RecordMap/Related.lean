import Mathlib
import ScatteringData.Proofs.Store.Nodes

/-!
# Maps that differ in their records only

Two maps have the same keys in the same order, and the records under each key are related. That is
what replacing the records of a map one after the other leaves behind.
-/

namespace ScatteringData

section
variable {α β : Type}

theorem forall₂_exists_of_mem {R : α → β → Prop} {xs : List α} {ys : List β}
    (h : List.Forall₂ R xs ys) {y : β} (hy : y ∈ ys) : ∃ x ∈ xs, R x y := by
  induction h with
  | nil => cases hy
  | @cons x _ xs _ hxy _ ih =>
    rcases List.mem_cons.mp hy with rfl | hy
    · exact ⟨x, List.mem_cons_self .., hxy⟩
    · obtain ⟨z, hz, hzy⟩ := ih hy
      exact ⟨z, List.mem_cons_of_mem _ hz, hzy⟩

/-- The same labels in the same order, with related contents. -/
def Table.Related (R : α → β → Prop) (t : Table α) (u : Table β) : Prop :=
  List.Forall₂ (fun e d => e.1 = d.1 ∧ R e.2 d.2) t.entries u.entries

theorem Table.Related.imp {R S : α → β → Prop} {t : Table α} {u : Table β} (h : t.Related R u)
    (hRS : ∀ a b, R a b → S a b) : t.Related S u :=
  List.Forall₂.imp (fun _ _ hed => hed.imp_right (hRS _ _)) h

theorem Table.Related.refl {R : α → α → Prop} (hR : ∀ a, R a a) (t : Table α) : t.Related R t :=
  List.forall₂_same.mpr fun e _ => ⟨rfl, hR e.2⟩

theorem Table.Related.exists_of_mem {Q : α → β → Prop} {t : Table α} {u : Table β}
    (h : t.Related Q u) {d : Label × β} (hd : d ∈ u.entries) :
    ∃ e ∈ t.entries, e.1 = d.1 ∧ Q e.2 d.2 :=
  forall₂_exists_of_mem h hd

end

variable {R S : RecordRef → RecordRef → Prop}

/-- The same energies or the same text, with related records. -/
inductive Bucket.Related (R : RecordRef → RecordRef → Prop) : Bucket → Bucket → Prop
  | graded {es fs : List (Energy × RecordRef)}
    (h : List.Forall₂ (fun x y => x.1 = y.1 ∧ R x.2 y.2) es fs) : Related R (.graded es) (.graded fs)
  | lone {text : String} {r q : RecordRef} (h : R r q) : Related R (.lone text r) (.lone text q)

structure TemperatureMap.Related (R : RecordRef → RecordRef → Prop) (m n : TemperatureMap) : Prop where
  category : m.category = n.category
  shelves : Table.Related (Table.Related (Bucket.Related R)) m.shelves n.shelves

/-- Maps of one shape and category with the same keys and related records. -/
inductive RecordMap.Related (R : RecordRef → RecordRef → Prop) : RecordMap → RecordMap → Prop
  | versioned {m n : VersionedMap} (category : m.category = n.category)
    (h : Table.Related (Table.Related R) m.shelves n.shelves) : Related R (.versioned m) (.versioned n)
  | temperature {m n : TemperatureMap} (h : TemperatureMap.Related R m n) :
    Related R (.temperature m) (.temperature n)
  | named {m n : NamedMap} (category : m.category = n.category)
    (h : Table.Related (TemperatureMap.Related R) m.maps n.maps) : Related R (.named m) (.named n)

theorem RecordMap.Related.shape {m n : RecordMap} (h : m.Related R n) : m.shape = n.shape := by
  cases h with
  | versioned _ _ => rfl
  | temperature _ => rfl
  | named _ _ => rfl

/-! ## Weakening -/

theorem Bucket.Related.imp {b c : Bucket} (h : b.Related R c) (hRS : ∀ r q, R r q → S r q) :
    b.Related S c := by
  cases h with
  | graded h => exact .graded (h.imp fun _ _ hxy => hxy.imp_right (hRS _ _))
  | lone h => exact .lone (hRS _ _ h)

theorem TemperatureMap.Related.imp {m n : TemperatureMap} (h : m.Related R n)
    (hRS : ∀ r q, R r q → S r q) : m.Related S n :=
  ⟨h.category, h.shelves.imp fun _ _ hs => hs.imp fun _ _ hb => hb.imp hRS⟩

theorem RecordMap.Related.imp {m n : RecordMap} (h : m.Related R n) (hRS : ∀ r q, R r q → S r q) :
    m.Related S n := by
  cases h with
  | versioned hc h => exact .versioned hc (h.imp fun _ _ hs => hs.imp hRS)
  | temperature h => exact .temperature (h.imp hRS)
  | named hc h => exact .named hc (h.imp fun _ _ hm => hm.imp hRS)

/-! ## Related to itself -/

section
variable (hR : ∀ r, R r r)
include hR

theorem Bucket.Related.refl (b : Bucket) : b.Related R b := by
  cases b with
  | graded es => exact .graded (List.forall₂_same.mpr fun x _ => ⟨rfl, hR x.2⟩)
  | lone text r => exact .lone (hR r)

theorem TemperatureMap.Related.refl (m : TemperatureMap) : m.Related R m :=
  ⟨rfl, Table.Related.refl (Table.Related.refl (Bucket.Related.refl hR)) m.shelves⟩

theorem RecordMap.Related.refl (m : RecordMap) : m.Related R m := by
  cases m with
  | versioned m => exact .versioned rfl (Table.Related.refl (Table.Related.refl hR) m.shelves)
  | temperature m => exact .temperature (TemperatureMap.Related.refl hR m)
  | named m => exact .named rfl (Table.Related.refl (TemperatureMap.Related.refl hR) m.maps)

end

/-! ## Passes -/

/-- A function keeps an invariant of the state, moves the state on, and relates what it returns to
what it was given, also in all later states. -/
structure Passes {σ α β : Type} (Inv : σ → Prop) (Le : σ → σ → Prop) (g : σ → α → σ × β)
    (Fit : α → Prop) (Q : σ → α → β → Prop) : Prop where
  kept : ∀ {s t a b}, Q s a b → Le s t → Q t a b
  step : ∀ {s a}, Inv s → Fit a → Inv (g s a).1 ∧ Le s (g s a).1 ∧ Q (g s a).1 a (g s a).2

section
variable {σ α β : Type} {Inv : σ → Prop} {Le : σ → σ → Prop}
  (trans : ∀ {s t u}, Le s t → Le t u → Le s u)
include trans

theorem Passes.atomicMaps {g : σ → α → σ × β} {Fit : α → Prop} {Q : σ → α → β → Prop}
    (h : Passes Inv Le g Fit Q) :
    Passes Inv Le (AtomicMaps.rebuild g) (fun ms => ∀ c, Fit (ms.get c))
      fun s ms ns => ∀ c, Q s (ms.get c) (ns.get c) := by
  refine ⟨fun hms hle c => h.kept (hms c) hle, fun {s ms} hs hms => ?_⟩
  obtain ⟨h₁, l₁, r₁⟩ := h.step hs (hms .photoatomic)
  obtain ⟨h₂, l₂, r₂⟩ := h.step h₁ (hms .adjointPhotoatomic)
  obtain ⟨h₃, l₃, r₃⟩ := h.step h₂ (hms .electroatomic)
  obtain ⟨h₄, l₄, r₄⟩ := h.step h₃ (hms .adjointElectroatomic)
  refine ⟨h₄, trans l₁ (trans l₂ (trans l₃ l₄)), fun c => ?_⟩
  cases c with
  | photoatomic => exact h.kept r₁ (trans l₂ (trans l₃ l₄))
  | adjointPhotoatomic => exact h.kept r₂ (trans l₃ l₄)
  | electroatomic => exact h.kept r₃ l₄
  | adjointElectroatomic => exact r₄

theorem Passes.nuclideMaps {g : σ → α → σ × β} {Fit : α → Prop} {Q : σ → α → β → Prop}
    (h : Passes Inv Le g Fit Q) :
    Passes Inv Le (NuclideMaps.rebuild g) (fun ms => ∀ c, Fit (ms.get c))
      fun s ms ns => ∀ c, Q s (ms.get c) (ns.get c) := by
  refine ⟨fun hms hle c => h.kept (hms c) hle, fun {s ms} hs hms => ?_⟩
  obtain ⟨h₁, l₁, r₁⟩ := h.step hs (hms .nuclear)
  obtain ⟨h₂, l₂, r₂⟩ := h.step h₁ (hms .adjointNuclear)
  obtain ⟨h₃, l₃, r₃⟩ := h.step h₂ (hms .thermalNuclear)
  obtain ⟨h₄, l₄, r₄⟩ := h.step h₃ (hms .adjointThermalNuclear)
  obtain ⟨h₅, l₅, r₅⟩ := h.step h₄ (hms .photonuclear)
  obtain ⟨h₆, l₆, r₆⟩ := h.step h₅ (hms .adjointPhotonuclear)
  have l₅' := trans l₅ l₆
  have l₄' := trans l₄ l₅'
  have l₃' := trans l₃ l₄'
  have l₂' := trans l₂ l₃'
  refine ⟨h₆, trans l₁ l₂', fun c => ?_⟩
  cases c with
  | nuclear => exact h.kept r₁ l₂'
  | adjointNuclear => exact h.kept r₂ l₃'
  | thermalNuclear => exact h.kept r₃ l₄'
  | adjointThermalNuclear => exact h.kept r₄ l₅'
  | photonuclear => exact h.kept r₅ l₆
  | adjointPhotonuclear => exact r₆

end

section
variable {σ α β : Type} {Inv : σ → Prop} {Le : σ → σ → Prop} (refl : ∀ s, Le s s)
  (trans : ∀ {s t u}, Le s t → Le t u → Le s u)
include refl trans

theorem Passes.table {g : σ → α → σ × β} {Fit : α → Prop} {Q : σ → α → β → Prop}
    (h : Passes Inv Le g Fit Q) :
    Passes Inv Le (Table.rebuild g) (fun t => ∀ e ∈ t.entries, Fit e.2) fun s => Table.Related (Q s) := by
  refine ⟨fun ht hle => ht.imp fun a b hab => h.kept hab hle, fun {s t} hs ht => ?_⟩
  obtain ⟨es⟩ := t
  unfold Table.rebuild Table.Related
  simp only at ht ⊢
  induction es generalizing s with
  | nil => exact ⟨hs, refl s, .nil⟩
  | cons e es ih =>
    obtain ⟨hinv, hle, hQ⟩ := h.step hs (ht e (List.mem_cons_self ..))
    obtain ⟨hinv', hle', hrest⟩ := ih hinv fun d hd => ht d (List.mem_cons_of_mem _ hd)
    exact ⟨hinv', trans hle hle', .cons ⟨rfl, h.kept hQ hle'⟩ hrest⟩

variable {f : σ → RecordRef → σ × RecordRef} {Fit : RecordRef → Prop}
  {Q : σ → RecordRef → RecordRef → Prop} (h : Passes Inv Le f Fit Q)
include h

theorem Passes.bucket : Passes Inv Le (Bucket.rebuild f) (fun b => ∀ r ∈ b.records, Fit r)
    fun s => Bucket.Related (Q s) := by
  refine ⟨fun hb hle => hb.imp fun r q hrq => h.kept hrq hle, fun {s b} hs hb => ?_⟩
  cases b with
  | lone text r =>
    obtain ⟨hinv, hle, hQ⟩ := h.step hs (hb r (List.mem_singleton_self r))
    exact ⟨hinv, hle, .lone hQ⟩
  | graded es =>
    have hes : Inv (Bucket.rebuildEntries f s es).1 ∧ Le s (Bucket.rebuildEntries f s es).1 ∧
        List.Forall₂ (fun x y => x.1 = y.1 ∧ Q (Bucket.rebuildEntries f s es).1 x.2 y.2) es
          (Bucket.rebuildEntries f s es).2 := by
      unfold Bucket.records at hb
      induction es generalizing s with
      | nil => exact ⟨hs, refl s, .nil⟩
      | cons x es ih =>
        obtain ⟨hinv, hle, hQ⟩ := h.step hs (hb x.2 (List.mem_cons_self ..))
        obtain ⟨hinv', hle', hrest⟩ := ih hinv fun r hr => hb r (List.mem_cons_of_mem _ hr)
        exact ⟨hinv', trans hle hle', .cons ⟨rfl, h.kept hQ hle'⟩ hrest⟩
    exact ⟨hes.1, hes.2.1, .graded hes.2.2⟩

theorem Passes.temperatureMap : Passes Inv Le (TemperatureMap.rebuild f)
    (fun m => ∀ r ∈ m.records, Fit r) fun s => TemperatureMap.Related (Q s) := by
  refine ⟨fun hm hle => hm.imp fun r q hrq => h.kept hrq hle, fun {s m} hs hm => ?_⟩
  have hfit : ∀ d ∈ m.shelves.entries, ∀ c ∈ d.2.entries, ∀ r ∈ c.2.records, Fit r := by
    intro d hd c hc r hr
    refine hm r (List.mem_flatMap.mpr ⟨c.2, List.mem_flatMap.mpr ⟨d.2, ?_, ?_⟩, hr⟩)
    · exact List.mem_map_of_mem hd
    · exact List.mem_map_of_mem hc
  have hpass := ((h.bucket refl trans).table refl trans).table refl trans
  obtain ⟨hinv, hle, hrel⟩ := hpass.step hs hfit
  exact ⟨hinv, hle, rfl, hrel⟩

theorem Passes.recordMap : Passes Inv Le (RecordMap.rebuild f) (fun m => ∀ r ∈ m.records, Fit r)
    fun s => RecordMap.Related (Q s) := by
  refine ⟨fun hm hle => hm.imp fun r q hrq => h.kept hrq hle, fun {s m} hs hm => ?_⟩
  cases m with
  | versioned m =>
    have hfit : ∀ d ∈ m.shelves.entries, ∀ c ∈ d.2.entries, Fit c.2 := by
      intro d hd c hc
      refine hm c.2 (List.mem_flatMap.mpr ⟨d.2, List.mem_map_of_mem hd, ?_⟩)
      exact List.mem_map_of_mem hc
    obtain ⟨hinv, hle, hrel⟩ := ((h.table refl trans).table refl trans).step hs hfit
    exact ⟨hinv, hle, .versioned rfl hrel⟩
  | temperature m =>
    obtain ⟨hinv, hle, hrel⟩ := (h.temperatureMap refl trans).step hs hm
    exact ⟨hinv, hle, .temperature hrel⟩
  | named m =>
    have hfit : ∀ d ∈ m.maps.entries, ∀ r ∈ d.2.records, Fit r := by
      intro d hd r hr
      exact hm r (List.mem_flatMap.mpr ⟨d.2, List.mem_map_of_mem hd, hr⟩)
    obtain ⟨hinv, hle, hrel⟩ := ((h.temperatureMap refl trans).table refl trans).step hs hfit
    exact ⟨hinv, hle, .named rfl hrel⟩

end

/-! ## Rebuilding around the same records -/

section
variable {σ α : Type}

theorem Table.rebuild_same {g : σ → α → σ × α} (h : ∀ s a, g s a = (s, a)) (s : σ) (t : Table α) :
    t.rebuild g s = (s, t) := by
  obtain ⟨es⟩ := t
  unfold Table.rebuild
  induction es with
  | nil => rfl
  | cons e es ih =>
    simp only [Prod.mk.injEq, Table.mk.injEq] at ih
    simp only [Table.rebuildIn, h, ih]

variable {f : σ → RecordRef → σ × RecordRef} (h : ∀ s r, f s r = (s, r)) (s : σ)
include h

theorem Bucket.rebuild_same (b : Bucket) : b.rebuild f s = (s, b) := by
  cases b with
  | lone text r => simp only [Bucket.rebuild, h]
  | graded es =>
    have hes : Bucket.rebuildEntries f s es = (s, es) := by
      induction es with
      | nil => rfl
      | cons x es ih => simp only [Bucket.rebuildEntries, h, ih]
    simp only [Bucket.rebuild, hes]

theorem TemperatureMap.rebuild_same (m : TemperatureMap) : m.rebuild f s = (s, m) := by
  have hshelves : m.shelves.rebuild (Bucket.rebuild f) s = (s, m.shelves) :=
    Table.rebuild_same (Table.rebuild_same (Bucket.rebuild_same h)) s m.shelves
  simp only [TemperatureMap.rebuild, hshelves]

/-- Every level of a map is rebuilt, around the same records in the same places. -/
theorem RecordMap.rebuild_same (m : RecordMap) : m.rebuild f s = (s, m) := by
  cases m with
  | versioned m =>
    have hshelves : m.shelves.rebuild f s = (s, m.shelves) :=
      Table.rebuild_same (Table.rebuild_same h) s m.shelves
    simp only [RecordMap.rebuild, VersionedMap.rebuild, hshelves]
  | temperature m => simp only [RecordMap.rebuild, TemperatureMap.rebuild_same h]
  | named m =>
    have hmaps := Table.rebuild_same (TemperatureMap.rebuild_same h) s m.maps
    simp only [RecordMap.rebuild, NamedMap.rebuild, hmaps]

end

/-! ## References -/

def TemperatureMap.keyNodes (m : TemperatureMap) : List Node :=
  m.shelves.nodes (Table.nodes fun _ => [])

def RecordMap.keyNodes : RecordMap → List Node
  | versioned m => m.shelves.nodes (Table.nodes fun _ => [])
  | temperature m => m.keyNodes
  | named m => m.maps.nodes TemperatureMap.keyNodes

theorem Table.nodes_mono {α : Type} {before after : α → List Node}
    (h : ∀ a, ∀ n ∈ before a, n ∈ after a) {t : Table α} {n : Node} (hn : n ∈ t.nodes before) :
    n ∈ t.nodes after := by
  obtain ⟨e, he, hor⟩ := Table.mem_nodes.mp hn
  exact Table.mem_nodes.mpr ⟨e, he, hor.imp_right (h e.2 n)⟩

theorem Shelves.keyNodes_subset {α : Type} {content : α → List Node} {s : Shelves α} {n : Node}
    (hn : n ∈ Table.nodes (Table.nodes fun _ => []) s) : n ∈ Table.nodes (Table.nodes content) s := by
  refine Table.nodes_mono (fun shelf k hk => ?_) hn
  exact Table.nodes_mono (fun _ _ hj => absurd hj List.not_mem_nil) hk

theorem RecordMap.keyNodes_subset (m : RecordMap) : ∀ n ∈ m.keyNodes, n ∈ m.nodes := by
  cases m with
  | versioned m => exact fun _ hn => Shelves.keyNodes_subset hn
  | temperature m => exact fun _ hn => Shelves.keyNodes_subset hn
  | named m => exact fun _ hn => Table.nodes_mono (fun _ _ hk => Shelves.keyNodes_subset hk) hn

variable {P : Node → Prop}

theorem Table.Related.nodes {α β : Type} {Q : α → β → Prop} {t : Table α} {u : Table β}
    {before : α → List Node} {after : β → List Node} (h : t.Related Q u)
    (ht : ∀ n ∈ t.nodes before, P n)
    (hQ : ∀ a b, Q a b → (∀ n ∈ before a, P n) → ∀ n ∈ after b, P n) :
    ∀ n ∈ u.nodes after, P n := by
  intro n hn
  obtain ⟨d, hd, hor⟩ := Table.mem_nodes.mp hn
  obtain ⟨e, he, hlabel, hcontent⟩ := h.exists_of_mem hd
  rcases hor with hn | hn
  · exact ht n (Table.mem_nodes.mpr ⟨e, he, Or.inl (hlabel ▸ hn)⟩)
  · refine hQ _ _ hcontent (fun k hk => ?_) n hn
    exact ht k (Table.mem_nodes.mpr ⟨e, he, Or.inr hk⟩)

section
variable (hR : ∀ r q, R r q → P (.record q))
include hR

theorem Bucket.Related.nodes {b c : Bucket} (h : b.Related R c) : ∀ n ∈ c.nodes, P n := by
  cases h with
  | lone h =>
    intro n hn
    rw [Bucket.nodes, Bucket.records, List.map_singleton, List.mem_singleton] at hn
    exact hn ▸ hR _ _ h
  | graded h =>
    intro n hn
    obtain ⟨y, hy, rfl⟩ := Bucket.mem_nodes_graded.mp hn
    obtain ⟨x, -, -, hxy⟩ := forall₂_exists_of_mem h hy
    exact hR _ _ hxy

theorem TemperatureMap.Related.nodes {m n : TemperatureMap} (h : m.Related R n)
    (hm : ∀ k ∈ m.keyNodes, P k) : ∀ k ∈ n.nodes, P k :=
  Table.Related.nodes h.shelves hm fun _ _ hs hnodes =>
    Table.Related.nodes hs hnodes fun _ _ hb _ => hb.nodes hR

theorem RecordMap.Related.nodes {m n : RecordMap} (h : m.Related R n) (hm : ∀ k ∈ m.keyNodes, P k) :
    ∀ k ∈ n.nodes, P k := by
  cases h with
  | versioned _ h =>
    refine Table.Related.nodes h hm fun _ _ hs hnodes => Table.Related.nodes hs hnodes ?_
    intro r q hrq _ k hk
    rw [List.mem_singleton] at hk
    exact hk ▸ hR r q hrq
  | temperature h => exact h.nodes hR hm
  | named _ h => exact Table.Related.nodes h hm fun _ _ hm hnodes => hm.nodes hR hnodes

end

end ScatteringData
