import Mathlib
import ScatteringData.Proofs.Store.Caching

/-!
# Removing from a cache

A name that is removed goes with all its aliases, and nothing else does. What is gone stays unknown
until it is added or made an alias itself: adding the name again brings no alias back.
-/

namespace ScatteringData

namespace Cache

variable {named : Object → String → Prop} {c d : Cache} {k : Key}

/-! ## Counting -/

/-- No name and no alias is there twice. -/
structure Distinct (c : Cache) : Prop where
  kept : c.kept.Distinct
  aliases : c.aliases.Distinct

/-- How many aliases stand for a text. -/
def aliasCount (c : Cache) (n : String) : Nat := c.aliases.entries.countP fun e => e.2.chars? = some n

theorem Distinct.remove (h : c.Distinct) (name : Value) : (c.remove name).1.Distinct := by
  rcases c.remove_cases name with ⟨heq, -⟩ | ⟨k, -, -, -, heq⟩
  · rw [heq]
    exact h
  · rw [heq]
    exact ⟨h.kept.erase k, h.aliases.filter _⟩

/-! ## What is not known -/

/-- A key is neither a name nor an alias. -/
structure Unknown (c : Cache) (k : Key) : Prop where
  kept : k ∉ c.kept.keys
  aliases : k ∉ c.aliases.keys

theorem Unknown.answers {v : Value} {n : String} (h : c.Unknown (.text n)) (hv : v.chars? = some n) :
    c.knows v = .ok false ∧ c.get v = .error (.request (.notCached v)) := by
  have hnot : c.knows v ≠ .ok true := by
    rw [ne_eq, knows_eq_true_iff hv]
    exact not_or.mpr ⟨h.kept, h.aliases⟩
  refine ⟨?_, get_eq_error hv hnot⟩
  unfold knows at hnot ⊢
  rw [Value.key_eq (Value.chars?_eq_some_iff.mp hv)] at hnot ⊢
  exact congrArg Except.ok (Bool.eq_false_iff.mpr fun htrue => hnot (congrArg Except.ok htrue))

theorem Unknown.keep (h : c.Unknown k) {l : Label} (hl : l.key ≠ k) (o : Object) :
    (c.keep l o).Unknown k := by
  refine ⟨fun hmem => ?_, h.aliases⟩
  exact ((Table.mem_keys_put _ _ _ _).mp hmem).elim (fun heq => hl heq.symm) h.kept

theorem Unknown.remove (h : c.Unknown k) (name : Value) : (c.remove name).1.Unknown k := by
  rcases c.remove_cases name with ⟨heq, -⟩ | ⟨j, -, -, -, heq⟩
  · rw [heq]
    exact h
  · rw [heq]
    refine ⟨fun hmem => h.kept ((Table.mem_keys_erase _ _ _).mp hmem).1, fun hmem => ?_⟩
    obtain ⟨e, he, rfl⟩ := List.mem_map.mp hmem
    exact h.aliases (List.mem_map_of_mem (List.mem_of_mem_filter he))

theorem Unknown.link (h : c.Unknown k) {other name : Value} (hother : other.key? ≠ some k)
    (hd : c.link other name = .ok d) : d.Unknown k := by
  obtain ⟨l, j, hl, -, -, -, rfl⟩ := link_eq_ok hd
  refine ⟨h.kept, fun hmem => ?_⟩
  rcases (Table.mem_keys_put _ _ _ _).mp hmem with rfl | hmem
  · exact hother hl
  · exact h.aliases hmem

theorem Unknown.unlink (h : c.Unknown k) {other : Value} (hd : c.unlink other = .ok d) :
    d.Unknown k := by
  rcases unlink_eq_ok hd with rfl | ⟨j, rfl⟩
  · exact h
  · exact ⟨h.kept, fun hmem => h.aliases ((Table.mem_keys_erase _ _ _).mp hmem).1⟩

/-! ## Removing a name that is kept -/

section
variable (h : c.Consistent named) {name : Value} {n : String} (hname : name.chars? = some n)
  (hn : .text n ∈ c.kept.keys)
include h hname hn

theorem Consistent.removed : (c.remove name).1.kept = c.kept.erase (.text n) ∧
    (c.remove name).1.aliases = ⟨c.aliases.entries.filter fun e => e.2.chars? ≠ some n⟩ := by
  rcases c.remove_cases name with ⟨-, hnot⟩ | ⟨k, hk, -, -, heq⟩
  · exact absurd hn (hnot _ (Value.chars?_eq_some_iff.mp hname)).1
  · cases (Value.chars?_eq_some_iff.mp hname).symm.trans hk
    rw [heq]
    refine ⟨rfl, congrArg Table.mk (List.filter_congr fun e he => ?_)⟩
    obtain ⟨m, hm, -⟩ := h.aliases e he
    rw [Value.equals_of_chars? hm, Value.chars?_eq_some_iff.mp hm, hk, hm]
    by_cases hmn : m = n <;> simp [hmn]

variable (hdistinct : c.Distinct)
include hdistinct

theorem Consistent.size_removed : (c.remove name).1.kept.size + 1 = c.kept.size ∧
    (c.remove name).1.aliases.size + c.aliasCount n = c.aliases.size := by
  obtain ⟨hkept, haliases⟩ := h.removed hname hn
  rw [hkept, haliases]
  refine ⟨Table.size_erase hdistinct.kept hn, ?_⟩
  have hsplit := List.length_eq_countP_add_countP (fun e : Label × Value => e.2.chars? = some n)
    (l := c.aliases.entries)
  rw [Nat.add_comm, Table.size, Table.size, hsplit, aliasCount, List.countP_eq_length_filter,
    List.countP_eq_length_filter]
  congr 2
  exact List.filter_congr fun e _ => by simp

theorem Consistent.aliases_removed (k : Key) : (c.remove name).1.aliases.get? k =
    (c.aliases.get? k).filter fun target => target.chars? ≠ some n := by
  rw [(h.removed hname hn).2]
  exact Table.get?_filter hdistinct.aliases (fun target : Value => target.chars? ≠ some n) k

variable {v : Value} {l : String} (hv : v.chars? = some l)
include hv

theorem Consistent.unknown_removed (hleads : c.Leads (.text n) v) :
    (c.remove name).1.Unknown (.text l) := by
  have hl := Value.chars?_eq_some_iff.mp hv
  constructor
  · rw [(h.removed hname hn).1, Table.mem_keys_erase]
    rintro ⟨hmem, hne⟩
    rcases hleads with hself | ⟨j, target, hj, htarget, -⟩
    · exact hne (Option.some.inj (hl.symm.trans hself))
    · cases hl.symm.trans hj
      exact h.apart _ ((Table.isSome_get?_iff _ _).mp (by rw [htarget]; rfl)) hmem
  · rw [← Table.get?_eq_none_iff, h.aliases_removed hname hn hdistinct]
    rcases hleads with hself | ⟨j, target, hj, htarget, hk⟩
    · cases hl.symm.trans hself
      rw [(Table.get?_eq_none_iff _ _).mpr fun hmem => h.apart _ hmem hn]
      rfl
    · cases hl.symm.trans hj
      rw [htarget, Option.filter_some_neg]
      simp [Value.chars?_eq_some_iff.mpr hk]

theorem Consistent.same_removed (hleads : ¬ c.Leads (.text n) v) :
    (c.remove name).1.get v = c.get v ∧ (c.remove name).1.knows v = c.knows v := by
  have hl := Value.chars?_eq_some_iff.mp hv
  have hne : l ≠ n := by
    rintro rfl
    exact hleads (Or.inl hl)
  have hkept : ∀ m, m ≠ n → (c.remove name).1.kept.get? (.text m) = c.kept.get? (.text m) := by
    intro m hm
    rw [(h.removed hname hn).1, Table.get?_erase _ (by simpa using hm)]
  -- the text is no alias, or it is one of another name, and then the alias stays
  obtain ⟨m, hm, hother, halias⟩ : ∃ m, ((c.aliases.get? (.text l)).getD v).chars? = some m ∧ m ≠ n ∧
      (c.remove name).1.aliases.get? (.text l) = c.aliases.get? (.text l) := by
    rw [h.aliases_removed hname hn hdistinct]
    cases htarget : c.aliases.get? (.text l) with
    | none => exact ⟨l, hv, hne, rfl⟩
    | some target =>
      obtain ⟨e, he, -⟩ := Table.mem_of_get? htarget
      obtain ⟨m, hm, -⟩ : ∃ m, target.chars? = some m ∧ _ := h.aliases _ he
      have hother : m ≠ n := by
        rintro rfl
        exact hleads (Or.inr ⟨_, target, hl, htarget, Value.chars?_eq_some_iff.mp hm⟩)
      exact ⟨m, hm, hother, Option.filter_some_pos (by simp [hm, hother])⟩
  constructor
  · rw [get_eq hv (by rw [halias]) hm, get_eq hv rfl hm, hkept m hother]
  · unfold knows Table.contains
    rw [Value.key_eq hl]
    simp only [bind, Except.bind, halias, hkept l hne]

end

end Cache

theorem Value.nodes_of_chars? {v : Value} {n : String} (h : v.chars? = some n) : v.nodes = [] := by
  cases v with
  | text t m => rfl
  | fileType t => rfl
  | _ => cases h

/-- An operation puts nothing into a cache under a key. -/
def Operation.Omits (s : Store) (c : CacheRef) (k : Key) : Operation → Prop
  | .addToCache d v => d = c → ∀ name, s.nameOf? v = some name → name.key? ≠ some k
  | .link d other _ => d = c → other.key? ≠ some k
  | _ => True

namespace Store

/-- Later stores, up to which no operation puts anything into a cache under a key. -/
inductive Omitted (c : CacheRef) (k : Key) (t : Store) : Store → Prop
  | refl : Omitted c k t t
  | perform {u : Store} (h : Omitted c k t u) (op : Operation) (hop : u.Admits op)
    (homits : op.Omits u c k) : Omitted c k t (u.perform op).1
  | tick {u : Store} (h : Omitted c k t u) : Omitted c k t u.tick

variable {s t u : Store} {c : CacheRef} {k : Key} {op : Operation}

theorem unknown_perform (h : (s.cache c).Unknown k) (hs : s.Closed) (hc : s.Holds (.cache c))
    (hop : s.Admits op) (homits : op.Omits s c k) : ((s.perform op).1.cache c).Unknown k := by
  refine cache_perform_of (P := (·.Unknown k)) hs hc hop h fun x r _ hchange => ?_
  cases hchange with
  | @keep v name l o hname hl _ _ =>
    refine h.keep ?_ o
    rintro rfl
    exact homits rfl name hname hl
  | remove => exact h.remove _
  | link hx => exact h.link (homits rfl) hx
  | unlink hx => exact h.unlink hx
  | clear => exact ⟨List.not_mem_nil, List.not_mem_nil⟩

theorem Omitted.unknown (h : Omitted c k t u) (ht : t.Closed) (hc : t.Holds (.cache c))
    (hunknown : (t.cache c).Unknown k) :
    u.Closed ∧ u.Holds (.cache c) ∧ (u.cache c).Unknown k := by
  induction h with
  | refl => exact ⟨ht, hc, hunknown⟩
  | perform _ op hop homits ih =>
    obtain ⟨hclosed, hheld, hu⟩ := ih
    refine ⟨hclosed.perform hop, ?_, unknown_perform hu hclosed hheld hop homits⟩
    exact (perform_frame hclosed hop).holds _ hheld
  | tick _ ih => exact ih

theorem distinct_perform (h : (s.cache c).Distinct) (hs : s.Closed) (hc : s.Holds (.cache c))
    (hop : s.Admits op) : ((s.perform op).1.cache c).Distinct := by
  refine cache_perform_of (P := Cache.Distinct) hs hc hop h fun x r _ hchange => ?_
  cases hchange with
  | keep => exact ⟨h.kept.put _ _, h.aliases⟩
  | remove => exact h.remove _
  | link hx =>
    obtain ⟨l, k, -, -, -, -, rfl⟩ := Cache.link_eq_ok hx
    exact ⟨h.kept, h.aliases.put _ _⟩
  | unlink hx =>
    rcases Cache.unlink_eq_ok hx with rfl | ⟨k, rfl⟩
    · exact h
    · exact ⟨h.kept, h.aliases.erase k⟩
  | clear => exact ⟨Table.Distinct.empty, Table.Distinct.empty⟩

theorem CacheRun.distinct (h : CacheRun c s) : (s.cache c).Distinct := by
  induction h with
  | @build s hs =>
    obtain ⟨-, -, -, -, hitem⟩ := add_spec hs.closed (i := .cache .empty) fun n hn => by cases hn
    change ((s.add (.cache .empty)).1.cache _).Distinct
    rw [Item.cache.inj hitem]
    exact ⟨Table.Distinct.empty, Table.Distinct.empty⟩
  | perform h op hop _ ih =>
    obtain ⟨hclosed, hheld, -⟩ := h.tidy
    exact distinct_perform ih hclosed hheld hop
  | tick _ ih => exact ih

theorem putCache_self (s : Store) (c : CacheRef) : s.putCache c (s.cache c) = s :=
  congrArg (fun caches => { s with caches }) (setIfInBounds_getD s.caches default c.index)

/-- Removing a name takes it out together with its aliases: every text that led to it is unknown as
long as nothing is put under that text again, whatever else is added. All other texts are answered as
before. Removing what is no name changes nothing. -/
theorem CacheRun.removes_exactly (h : CacheRun c s) {name : Value} {n : String}
    (hname : name.chars? = some n) :
    let t := (s.perform (.removeFromCache c name)).1
    (s.perform (.removeFromCache c name)).2.result = .ok .null ∧
    (.text n ∉ (s.cache c).kept.keys → t = s) ∧
    (.text n ∈ (s.cache c).kept.keys →
      (∀ v l, v.chars? = some l → ¬ (s.cache c).Leads (.text n) v →
        (t.cache c).get v = (s.cache c).get v ∧ (t.cache c).knows v = (s.cache c).knows v) ∧
      (∀ x, s.Holds (.center x) → t.item (.center x) = s.item (.center x)) ∧
      (∀ v l, v.chars? = some l → (s.cache c).Leads (.text n) v → ∀ u, Omitted c (.text l) t u →
        (u.cache c).knows v = .ok false ∧
          (u.cache c).get v = .error (.request (.notCached v))) ∧
      (t.cache c).kept.size + 1 = (s.cache c).kept.size ∧
      (t.cache c).aliases.size + (s.cache c).aliasCount n = (s.cache c).aliases.size) := by
  intro t
  obtain ⟨hclosed, hheld, htidy⟩ := h.tidy
  have htidy : (s.cache c).Consistent s.Named := htidy
  have hdistinct := h.distinct
  have hcache : t.cache c = ((s.cache c).remove name).1 := cache_putCache hheld _
  have hresult : ((s.cache c).remove name).2.result = .ok () := by
    rcases (s.cache c).remove_cases name with ⟨-, hnot⟩ | ⟨k, -, -, hok, -⟩
    · exact (hnot _ (Value.chars?_eq_some_iff.mp hname)).2
    · exact hok
  have hadmits : s.Admits (.removeFromCache c name) := by
    intro x hx
    rw [Operation.nodes, Value.nodes_of_chars? hname, List.mem_singleton] at hx
    rw [hx]
    exact hheld
  have hframe := perform_frame hclosed hadmits
  refine ⟨?_, fun hn => ?_, fun hn => ⟨?_, ?_, ?_, ?_⟩⟩
  · change (((s.cache c).remove name).2.map fun _ => Value.null).result = _
    generalize ((s.cache c).remove name).2 = o at hresult ⊢
    obtain ⟨entries, result⟩ := o
    cases hresult
    rfl
  · rcases (s.cache c).remove_cases name with ⟨heq, -⟩ | ⟨k, hk, hmem, -⟩
    · exact (congrArg (s.putCache c) heq).trans (s.putCache_self c)
    · cases (Value.chars?_eq_some_iff.mp hname).symm.trans hk
      exact absurd hmem hn
  · intro v l hv hleads
    rw [hcache]
    exact htidy.same_removed hname hn hdistinct hv hleads
  · intro x hx
    exact hframe.item _ hx fun htarget => by cases List.mem_singleton.mp htarget
  · intro v l hv hleads u hu
    -- a text that is unknown stays so until something is put under it
    have hunknown := htidy.unknown_removed hname hn hdistinct hv hleads
    rw [← hcache] at hunknown
    obtain ⟨-, -, hlater⟩ := hu.unknown (hclosed.perform hadmits) (hframe.holds _ hheld) hunknown
    exact hlater.answers hv
  · rw [hcache]
    exact htidy.size_removed hname hn hdistinct

/-- Hydrogen is removed and added again, and the alias that it had stays unknown. -/
theorem removes_exactly_hydrogen :
    let t := (aliased.perform (.removeFromCache ⟨0⟩ (.text "H" .shared))).1
    let u := (t.perform (.addToCache ⟨0⟩ (.object (.center (.atom ⟨0⟩) "")))).1
    CacheRun ⟨0⟩ aliased ∧ (aliased.cache ⟨0⟩).knows (.text "Hydrogen" .shared) = .ok true ∧
      (t.cache ⟨0⟩).aliases.size + 1 = (aliased.cache ⟨0⟩).aliases.size ∧
      (u.cache ⟨0⟩).knows (.text "H" .shared) = .ok true ∧
      (u.cache ⟨0⟩).knows (.text "Hydrogen" .shared) = .ok false := by
  intro t u
  have hkept : .text "H" ∈ (aliased.cache ⟨0⟩).kept.keys := by with_unfolding_all decide
  obtain ⟨-, -, hremoved⟩ := CacheRun.removes_exactly aliased_cacheRun
    (show (Value.text "H" .shared).chars? = some "H" from rfl)
  obtain ⟨-, -, hgone, -, haliases⟩ := hremoved hkept
  have hleads : (aliased.cache ⟨0⟩).Leads (.text "H") (.text "Hydrogen" .shared) :=
    Or.inr ⟨.text "Hydrogen", .text "H" .shared, rfl, by with_unfolding_all rfl, rfl⟩
  have hadded : Omitted ⟨0⟩ (.text "Hydrogen") t u := by
    refine Omitted.refl.perform _ (by with_unfolding_all decide) fun _ name hname hkey => ?_
    have hH : t.nameOf? (.object (.center (.atom ⟨0⟩) "")) = some (.text "H" .shared) := by
      with_unfolding_all rfl
    cases hH.symm.trans hname
    exact absurd hkey (by decide)
  refine ⟨aliased_cacheRun, by with_unfolding_all rfl, ?_, by with_unfolding_all rfl, ?_⟩
  · exact haliases
  · exact (hgone _ "Hydrogen" rfl hleads u hadded).1

end Store

end ScatteringData
