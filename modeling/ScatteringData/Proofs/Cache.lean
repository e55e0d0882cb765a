import Mathlib
import ScatteringData.Proofs.Fault
import ScatteringData.Cache
import ScatteringData.Proofs.Outcome
import ScatteringData.Proofs.Table

/-!
# Names and aliases of a cache

No name is an alias and every alias stands for a name, as long as names and aliases are texts. So a
text is found if and only if it is known, under itself or under the name that it stands for.
-/

namespace ScatteringData

/-! ## Texts as keys -/

namespace Value

variable {v w : Value} {s : String}

theorem chars?_eq_some_iff : v.chars? = some s ↔ v.key? = some (.text s) := by
  cases v with
  | object o => cases o <;> simp [chars?, key?]
  | float x m =>
    simp only [chars?, key?, reduceCtorEq, Option.some.injEq, false_iff]
    split <;> simp
  | _ => simp [chars?, key?]

theorem equals_of_chars? (h : v.chars? = some s) : v.equals w = (v.key? == w.key?) := by
  cases v with
  | text t m =>
    cases w <;> simp [equals, equalsWith, isNaN, number?, key?]
  | fileType t =>
    cases w <;> simp [equals, equalsWith, isNaN, number?, key?]
  | _ => cases h

end Value

namespace Cache

/-- Names are texts that belong to what is kept under them, every alias stands for a name, and none
is one. -/
structure Consistent (named : Object → String → Prop) (c : Cache) : Prop where
  kept : ∀ e ∈ c.kept.entries, ∃ n, e.1.key = .text n ∧ named e.2 n
  aliases : ∀ e ∈ c.aliases.entries, ∃ n, e.2.chars? = some n ∧ .text n ∈ c.kept.keys
  apart : ∀ k ∈ c.aliases.keys, k ∉ c.kept.keys

variable {named : Object → String → Prop} {c d : Cache}

theorem Consistent.imp {named' : Object → String → Prop} (h : c.Consistent named)
    (hnamed : ∀ o n, named o n → named' o n) : c.Consistent named' where
  kept e he := by
    obtain ⟨n, hn, ho⟩ := h.kept e he
    exact ⟨n, hn, hnamed _ _ ho⟩
  aliases := h.aliases
  apart := h.apart

/-! ## Changes -/

theorem Consistent.empty : Cache.empty.Consistent named :=
  ⟨(fun _ he => by cases he), (fun _ he => by cases he), (fun _ hk => by cases hk)⟩

theorem admits_eq_ok {name : Value} {l : Label} {present : Bool}
    (h : c.admits name = .ok (l, present)) : name.key? = some l.key ∧ l.key ∉ c.aliases.keys := by
  unfold admits at h
  obtain ⟨l', hl, h⟩ := except_bind_eq_ok.mp h
  split at h
  · cases h
  · rename_i hnone
    cases h
    exact ⟨Label.key_of_ofValue hl, (Table.get?_eq_none_iff _ _).mp hnone⟩

theorem admits_eq {name : Value} {k : Key} (hk : name.key? = some k) (hnew : k ∉ c.aliases.keys) :
    c.admits name = .ok (⟨name, k, hk⟩, c.kept.contains k) := by
  unfold Cache.admits
  rw [Label.ofValue_eq hk]
  simp only [bind, Except.bind]
  rw [(Table.get?_eq_none_iff _ _).mpr hnew]
  rfl

/-- Removing takes out a name and what stands for it, and otherwise it changes nothing. -/
theorem remove_cases (c : Cache) (name : Value) :
    (c.remove name).1 = c ∧
      (∀ k, name.key? = some k → k ∉ c.kept.keys ∧ (c.remove name).2.result = .ok ()) ∨
    ∃ k, name.key? = some k ∧ k ∈ c.kept.keys ∧ (c.remove name).2.result = .ok () ∧
      (c.remove name).1 =
        ⟨c.kept.erase k, ⟨c.aliases.entries.filter fun e => !e.2.equals name⟩⟩ := by
  unfold Cache.remove
  by_cases hempty : c.kept.isEmpty = true
  · rw [if_pos hempty]
    refine Or.inl ⟨rfl, fun k _ => ⟨fun hk => ?_, rfl⟩⟩
    rw [Table.keys, List.isEmpty_iff.mp hempty] at hk
    cases hk
  · rw [if_neg hempty]
    cases hname : name.key? with
    | none =>
      rw [Value.key_eq_error hname]
      exact Or.inl ⟨rfl, fun k hk => by cases hk⟩
    | some k =>
      rw [Value.key_eq hname]
      dsimp only
      by_cases hk : c.kept.contains k = true
      · rw [if_pos hk, List.partition_eq_filter_filter]
        exact Or.inr ⟨k, rfl, (Table.isSome_get?_iff _ _).mp hk, rfl, rfl⟩
      · rw [if_neg hk]
        refine Or.inl ⟨rfl, fun j hj => ⟨fun hmem => ?_, rfl⟩⟩
        cases hj
        exact hk ((Table.isSome_get?_iff _ _).mpr hmem)

theorem link_eq_ok {other name : Value} (h : c.link other name = .ok d) :
    ∃ l k, other.key? = some l.key ∧ l.key ∉ c.kept.keys ∧ name.key? = some k ∧ k ∈ c.kept.keys ∧
      d = { c with aliases := c.aliases.put l name } := by
  unfold Cache.link at h
  obtain ⟨l, hl, h⟩ := except_bind_eq_ok.mp h
  split at h
  · cases h
  · rename_i hother
    obtain ⟨k, hk, h⟩ := except_bind_eq_ok.mp h
    split at h
    · rename_i hmem
      cases h
      cases hname : name.key? with
      | none =>
        rw [Value.key_eq_error hname] at hk
        cases hk
      | some j =>
        cases (Value.key_eq hname).symm.trans hk
        refine ⟨l, _, Label.key_of_ofValue hl, fun hkept => ?_, rfl, ?_, rfl⟩
        · exact hother ((Table.isSome_get?_iff _ _).mpr hkept)
        · exact (Table.isSome_get?_iff _ _).mp hmem
    · cases h

theorem unlink_eq_ok {other : Value} (h : c.unlink other = .ok d) :
    d = c ∨ ∃ k, d = { c with aliases := c.aliases.erase k } := by
  unfold Cache.unlink at h
  split at h
  · cases h
    exact Or.inl rfl
  · obtain ⟨k, -, h⟩ := except_bind_eq_ok.mp h
    cases h
    exact Or.inr ⟨k, rfl⟩

theorem Consistent.keep (h : c.Consistent named) {l : Label} {o : Object} {n : String}
    (hl : l.key = .text n) (ho : named o n) (hnew : l.key ∉ c.aliases.keys) :
    (c.keep l o).Consistent named where
  kept e he := by
    rcases Table.mem_put he with he | ⟨hcontent, hkey, -⟩
    · exact h.kept e he
    · exact ⟨n, hkey.trans hl, hcontent ▸ ho⟩
  aliases e he := by
    obtain ⟨m, hm, hmem⟩ := h.aliases e he
    exact ⟨m, hm, (Table.mem_keys_put _ _ _ _).mpr (Or.inr hmem)⟩
  apart k hk hmem := by
    rcases (Table.mem_keys_put _ _ _ _).mp hmem with rfl | hmem
    · exact hnew hk
    · exact h.apart k hk hmem

theorem Consistent.remove (h : c.Consistent named) {name : Value} {n : String}
    (hname : name.chars? = some n) : (c.remove name).1.Consistent named := by
  rcases c.remove_cases name with ⟨heq, -⟩ | ⟨k, hk, -, -, heq⟩
  · rw [heq]
    exact h
  · cases (Value.chars?_eq_some_iff.mp hname).symm.trans hk
    rw [heq]
    refine ⟨fun e he => h.kept e (List.mem_of_mem_filter he), fun e he => ?_, fun k hk hmem => ?_⟩
    · -- an alias of another name stays, and so does its name
      obtain ⟨he, hother⟩ := List.mem_filter.mp he
      obtain ⟨m, hm, hmem⟩ := h.aliases e he
      refine ⟨m, hm, (Table.mem_keys_erase _ _ _).mpr ⟨hmem, ?_⟩⟩
      rintro heq
      cases heq
      rw [Value.equals_of_chars? hm, Value.chars?_eq_some_iff.mp hm,
        Value.chars?_eq_some_iff.mp hname] at hother
      simp at hother
    · obtain ⟨e, he, rfl⟩ := List.mem_map.mp hk
      refine h.apart _ (List.mem_map_of_mem (List.mem_of_mem_filter he)) ?_
      exact ((Table.mem_keys_erase _ _ _).mp hmem).1

theorem Consistent.link (h : c.Consistent named) {other name : Value} {n : String}
    (hname : name.chars? = some n) (hd : c.link other name = .ok d) : d.Consistent named := by
  obtain ⟨l, k, -, hother, hk, hkept, rfl⟩ := link_eq_ok hd
  cases (Value.chars?_eq_some_iff.mp hname).symm.trans hk
  refine ⟨h.kept, fun e he => ?_, fun k hk hmem => ?_⟩
  · rcases Table.mem_put he with he | ⟨htarget, -⟩
    · exact h.aliases e he
    · exact ⟨n, htarget ▸ hname, hkept⟩
  · rcases (Table.mem_keys_put _ _ _ _).mp hk with rfl | hk
    · exact hother hmem
    · exact h.apart k hk hmem

theorem Consistent.unlink (h : c.Consistent named) {other : Value} (hd : c.unlink other = .ok d) :
    d.Consistent named := by
  rcases unlink_eq_ok hd with rfl | ⟨k, rfl⟩
  · exact h
  · refine ⟨h.kept, fun e he => h.aliases e (List.mem_of_mem_filter he), fun k hk => ?_⟩
    exact h.apart k ((Table.mem_keys_erase _ _ _).mp hk).1

theorem remove_eq_error {name : Value} {f : Fault} (h : (c.remove name).2.result = .error f) :
    (c.remove name).1 = c := by
  rcases c.remove_cases name with ⟨heq, -⟩ | ⟨k, -, -, hok, -⟩
  · exact heq
  · cases h.symm.trans hok

/-! ## Look-ups -/

section
variable {v : Value} {n : String} (hv : v.chars? = some n)
include hv

theorem knows_eq_true_iff :
    c.knows v = .ok true ↔ .text n ∈ c.kept.keys ∨ .text n ∈ c.aliases.keys := by
  unfold Cache.knows
  rw [Value.key_eq (Value.chars?_eq_some_iff.mp hv), ← Table.isSome_get?_iff,
    ← Table.isSome_get?_iff, ← Bool.or_eq_true]
  exact ⟨fun h => Except.ok.inj h, fun h => congrArg Except.ok h⟩

theorem get_eq {target : Value} {m : String}
    (htarget : (c.aliases.get? (.text n)).getD v = target) (hm : target.chars? = some m) :
    c.get v = match c.kept.get? (.text m) with
      | some o => .ok o
      | none => .error (.request (.notCached v)) := by
  have hraised : Fault.raised (.request (.notCached v)) = .request (.notCached v) :=
    Fault.raised_eq_self fun w hw => by
      cases List.mem_singleton.mp hw
      exact Value.isUnwritable_of_chars? hv
  unfold Cache.get
  rw [Table.find_eq _ (Value.chars?_eq_some_iff.mp hv), hraised]
  simp only [bind, Except.bind, htarget, Table.find_eq _ (Value.chars?_eq_some_iff.mp hm)]
  cases c.kept.get? (.text m) with
  | none => rfl
  | some o => rfl

theorem Consistent.get_eq_ok_iff (h : c.Consistent named) (o : Object) :
    c.get v = .ok o ↔ c.kept.get? (.text n) = some o ∨
      ∃ target m, c.aliases.get? (.text n) = some target ∧ target.chars? = some m ∧
        c.kept.get? (.text m) = some o := by
  cases halias : c.aliases.get? (.text n) with
  | none =>
    rw [get_eq hv (by rw [halias]; rfl) hv]
    cases c.kept.get? (.text n) <;> simp
  | some target =>
    obtain ⟨l, hl, hkey⟩ := Table.mem_of_get? halias
    obtain ⟨m, hm, -⟩ : ∃ m, target.chars? = some m ∧ _ := h.aliases _ hl
    have hnone : c.kept.get? (.text n) = none :=
      (Table.get?_eq_none_iff _ _).mpr (hkey ▸ h.apart _ (List.mem_map_of_mem hl))
    rw [get_eq hv (by rw [halias]; rfl) hm, hnone]
    cases hkept : c.kept.get? (.text m) <;> simp [hm, hkept]

theorem Consistent.get_isOk_iff (h : c.Consistent named) :
    (∃ o, c.get v = .ok o) ↔ c.knows v = .ok true := by
  rw [knows_eq_true_iff hv]
  constructor
  · rintro ⟨o, ho⟩
    rcases (h.get_eq_ok_iff hv o).mp ho with hkept | ⟨target, -, halias, -⟩
    · exact Or.inl ((Table.isSome_get?_iff _ _).mp (by rw [hkept]; rfl))
    · exact Or.inr ((Table.isSome_get?_iff _ _).mp (by rw [halias]; rfl))
  · rintro (hkept | halias)
    · obtain ⟨o, ho⟩ := Option.isSome_iff_exists.mp ((Table.isSome_get?_iff _ _).mpr hkept)
      exact ⟨o, (h.get_eq_ok_iff hv o).mpr (Or.inl ho)⟩
    · obtain ⟨target, ht⟩ := Option.isSome_iff_exists.mp ((Table.isSome_get?_iff _ _).mpr halias)
      obtain ⟨l, hl, -⟩ := Table.mem_of_get? ht
      obtain ⟨m, hm, hmem⟩ := h.aliases _ hl
      obtain ⟨o, ho⟩ := Option.isSome_iff_exists.mp ((Table.isSome_get?_iff _ _).mpr hmem)
      exact ⟨o, (h.get_eq_ok_iff hv o).mpr (Or.inr ⟨target, m, ht, hm, ho⟩)⟩

theorem get_eq_error (hunknown : c.knows v ≠ .ok true) :
    c.get v = .error (.request (.notCached v)) := by
  rw [ne_eq, knows_eq_true_iff hv, not_or, ← Table.get?_eq_none_iff, ← Table.get?_eq_none_iff]
    at hunknown
  rw [get_eq hv (by rw [hunknown.2]; rfl) hv, hunknown.1]

end

/-! ## One entry -/

/-- An object is kept under a key, and the key is no alias. -/
structure Has (c : Cache) (k : Key) (o : Object) : Prop where
  kept : c.kept.get? k = some o
  unaliased : c.aliases.get? k = none

variable {k : Key} {o : Object}

theorem Has.keep (h : c.Has k o) {l : Label} (hl : l.key ≠ k) (p : Object) :
    (c.keep l p).Has k o := by
  refine ⟨?_, h.unaliased⟩
  simp only [Cache.keep, Table.get?_put, hl, if_false]
  exact h.kept

theorem Has.remove (h : c.Has k o) {name : Value} (hname : name.key? ≠ some k) :
    (c.remove name).1.Has k o := by
  rcases c.remove_cases name with ⟨heq, -⟩ | ⟨j, hj, -, -, heq⟩
  · rw [heq]
    exact h
  · have hne : k ≠ j := by
      rintro rfl
      exact hname hj
    rw [heq]
    refine ⟨(Table.get?_erase _ hne).trans h.kept, (Table.get?_eq_none_iff _ _).mpr fun hmem => ?_⟩
    -- the aliases that are left were aliases before
    obtain ⟨e, he, rfl⟩ := List.mem_map.mp hmem
    refine (Table.get?_eq_none_iff _ _).mp h.unaliased ?_
    exact List.mem_map_of_mem (List.mem_of_mem_filter he)

theorem Has.link (h : c.Has k o) {other name : Value} (hd : c.link other name = .ok d) :
    d.Has k o := by
  obtain ⟨l, j, -, hother, -, -, rfl⟩ := link_eq_ok hd
  have hne : l.key ≠ k := by
    rintro rfl
    exact hother ((Table.isSome_get?_iff _ _).mp (by rw [h.kept]; rfl))
  refine ⟨h.kept, ?_⟩
  rw [Table.get?_put, if_neg hne]
  exact h.unaliased

theorem Has.unlink (h : c.Has k o) {other : Value} (hd : c.unlink other = .ok d) : d.Has k o := by
  rcases unlink_eq_ok hd with rfl | ⟨j, rfl⟩
  · exact h
  · refine ⟨h.kept, (Table.get?_eq_none_iff _ _).mpr fun hmem => ?_⟩
    exact (Table.get?_eq_none_iff _ _).mp h.unaliased ((Table.mem_keys_erase _ _ _).mp hmem).1

def Leads (c : Cache) (k : Key) (v : Value) : Prop :=
  v.key? = some k ∨
    ∃ j target, v.key? = some j ∧ c.aliases.get? j = some target ∧ target.key? = some k

theorem Has.get_eq (h : c.Has k o) {v : Value} (hv : c.Leads k v) : c.get v = .ok o := by
  unfold Cache.get
  rcases hv with hv | ⟨j, target, hv, htarget, hk⟩
  · simp only [Table.find_eq _ hv, h.unaliased, h.kept, bind, Except.bind, Option.getD_none]
    rfl
  · simp only [Table.find_eq _ hv, htarget, bind, Except.bind, Option.getD_some,
      Table.find_eq _ hk, h.kept]
    rfl

end Cache

end ScatteringData
