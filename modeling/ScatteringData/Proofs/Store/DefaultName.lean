import Mathlib
import ScatteringData.Proofs.Store.Entries
import ScatteringData.Proofs.Zaid.Name

/-!
# Default names in a cache

A center that is built without a name has the name of its identifier for good. No two identifiers have
one name, so such centers replace each other in a cache only where they have one identifier.
-/

namespace ScatteringData

/-- The name is that of the identifier. -/
def Identity.DefaultNamed (i : Identity) : Prop := i.name.chars? = some i.zaid.name

theorem Identity.defaultNamed_ofValues {mark : Mark} {zaid ratio : Value} {i : Identity}
    (h : (Identity.ofValues mark zaid ratio .null).result = .ok i) : i.DefaultNamed := by
  unfold Identity.ofValues at h
  simp only [Outcome.bind_result, except_bind_eq_ok] at h
  obtain ⟨w, -, z, -, h⟩ := h
  cases h
  rfl

def Item.identity? : Item → Option Identity
  | .atom a => some a.identity
  | .nuclide n => some n.identity
  | _ => none

/-- An operation builds a center and gives it no name. -/
def Operation.BuildsUnnamed : Operation → Prop
  | .buildAtom _ _ name => name = .null
  | .buildNuclide _ _ _ name => name = .null
  | _ => False

namespace Store

/-- A center has the name of its identifier. -/
def DefaultNamed (s : Store) (x : CenterRef) : Prop := (s.identity x).DefaultNamed

theorem DefaultNamed.key_eq {s : Store} {x : CenterRef} (h : s.DefaultNamed x) :
    (s.identity x).name.key? = some (.text (s.identity x).zaid.name) := Value.chars?_eq_some_iff.mp h

/-- The stores that operations of a certain kind lead to. -/
inductive RunOf (P : Store → Operation → Prop) (t : Store) : Store → Prop
  | refl : RunOf P t t
  | perform {u : Store} (h : RunOf P t u) (op : Operation) (hop : u.Admits op) (hkind : P u op) :
    RunOf P t (u.perform op).1
  | tick {u : Store} (h : RunOf P t u) : RunOf P t u.tick

end Store

namespace Operation

/-- If an operation adds something to a cache, then a center with the name of its identifier. -/
def AddsDefault (c : CacheRef) (s : Store) : Operation → Prop
  | .addToCache d v => d = c → ∃ x caption, v = .object (.center x caption) ∧ s.DefaultNamed x
  | _ => True

/-- An operation does not remove the name of an identifier from a cache, and all that it may add are
centers with other identifiers, under the names of these. -/
def AddsOthers (c : CacheRef) (z : Zaid) (s : Store) : Operation → Prop
  | .addToCache d v => d = c → ∃ x caption, v = .object (.center x caption) ∧ s.DefaultNamed x ∧
      (s.identity x).zaid ≠ z
  | .removeFromCache d name => d = c → name.key? ≠ some (.text z.name)
  | .clear d => d ≠ c
  | _ => True

theorem AddsOthers.spares {c : CacheRef} {z : Zaid} {s : Store} {op : Operation}
    (h : op.AddsOthers c z s) : op.Spares s c (.text z.name) := by
  cases op with
  | addToCache d v =>
    intro hd name hname hkey
    obtain ⟨x, caption, rfl, hx, hother⟩ := h hd
    cases hname
    rw [hx.key_eq] at hkey
    exact absurd (Zaid.eq_of_name_eq (Key.text.inj (Option.some.inj hkey))) hother
  | removeFromCache d name => exact h
  | clear d => exact h
  | _ => trivial

end Operation

namespace Store

variable {s t u : Store} {c : CacheRef} {x : CenterRef} {z : Zaid} {o : Object} {op : Operation}
  {P : Store → Operation → Prop} {caption : String}

/-! ## Runs -/

/-- What an operation of the kind keeps is kept by a run. -/
theorem RunOf.keeps {I : Store → Prop} (h : t.RunOf P u) (ht : t.Closed) (hI : I t)
    (hperform : ∀ s op, s.Closed → s.Admits op → P s op → I s → I (s.perform op).1)
    (htick : ∀ s, I s → I s.tick) : u.Closed ∧ I u := by
  induction h with
  | refl => exact ⟨ht, hI⟩
  | perform _ op hop hkind ih => exact ⟨ih.1.perform hop, hperform _ op ih.1 hop hkind ih.2⟩
  | tick _ ih => exact ⟨ih.1, htick _ ih.2⟩

theorem RunOf.identity (h : t.RunOf P u) (ht : t.Closed) (hx : t.Holds (.center x)) :
    u.identity x = t.identity x := by
  refine (h.keeps (I := fun s => s.Holds (.center x) ∧ s.identity x = t.identity x) ht ⟨hx, rfl⟩
    (fun s op hs hop _ hI => ?_) fun _ hI => hI).2.2
  have hframe := perform_frame hs hop
  exact ⟨hframe.holds _ hI.1, (hframe.identity x hI.1).trans hI.2⟩

/-! ## Building -/

/-- All centers that were added to a store have default names. -/
structure AddsDefaults (s t : Store) : Prop where
  kept : s.Extends t
  added : ∀ x, t.Holds (.center x) → ¬ s.Holds (.center x) → t.DefaultNamed x

theorem AddsDefaults.refl (s : Store) : AddsDefaults s s :=
  ⟨Extends.refl s, fun _ hx hnot => absurd hx hnot⟩

theorem AddsDefaults.trans (h : AddsDefaults s t) (h' : AddsDefaults t u) : AddsDefaults s u := by
  refine ⟨h.kept.trans h'.kept, fun x hx hnot => ?_⟩
  by_cases hmid : t.Holds (.center x)
  · have hidentity := (center_congr (h'.kept _ hmid).2).1
    rw [DefaultNamed, hidentity]
    exact h.added x hmid hnot
  · exact h'.added x hx hmid

theorem identity?_item (s : Store) (x : CenterRef) :
    (s.item (.center x)).identity? = some (s.identity x) := by
  cases x <;> rfl

theorem AddsDefaults.add {i : Item} (hi : ∀ j ∈ i.identity?, j.DefaultNamed) :
    AddsDefaults s (s.add i).1 := by
  refine ⟨extends_add s i, fun x hx hnot => hi _ ?_⟩
  have hnew := ((holds_add s i _).mp hx).resolve_left hnot
  have hitem := item_add s i (.center x)
  rw [if_pos hnew] at hitem
  have hidentity := identity?_item (s.add i).1 x
  rw [hitem] at hidentity
  exact hidentity

theorem AddsDefaults.buildAtom (s : Store) (zaid ratio : Value) :
    AddsDefaults s (s.buildAtom zaid ratio .null).1 := by
  unfold Store.buildAtom
  dsimp only
  split
  · rename_i i hi
    refine add (i := .atom ⟨i, .empty⟩) fun j hj => ?_
    cases hj
    exact Identity.defaultNamed_ofValues hi
  · exact refl s

theorem AddsDefaults.buildNuclide (s : Store) (zaid ratio atom : Value) :
    AddsDefaults s (s.buildNuclide zaid ratio atom .null).1 := by
  unfold Store.buildNuclide
  dsimp only
  split
  · exact refl s
  · rename_i i hi
    have hnuclide : ∀ (t : Store) a, AddsDefaults t (t.addNuclide ⟨i, a, .empty⟩).1 := by
      intro t a
      refine add (i := .nuclide ⟨i, a, .empty⟩) fun j hj => ?_
      cases hj
      exact Identity.defaultNamed_ofValues hi
    split
    · -- without an atom the nuclide gets one of its own, which has a default name as well
      refine (add (i := .atom ⟨i.element (s.mark.part 3) ratio, .empty⟩) fun j hj => ?_).trans
        (hnuclide _ _)
      cases hj
      rfl
    · exact hnuclide _ _
    · exact refl s

theorem AddsDefaults.perform (hop : op.BuildsUnnamed) : AddsDefaults s (s.perform op).1 := by
  cases op with
  | buildAtom zaid ratio name =>
    cases hop
    exact AddsDefaults.buildAtom s zaid ratio
  | buildNuclide zaid ratio atom name =>
    cases hop
    exact AddsDefaults.buildNuclide s zaid ratio atom
  | _ => cases hop

/-! ## Adding to a cache -/

theorem RunOf.has (h : t.RunOf (Operation.AddsOthers c z) u) (ht : t.Closed) (hc : t.Holds (.cache c))
    (hhas : (t.cache c).Has (.text z.name) o) : (u.cache c).Has (.text z.name) o := by
  refine (h.keeps (I := fun s => s.Holds (.cache c) ∧ (s.cache c).Has (.text z.name) o) ht
    ⟨hc, hhas⟩ (fun s op hs hop hothers hI => ?_) fun _ hI => hI).2.2
  exact ⟨(perform_frame hs hop).holds _ hI.1, has_perform hI.2 hs hI.1 hop hothers.spares⟩

/-- A center with a default name that a cache has accepted is found under the name, whatever centers
with other identifiers are added under theirs. -/
theorem found_among_others (hs : s.Closed) (hx : s.DefaultNamed x)
    (hop : s.Admits (.addToCache c (.object (.center x caption))))
    (hok : (s.perform (.addToCache c (.object (.center x caption)))).2.result = .ok .null) :
    let t := (s.perform (.addToCache c (.object (.center x caption)))).1
    ∃ y, ¬ s.Holds (.center y) ∧
      ∀ u, t.RunOf (Operation.AddsOthers c (s.identity x).zaid) u → u.identity y = s.identity x ∧
        ∀ v, v.chars? = some (s.identity x).zaid.name →
          (u.perform (.fetch c v)).2.result = .ok (.object (u.centerObject y)) := by
  intro t
  have hcache : s.Holds (.cache c) := hop _ (List.mem_cons_self ..)
  have hcenter : s.Holds (.center x) := hop _ (List.mem_cons_of_mem _ (List.mem_singleton_self _))
  obtain ⟨y, k, h⟩ := exists_entered hs hcache hcenter caption (addToCache_eq_ok hok)
  change Entered s t c x y k at h
  have ht : t.Closed := hs.perform hop
  have hy : t.Holds (.center y) := (h.holds _).mpr (Or.inr rfl)
  have hc : t.Holds (.cache c) := (h.holds _).mpr (Or.inl hcache)
  cases hx.key_eq.symm.trans h.key
  refine ⟨y, h.fresh, fun u hu => ?_⟩
  have hidentity := hu.identity ht hy
  refine ⟨hidentity.trans h.identity, fun v hv => ?_⟩
  have hhas := hu.has ht hc h.has
  have hobject : u.centerObject y = t.centerObject y := by
    simp only [centerObject, hidentity]
  change (Outcome.ofExcept (((u.cache c).get v).map Value.object)).result = _
  rw [hhas.get_eq (Or.inl (Value.chars?_eq_some_iff.mp hv)), hobject]
  rfl

/-! ## What is replaced -/

theorem addToCache_center {k : Key} (hk : (s.identity x).name.key? = some k)
    (hnew : k ∉ (s.cache c).aliases.keys) :
    (s.addToCache c (.object (.center x caption))).2 =
      ⟨(if (s.cache c).kept.contains k then [.replacingCached (s.identity x).name] else []) ++
        [(s.identity x).passed] ++ [.cached (s.identity x).name], .ok ()⟩ := by
  have hname : s.nameOf? (.object (.center x caption)) = some (s.identity x).name := rfl
  unfold addToCache
  rw [hname]
  dsimp only
  rw [Cache.admits_eq hk hnew]
  cases x <;> rfl

def FiledByZaid (s : Store) (k : Key) (o : Object) : Prop :=
  ∃ y caption, o = .center y caption ∧ s.Holds (.center y) ∧ k = .text (s.identity y).zaid.name

def KeepsDefaults (s : Store) (cache : Cache) : Prop :=
  ∀ e ∈ cache.kept.entries, s.FiledByZaid e.1.key e.2

theorem FiledByZaid.perform {k : Key} (h : s.FiledByZaid k o) (hs : s.Closed) (hop : s.Admits op) :
    (s.perform op).1.FiledByZaid k o := by
  obtain ⟨y, caption, ho, hy, hk⟩ := h
  have hframe := perform_frame hs hop
  exact ⟨y, caption, ho, hframe.holds _ hy, by rw [hframe.identity y hy, hk]⟩

theorem KeepsDefaults.perform (h : s.KeepsDefaults (s.cache c)) (hs : s.Closed)
    (hc : s.Holds (.cache c)) (hop : s.Admits op) (hadds : op.AddsDefault c s) :
    (s.perform op).1.KeepsDefaults ((s.perform op).1.cache c) := by
  have h' : (s.perform op).1.KeepsDefaults (s.cache c) := fun e he => (h e he).perform hs hop
  refine cache_perform_of (P := (s.perform op).1.KeepsDefaults) hs hc hop h' fun d r hok hchange => ?_
  cases hchange with
  | @keep v name l o hname hl hnew ho =>
    obtain ⟨x, caption, rfl, hx⟩ := hadds rfl
    -- what is kept is a copy, which has the identity of the center
    have hheld : s.Holds (.center x) := hop _ (List.mem_cons_of_mem _ (List.mem_singleton_self _))
    have hframe := frame_addToCache (addToCache_eq_ok hok)
    obtain ⟨-, -, hcopy⟩ := copyCenter_spec hs hheld .maps
    cases hname
    cases ho
    intro e he
    rcases Table.mem_put he with he | ⟨hcontent, hkey, -⟩
    · exact h' e he
    · refine ⟨_, _, hcontent, hframe.holds _ hcopy.held, ?_⟩
      have hidentity := (hframe.identity _ hcopy.held).trans hcopy.identity
      rw [hkey, ← Option.some_inj, ← hl, hx.key_eq]
      exact congrArg (fun i : Identity => some (Key.text i.zaid.name)) hidentity.symm
  | @remove name =>
    rcases (s.cache c).remove_cases name with ⟨heq, -⟩ | ⟨k, -, -, -, heq⟩
    · rw [heq]
      exact h'
    · rw [heq]
      exact fun e he => h' e (List.mem_of_mem_filter he)
  | link hd =>
    obtain ⟨-, -, -, -, -, -, rfl⟩ := Cache.link_eq_ok hd
    exact h'
  | unlink hd =>
    rcases Cache.unlink_eq_ok hd with rfl | ⟨k, rfl⟩
    · exact h'
    · exact h'
  | clear => exact fun e he => by cases he

theorem KeepsDefaults.mem_keys_iff {cache : Cache} (h : s.KeepsDefaults cache) :
    .text z.name ∈ cache.kept.keys ↔ ∃ e ∈ cache.kept.entries, ∃ y caption,
      e.2 = .center y caption ∧ (s.identity y).zaid = z := by
  constructor
  · intro hmem
    obtain ⟨e, he, hkey⟩ := List.mem_map.mp hmem
    obtain ⟨y, caption, ho, -, hname⟩ := h e he
    have hsame := Key.text.inj (hname.symm.trans hkey)
    exact ⟨e, he, y, caption, ho, Zaid.eq_of_name_eq hsame⟩
  · rintro ⟨e, he, y, caption, ho, rfl⟩
    obtain ⟨y', caption', ho', -, hname⟩ := h e he
    cases ho.symm.trans ho'
    exact List.mem_map.mpr ⟨e, he, hname⟩

/-- An added center with a default name touches no entry under the name of another identifier. -/
theorem get?_add_other (hs : s.Closed) (hx : s.DefaultNamed x)
    (hop : s.Admits (.addToCache c (.object (.center x caption)))) (hz : z ≠ (s.identity x).zaid) :
    ((s.perform (.addToCache c (.object (.center x caption)))).1.cache c).kept.get? (.text z.name) =
      (s.cache c).kept.get? (.text z.name) := by
  refine cache_perform_of (P := fun d => d.kept.get? (.text z.name) =
    (s.cache c).kept.get? (.text z.name)) hs (hop _ (List.mem_cons_self ..)) hop rfl
      fun d r _ hchange => ?_
  cases hchange with
  | keep hname hl hnew ho =>
    cases hname
    rw [Cache.keep, Table.get?_put, if_neg]
    rintro heq
    rw [heq, hx.key_eq] at hl
    exact hz (Zaid.eq_of_name_eq (Key.text.inj (Option.some.inj hl))).symm

theorem keepsDefaults_of_run (ht : t.Closed) (hc : t.Holds (.cache c)) (hempty : t.cache c = .empty)
    (h : t.RunOf (Operation.AddsDefault c) u) : u.Closed ∧ u.KeepsDefaults (u.cache c) := by
  have hstart : t.KeepsDefaults (t.cache c) := by
    rw [hempty]
    exact fun e he => by cases he
  obtain ⟨hclosed, -, hkeeps⟩ := h.keeps
    (I := fun s => s.Holds (.cache c) ∧ s.KeepsDefaults (s.cache c)) ht ⟨hc, hstart⟩
    (fun s op hs hop hadds hI => ⟨(perform_frame hs hop).holds _ hI.1, hI.2.perform hs hI.1 hop hadds⟩)
    fun _ hI => hI
  exact ⟨hclosed, hkeeps⟩

theorem perform_add_eq_ok_iff (hx : s.DefaultNamed x) :
    (s.perform (.addToCache c (.object (.center x caption)))).2.result = .ok .null ↔
      .text (s.identity x).zaid.name ∉ (s.cache c).aliases.keys := by
  constructor
  · intro hok
    rcases s.addToCache_cases c (.object (.center x caption)) with
      ⟨f, hf, -⟩ | ⟨name, l, o, -, hname, hl, hnew, -⟩
    · rw [addToCache_eq_ok hok] at hf
      cases hf
    · cases hname
      rw [Option.some.inj (hx.key_eq.symm.trans hl)]
      exact hnew
  · intro hnew
    change ((s.addToCache c (.object (.center x caption))).2.map fun _ => Value.null).result = _
    rw [addToCache_center hx.key_eq hnew]
    rfl

theorem reports_replacing_iff (hx : s.DefaultNamed x) (hkeeps : s.KeepsDefaults (s.cache c))
    (hok : (s.perform (.addToCache c (.object (.center x caption)))).2.result = .ok .null) :
    .replacingCached (s.identity x).name ∈
        (s.perform (.addToCache c (.object (.center x caption)))).2.entries ↔
      ∃ e ∈ (s.cache c).kept.entries, ∃ y caption, e.2 = .center y caption ∧
        (s.identity y).zaid = (s.identity x).zaid := by
  have hnew := (perform_add_eq_ok_iff hx).mp hok
  change _ ∈ (s.addToCache c (.object (.center x caption))).2.entries ↔ _
  rw [addToCache_center hx.key_eq hnew, ← hkeeps.mem_keys_iff,
    ← Table.isSome_get?_iff, Table.contains]
  by_cases hpresent : ((s.cache c).kept.get? (.text (s.identity x).zaid.name)).isSome = true
  · simp [hpresent]
  · simp [hpresent, Identity.passed]

/-- Identifiers with one name are one. So a center that is built without a name, and keeps that of its
identifier for good, is found in a cache that has accepted it as long as its name is not removed and
only centers with other identifiers are added under theirs. In a cache to which nothing else was added,
every center stands under the name of its identifier: one that is added replaces another if and only if
they have the same identifier, and it leaves what stands under the names of other identifiers. -/
theorem defaultNames_identify :
    (∀ z w : Zaid, z.name = w.name → z = w) ∧
    (∀ (s : Store) op, s.Reachable → s.Admits op → op.BuildsUnnamed →
      ∀ x, (s.perform op).1.Holds (.center x) → ¬ s.Holds (.center x) →
        ∀ u, (s.perform op).1.RunOf (fun _ _ => True) u → u.DefaultNamed x) ∧
    (∀ (s : Store) c x caption, s.Reachable → s.DefaultNamed x →
      let z := (s.identity x).zaid
      let add : Operation := .addToCache c (.object (.center x caption))
      s.Admits add →
        ((s.perform add).2.result = .ok .null ↔ .text z.name ∉ (s.cache c).aliases.keys) ∧
        ((s.perform add).2.result = .ok .null → ∃ y, ¬ s.Holds (.center y) ∧
          ∀ u, (s.perform add).1.RunOf (Operation.AddsOthers c z) u →
            u.identity y = s.identity x ∧ ∀ v, v.chars? = some z.name →
              (u.perform (.fetch c v)).2.result = .ok (.object (u.centerObject y)))) ∧
    ∀ s₀ : Store, s₀.Reachable →
      let c : CacheRef := ⟨s₀.caches.size⟩
      ∀ s, (s₀.perform .buildCache).1.RunOf (Operation.AddsDefault c) s →
        (∀ e ∈ (s.cache c).kept.entries, ∃ y caption, e.2 = .center y caption ∧
          e.1.key = .text (s.identity y).zaid.name) ∧
        ∀ x caption, s.DefaultNamed x →
          let z := (s.identity x).zaid
          let add : Operation := .addToCache c (.object (.center x caption))
          s.Admits add →
            ((s.perform add).2.result = .ok .null →
              (.replacingCached (s.identity x).name ∈ (s.perform add).2.entries ↔
                ∃ e ∈ (s.cache c).kept.entries, ∃ y caption, e.2 = .center y caption ∧
                  (s.identity y).zaid = z)) ∧
            ∀ w, w ≠ z → ((s.perform add).1.cache c).kept.get? (.text w.name) =
              (s.cache c).kept.get? (.text w.name) := by
  refine ⟨fun z w => Zaid.eq_of_name_eq, ?_, ?_, ?_⟩
  · intro s op hs hop hunnamed x hx hnot u hu
    rw [DefaultNamed, hu.identity (hs.closed.perform hop) hx]
    exact (AddsDefaults.perform hunnamed).added x hx hnot
  · intro s c x caption hs hx z add hop
    exact ⟨perform_add_eq_ok_iff hx, fun hok => found_among_others hs.closed hx hop hok⟩
  · intro s₀ hs₀ c s hs
    obtain ⟨hclosed, -, -, hheld, hitem⟩ :=
      add_spec hs₀.closed (i := .cache .empty) fun n hn => by cases hn
    obtain ⟨hsclosed, hkeeps⟩ := keepsDefaults_of_run hclosed hheld (Item.cache.inj hitem) hs
    refine ⟨fun e he => ?_, ?_⟩
    · obtain ⟨y, caption, ho, -, hkey⟩ := hkeeps e he
      exact ⟨y, caption, ho, hkey⟩
    · intro x caption hx z add hop
      exact ⟨fun hok => reports_replacing_iff hx hkeeps hok,
        fun w hw => get?_add_other hsclosed hx hop hw⟩

/-- The atom of hydrogen and a nuclide of it, both built without a name, stay apart in a cache. The atom
replaces only itself. -/
theorem defaultNames_identify_hydrogen :
    let add (x : CenterRef) : Operation := .addToCache ⟨0⟩ (.object (.center x ""))
    let t := (cached.perform (add (.atom ⟨0⟩))).1
    let u := (t.perform (add (.nuclide ⟨0⟩))).1
    cached.DefaultNamed (.atom ⟨0⟩) ∧ t.DefaultNamed (.nuclide ⟨0⟩) ∧
      (∃ y, u.identity y = cached.identity (.atom ⟨0⟩) ∧
        (u.perform (.fetch ⟨0⟩ (.text "H" .shared))).2.result = .ok (.object (u.centerObject y))) ∧
      .replacingCached (t.identity (.nuclide ⟨0⟩)).name ∉ (t.perform (add (.nuclide ⟨0⟩))).2.entries ∧
      .replacingCached (t.identity (.atom ⟨0⟩)).name ∈ (t.perform (add (.atom ⟨0⟩))).2.entries := by
  intro add t u
  obtain ⟨-, hunnamed, hfound, hreplaced⟩ := defaultNames_identify
  have hadmits : cached.Admits (add (.atom ⟨0⟩)) := by with_unfolding_all decide
  have hadmits' : t.Admits (add (.nuclide ⟨0⟩)) := by with_unfolding_all decide
  have hagain : t.Admits (add (.atom ⟨0⟩)) := by with_unfolding_all decide
  have hatom : cached.DefaultNamed (.atom ⟨0⟩) := by
    have hbuilt := hunnamed _ (.buildAtom (.int 1000 .shared) (.float 1.0 .shared) .null) (.start false)
      (fun n hn => by cases hn) rfl (.atom ⟨0⟩) (by with_unfolding_all decide)
      (by with_unfolding_all decide)
    refine hbuilt _ (((RunOf.refl.perform _ ?_ trivial).perform _ ?_ trivial).perform .buildCache
      ?_ trivial)
    · with_unfolding_all decide
    · with_unfolding_all decide
    · with_unfolding_all decide
  have hnuclide : t.DefaultNamed (.nuclide ⟨0⟩) := by with_unfolding_all rfl
  obtain ⟨haccepted, hfound⟩ := hfound cached ⟨0⟩ (.atom ⟨0⟩) "" cached_reachable hatom hadmits
  obtain ⟨y, -, hy⟩ := hfound (haccepted.mpr (by with_unfolding_all decide))
  have hothers : t.RunOf (Operation.AddsOthers ⟨0⟩ (cached.identity (.atom ⟨0⟩)).zaid) u := by
    refine RunOf.refl.perform _ hadmits' fun _ => ⟨_, _, rfl, hnuclide, ?_⟩
    with_unfolding_all decide
  obtain ⟨hidentity, hfetch⟩ := hy u hothers
  have hrun : cached.RunOf (Operation.AddsDefault ⟨0⟩) t :=
    RunOf.refl.perform _ hadmits fun _ => ⟨_, _, rfl, hatom⟩
  obtain ⟨-, hreplaced⟩ := hreplaced hydrogens hydrogens_reachable t hrun
  obtain ⟨l, caption, hkept⟩ : ∃ l caption,
      (t.cache ⟨0⟩).kept.entries = [(l, .center (.atom ⟨1⟩) caption)] :=
    ⟨_, _, by with_unfolding_all rfl⟩
  have hreported (x : CenterRef) (hx : t.DefaultNamed x) (hadmits : t.Admits (add x))
      (hok : (t.perform (add x)).2.result = .ok .null) :
      .replacingCached (t.identity x).name ∈ (t.perform (add x)).2.entries ↔
        ∃ e ∈ (t.cache ⟨0⟩).kept.entries, ∃ y caption, e.2 = .center y caption ∧
          (t.identity y).zaid = (t.identity x).zaid :=
    (hreplaced x "" hx hadmits).1 hok
  refine ⟨hatom, hnuclide, ⟨y, hidentity, hfetch _ (by with_unfolding_all rfl)⟩, ?_, ?_⟩
  · rw [hreported _ hnuclide hadmits' (by with_unfolding_all rfl), hkept]
    rintro ⟨e, he, z, caption', ho, hz⟩
    cases List.mem_singleton.mp he
    cases ho
    exact absurd hz (by with_unfolding_all decide)
  · rw [hreported _ (by with_unfolding_all rfl) hagain (by with_unfolding_all rfl), hkept]
    exact ⟨_, List.mem_singleton_self _, .atom ⟨1⟩, caption, rfl, by with_unfolding_all rfl⟩

end Store

end ScatteringData
