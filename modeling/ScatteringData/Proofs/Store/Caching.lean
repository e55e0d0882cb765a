import Mathlib
import ScatteringData.Proofs.Cache
import ScatteringData.Proofs.Store.Frame

/-!
# Caches in a run

However a cache is filled with centers and its names are aliased, and whatever is done to all other
objects meanwhile, no name is an alias, every alias stands for a name, and a center is kept under its
own name. An operation that fails leaves every cache as it was.
-/

namespace ScatteringData

/-- What an operation does to a cache is done with centers whose names are texts, and with texts as
names. -/
def Operation.Orderly (s : Store) (c : CacheRef) : Operation → Prop
  | .addToCache d v => d = c → ∃ x caption n, v = .object (.center x caption) ∧
      (s.identity x).name.chars? = some n
  | .removeFromCache d name => d = c → ∃ n, name.chars? = some n
  | .link d other name => d = c → (∃ n, other.chars? = some n) ∧ ∃ n, name.chars? = some n
  | .unlink d other => d = c → ∃ n, other.chars? = some n
  | _ => True

namespace Store

/-- The stores that runs lead to from the moment at which a cache was built, as long as the cache is
used with centers and texts. Operations may fail, and all else may be done to other objects. -/
inductive CacheRun : CacheRef → Store → Prop
  | build {s : Store} (hs : s.Reachable) : CacheRun ⟨s.caches.size⟩ (s.perform .buildCache).1
  | perform {c : CacheRef} {s : Store} (h : CacheRun c s) (op : Operation) (hop : s.Admits op)
    (horderly : op.Orderly s c) : CacheRun c (s.perform op).1
  | tick {c : CacheRef} {s : Store} (h : CacheRun c s) : CacheRun c s.tick

/-- An object is a center that has a text as its name. -/
def Named (s : Store) (o : Object) (n : String) : Prop :=
  ∃ x caption, o = .center x caption ∧ s.Holds (.center x) ∧ (s.identity x).name.chars? = some n

/-- A cache of a store has names and aliases apart, and keeps centers under their own names. -/
def Tidy (s : Store) (c : CacheRef) : Prop := (s.cache c).Consistent s.Named

variable {s t : Store} {c : CacheRef} {op : Operation}

theorem Named.frame {targets : Node → Prop} {atoms : AtomRef → Prop} {o : Object} {n : String}
    (h : s.Named o n) (hframe : Frame targets atoms s t) : t.Named o n := by
  obtain ⟨x, caption, ho, hx, hn⟩ := h
  exact ⟨x, caption, ho, hframe.holds _ hx, by rw [hframe.identity x hx, hn]⟩

theorem cache_putCache (hc : s.Holds (.cache c)) (x : Cache) : (s.putCache c x).cache c = x := by
  have h := item_put (i := .cache x) hc trivial (.cache c)
  rw [if_pos rfl] at h
  exact Item.cache.inj h

theorem cache_congr {targets : Node → Prop} {atoms : AtomRef → Prop}
    (hframe : Frame targets atoms s t) (hc : s.Holds (.cache c)) (hnot : ¬ targets (.cache c)) :
    t.cache c = s.cache c :=
  Item.cache.inj (hframe.item _ hc hnot)

/-! ## Steps -/

/-- What an operation that succeeds can make of a cache. -/
inductive CacheChange (s : Store) (c : CacheRef) : Operation → Cache → Prop
  | keep {v name : Value} {l : Label} {o : Object} (hname : s.nameOf? v = some name)
    (hl : name.key? = some l.key) (hnew : l.key ∉ (s.cache c).aliases.keys)
    (ho : (s.copyObject v).2.result = .ok o) :
    CacheChange s c (.addToCache c v) ((s.cache c).keep l o)
  | remove {name : Value} : CacheChange s c (.removeFromCache c name) ((s.cache c).remove name).1
  | link {other name : Value} {x : Cache} (h : (s.cache c).link other name = .ok x) :
    CacheChange s c (.link c other name) x
  | unlink {other : Value} {x : Cache} (h : (s.cache c).unlink other = .ok x) :
    CacheChange s c (.unlink c other) x
  | clear : CacheChange s c (.clear c) .empty

theorem addToCache_cases (s : Store) (c : CacheRef) (v : Value) :
    (∃ f, (s.addToCache c v).2.result = .error f ∧
      ((s.addToCache c v).1 = s ∨ (s.addToCache c v).1 = (s.copyObject v).1)) ∨
    ∃ name l o, (s.addToCache c v).2.result = .ok () ∧ s.nameOf? v = some name ∧
      name.key? = some l.key ∧ l.key ∉ (s.cache c).aliases.keys ∧
      (s.copyObject v).2.result = .ok o ∧
      (s.addToCache c v).1 =
        (s.copyObject v).1.putCache c (((s.copyObject v).1.cache c).keep l o) := by
  unfold addToCache
  cases hname : s.nameOf? v with
  | none => exact Or.inl ⟨_, rfl, Or.inl rfl⟩
  | some name =>
    dsimp only
    cases hadmits : (s.cache c).admits name with
    | error f => exact Or.inl ⟨_, rfl, Or.inl rfl⟩
    | ok x =>
      obtain ⟨l, present⟩ := x
      obtain ⟨hkey, hnew⟩ := Cache.admits_eq_ok hadmits
      dsimp only
      cases ho : (s.copyObject v).2.result with
      | error f => exact Or.inl ⟨_, rfl, Or.inr rfl⟩
      | ok o => exact Or.inr ⟨name, l, o, rfl, rfl, hkey, hnew, rfl, rfl⟩

theorem cache_changeCache (hc : s.Holds (.cache c)) (change : Except Fault Cache) :
    (∃ f, (s.changeCache c change).2.result = .error f) ∧
      (s.changeCache c change).1.cache c = s.cache c ∨
    ∃ x, change = .ok x ∧ (s.changeCache c change).2.result = .ok () ∧
      (s.changeCache c change).1.cache c = x := by
  cases change with
  | error f => exact Or.inl ⟨⟨f, rfl⟩, rfl⟩
  | ok x => exact Or.inr ⟨x, rfl, rfl, cache_putCache hc x⟩

theorem cache_perform (hs : s.Closed) (hc : s.Holds (.cache c)) (hop : s.Admits op) :
    (s.perform op).1.cache c = s.cache c ∨
      (∃ r, (s.perform op).2.result = .ok r) ∧ CacheChange s c op ((s.perform op).1.cache c) := by
  -- an operation that does not aim at the cache leaves it alone, whatever it does
  by_cases htarget : .cache c ∈ op.targets s
  · cases op with
    | addToCache d v =>
      cases List.mem_singleton.mp htarget
      have hcopying : Frame (fun _ => False) (fun _ => True) s (s.copyObject v).1 :=
        copyObject_frame hs (fun n hn => hop n (List.mem_cons_of_mem _ hn)) fun _ _ => trivial
      have hsame : (s.copyObject v).1.cache c = s.cache c := cache_congr hcopying hc id
      rcases s.addToCache_cases c v with ⟨f, -, heq | heq⟩ | ⟨name, l, o, hok, hname, hl, hnew, ho, heq⟩
      · exact Or.inl (congrArg (Store.cache · c) heq)
      · exact Or.inl ((congrArg (Store.cache · c) heq).trans hsame)
      · have hcache : (s.perform (.addToCache c v)).1.cache c = (s.cache c).keep l o := by
          refine (congrArg (Store.cache · c) heq).trans ?_
          rw [cache_putCache (hcopying.holds _ hc), hsame]
        rw [hcache]
        exact Or.inr ⟨Outcome.exists_map_ok hok _, .keep hname hl hnew ho⟩
    | removeFromCache d name =>
      cases List.mem_singleton.mp htarget
      have hcache : (s.perform (.removeFromCache c name)).1.cache c = ((s.cache c).remove name).1 :=
        cache_putCache hc _
      rw [hcache]
      cases hresult : ((s.cache c).remove name).2.result with
      | error f => exact Or.inl (Cache.remove_eq_error hresult)
      | ok u => exact Or.inr ⟨Outcome.exists_map_ok hresult _, .remove⟩
    | link d other name =>
      cases List.mem_singleton.mp htarget
      rcases cache_changeCache hc ((s.cache c).link other name) with ⟨-, heq⟩ | ⟨x, hx, hok, heq⟩
      · exact Or.inl heq
      · exact Or.inr ⟨Outcome.exists_map_ok hok _, .link (hx.trans (congrArg Except.ok heq.symm))⟩
    | unlink d other =>
      cases List.mem_singleton.mp htarget
      rcases cache_changeCache hc ((s.cache c).unlink other) with ⟨-, heq⟩ | ⟨x, hx, hok, heq⟩
      · exact Or.inl heq
      · exact Or.inr ⟨Outcome.exists_map_ok hok _, .unlink (hx.trans (congrArg Except.ok heq.symm))⟩
    | clear d =>
      cases List.mem_singleton.mp htarget
      have hcache : (s.perform (.clear c)).1.cache c = .empty := cache_putCache hc _
      rw [hcache]
      exact Or.inr ⟨⟨_, rfl⟩, .clear⟩
    | setOn d k v => cases k <;> cases List.mem_singleton.mp htarget
    | assign | set => cases List.mem_singleton.mp htarget
    | _ => cases htarget
  · exact Or.inl (cache_congr (perform_frame hs hop) hc htarget)

/-- What holds of a cache, and of all that an operation can make of it, holds afterwards. -/
theorem cache_perform_of {P : Cache → Prop} (hs : s.Closed) (hc : s.Holds (.cache c))
    (hop : s.Admits op) (h : P (s.cache c))
    (hchange : ∀ x r, (s.perform op).2.result = .ok r → CacheChange s c op x → P x) :
    P ((s.perform op).1.cache c) := by
  rcases cache_perform hs hc hop with heq | ⟨⟨r, hok⟩, hmade⟩
  · rw [heq]
    exact h
  · exact hchange _ r hok hmade

theorem cache_perform_failed (hs : s.Closed) (hc : s.Holds (.cache c)) (hop : s.Admits op)
    {f : Fault} (hfail : (s.perform op).2.result = .error f) :
    (s.perform op).1.cache c = s.cache c := by
  rcases cache_perform hs hc hop with heq | ⟨⟨r, hok⟩, -⟩
  · exact heq
  · rw [hfail] at hok
    cases hok

theorem Named.copy (hs : s.Closed) {x : CenterRef} (hx : s.Holds (.center x)) {caption n : String}
    (hn : (s.identity x).name.chars? = some n) {o : Object}
    (ho : (s.copyObject (.object (.center x caption))).2.result = .ok o) :
    (s.copyObject (.object (.center x caption))).1.Named o n := by
  obtain ⟨-, -, hcopy⟩ := copyCenter_spec hs hx .maps
  cases ho
  exact ⟨_, _, rfl, hcopy.held, by rw [← hn, ← hcopy.identity]; rfl⟩

theorem addToCache_eq_ok {v r : Value} (h : (s.perform (.addToCache c v)).2.result = .ok r) :
    (s.addToCache c v).2.result = .ok () := by
  obtain ⟨_, hadd, -⟩ := Outcome.map_eq_ok (x := (s.addToCache c v).2) h
  exact hadd

theorem frame_addToCache {v : Value} {u : Unit} (h : (s.addToCache c v).2.result = .ok u) :
    Frame (· ∈ [.cache c]) (fun _ => True) (s.copyObject v).1 (s.addToCache c v).1 := by
  rcases s.addToCache_cases c v with ⟨f, hf, -⟩ | ⟨name, l, o, -, -, -, -, -, heq⟩
  · rw [h] at hf
    cases hf
  · rw [heq]
    exact putCache_frame c _

theorem Tidy.perform (h : s.Tidy c) (hs : s.Closed) (hc : s.Holds (.cache c)) (hop : s.Admits op)
    (horderly : op.Orderly s c) : (s.perform op).1.Tidy c := by
  have hframe := perform_frame hs hop
  have h' : (s.cache c).Consistent (s.perform op).1.Named :=
    Cache.Consistent.imp h fun o n ho => ho.frame hframe
  refine cache_perform_of (P := (·.Consistent (s.perform op).1.Named)) hs hc hop h'
    fun x r hok hchange => ?_
  cases hchange with
  | keep hname hl hnew ho =>
    obtain ⟨y, caption, n, rfl, hn⟩ := horderly rfl
    have hy : s.Holds (.center y) := hop _ (List.mem_cons_of_mem _ (List.mem_singleton_self _))
    have hadded := frame_addToCache (addToCache_eq_ok hok)
    cases hname
    refine h'.keep (n := n) ?_ ((Named.copy hs hy hn ho).frame hadded) hnew
    rw [Value.chars?_eq_some_iff.mp hn] at hl
    exact (Option.some.inj hl).symm
  | @remove name =>
    obtain ⟨n, hn⟩ := horderly rfl
    exact h'.remove hn
  | link hx =>
    obtain ⟨-, n, hn⟩ := horderly rfl
    exact h'.link hn hx
  | unlink hx => exact h'.unlink hx
  | clear => exact Cache.Consistent.empty

/-! ## Runs -/

theorem CacheRun.tidy (h : CacheRun c s) : s.Closed ∧ s.Holds (.cache c) ∧ s.Tidy c := by
  induction h with
  | @build s hs =>
    obtain ⟨hclosed, -, -, hheld, hitem⟩ :=
      add_spec hs.closed (i := .cache .empty) fun n hn => by cases hn
    refine ⟨hclosed, hheld, ?_⟩
    change ((s.add (.cache .empty)).1.cache _).Consistent _
    rw [Item.cache.inj hitem]
    exact Cache.Consistent.empty
  | @perform c s _ op hop horderly ih =>
    obtain ⟨hclosed, hheld, htidy⟩ := ih
    exact ⟨hclosed.perform hop, (perform_frame hclosed hop).holds _ hheld,
      htidy.perform hclosed hheld hop horderly⟩
  | tick _ ih => exact ih

/-- In a cache no text is a name and an alias, an alias stands for a name, and a center is kept under
its own name. A text is found exactly if it is known, under itself or under the name that it is an
alias of. Operations that fail change nothing in the cache. -/
theorem CacheRun.consistent (h : CacheRun c s) :
    (∀ n, ¬ (.text n ∈ (s.cache c).kept.keys ∧ .text n ∈ (s.cache c).aliases.keys)) ∧
    (∀ e ∈ (s.cache c).aliases.entries, ∃ n, e.2.chars? = some n ∧
      .text n ∈ (s.cache c).kept.keys ∧ .text n ∉ (s.cache c).aliases.keys) ∧
    (∀ e ∈ (s.cache c).kept.entries, ∃ x caption n, e.2 = .center x caption ∧
      e.1.shown.chars? = some n ∧ (s.identity x).name.chars? = some n) ∧
    (∀ v n, v.chars? = some n →
      ((∃ o, (s.cache c).get v = .ok o) ↔ (s.cache c).knows v = .ok true) ∧
      (∀ o, (s.cache c).get v = .ok o ↔ (s.cache c).kept.get? (.text n) = some o ∨
        ∃ target m, (s.cache c).aliases.get? (.text n) = some target ∧ target.chars? = some m ∧
          (s.cache c).kept.get? (.text m) = some o) ∧
      ((s.cache c).knows v ≠ .ok true → (s.cache c).get v = .error (.request (.notCached v)))) ∧
    ∀ op f, s.Admits op → (s.perform op).2.result = .error f →
      (s.perform op).1.cache c = s.cache c := by
  obtain ⟨hclosed, hheld, htidy⟩ := h.tidy
  have htidy : (s.cache c).Consistent s.Named := htidy
  refine ⟨fun n hn => htidy.apart _ hn.2 hn.1, fun e he => ?_, fun e he => ?_, fun v n hv => ?_,
    fun op f hop hfail => cache_perform_failed hclosed hheld hop hfail⟩
  · obtain ⟨n, hn, hmem⟩ := htidy.aliases e he
    exact ⟨n, hn, hmem, fun halias => htidy.apart _ halias hmem⟩
  · obtain ⟨n, hkey, x, caption, ho, -, hname⟩ := htidy.kept e he
    refine ⟨x, caption, n, ho, Value.chars?_eq_some_iff.mpr ?_, hname⟩
    rw [e.1.key_shown, hkey]
  · exact ⟨htidy.get_isOk_iff hv, htidy.get_eq_ok_iff hv, Cache.get_eq_error hv⟩

def aliased : Store :=
  hydrogens.run [.buildCache, .addToCache ⟨0⟩ (.object (.center (.atom ⟨0⟩) "")),
    .link ⟨0⟩ (.text "Hydrogen" .shared) (.text "H" .shared)]

theorem aliased_cacheRun : CacheRun ⟨0⟩ aliased := by
  have h₀ : CacheRun ⟨0⟩ (hydrogens.perform .buildCache).1 := CacheRun.build hydrogens_reachable
  have h₁ := h₀.perform (.addToCache ⟨0⟩ (.object (.center (.atom ⟨0⟩) "")))
    (by with_unfolding_all decide) fun _ => ⟨_, _, "H", rfl, by with_unfolding_all rfl⟩
  exact h₁.perform (.link ⟨0⟩ (.text "Hydrogen" .shared) (.text "H" .shared))
    (by with_unfolding_all decide) fun _ => ⟨⟨_, rfl⟩, ⟨_, rfl⟩⟩

/-- Hydrogen is found under its alias, and its name cannot become an alias as well. -/
theorem aliased_consistent :
    let op : Operation := .link ⟨0⟩ (.text "H" .shared) (.text "H" .shared)
    CacheRun ⟨0⟩ aliased ∧ (∃ o, (aliased.cache ⟨0⟩).get (.text "Hydrogen" .shared) = .ok o) ∧
      (aliased.perform op).2.result = .error (.data (.aliasIsName (.text "H" .shared))) ∧
      (aliased.perform op).1.cache ⟨0⟩ = aliased.cache ⟨0⟩ := by
  intro op
  obtain ⟨-, -, -, hfound, hfailed⟩ := CacheRun.consistent aliased_cacheRun
  have hfail : (aliased.perform op).2.result = .error (.data (.aliasIsName (.text "H" .shared))) := by
    with_unfolding_all rfl
  refine ⟨aliased_cacheRun, (hfound _ "Hydrogen" rfl).1.mpr (by with_unfolding_all rfl), hfail, ?_⟩
  refine hfailed op _ (fun n hn => ?_) hfail
  cases List.mem_singleton.mp hn
  exact (by with_unfolding_all decide : 0 < 1)

end Store

end ScatteringData
