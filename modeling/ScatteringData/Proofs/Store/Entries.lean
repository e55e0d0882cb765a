import Mathlib
import ScatteringData.Proofs.RecordMap.Changes
import ScatteringData.Proofs.Store.Caching
import ScatteringData.Proofs.Store.Isolation

/-!
# What a cache keeps

A cache keeps a copy of a center that was added. As long as nobody takes it out, it answers as the
center did at that moment, except where the two are on one atom, whose data all its centers share.
-/

namespace ScatteringData

/-- An operation neither replaces nor removes what a cache keeps under a key. -/
def Operation.Spares (s : Store) (c : CacheRef) (k : Key) : Operation → Prop
  | .addToCache d v => d = c → ∀ name, s.nameOf? v = some name → name.key? = some k →
      ∃ f, (s.addToCache d v).2.result = .error f
  | .removeFromCache d name => d = c → name.key? ≠ some k
  | .clear d => d ≠ c
  | _ => True

namespace Store

/-- Later stores, up to which no operation uses a certain center, or replaces or removes what a cache
keeps under a key. -/
inductive Spared (c : CacheRef) (k : Key) (y : CenterRef) (t : Store) : Store → Prop
  | refl : Spared c k y t t
  | perform {u : Store} (h : Spared c k y t u) (op : Operation) (hop : u.Admits op)
    (hunused : .center y ∉ op.nodes) (hspares : op.Spares u c k) : Spared c k y t (u.perform op).1
  | tick {u : Store} (h : Spared c k y t u) : Spared c k y t u.tick

variable {s t u : Store} {c : CacheRef} {k : Key} {y p : CenterRef} {o : Object} {op : Operation}

theorem Spared.later (h : Spared c k y t u) : t.Later (· ≠ .center y) u := by
  induction h with
  | refl => exact .refl
  | @perform u _ op hop hunused _ ih =>
    refine ih.perform op ?_
    intro n hn
    refine ⟨hop n hn, ?_⟩
    rintro - rfl
    exact hunused hn
  | tick _ ih => exact ih.tick

/-! ## Entries -/

theorem has_perform (h : (s.cache c).Has k o) (hs : s.Closed) (hc : s.Holds (.cache c))
    (hop : s.Admits op) (hspares : op.Spares s c k) : ((s.perform op).1.cache c).Has k o := by
  refine cache_perform_of (P := (·.Has k o)) hs hc hop h fun x r hok hchange => ?_
  cases hchange with
  | @keep v name l p hname hl _ _ =>
    refine h.keep ?_ p
    intro hk
    obtain ⟨f, hf⟩ := hspares rfl name hname (hk ▸ hl)
    rw [addToCache_eq_ok hok] at hf
    cases hf
  | remove => exact h.remove (hspares rfl)
  | link hx => exact h.link hx
  | unlink hx => exact h.unlink hx
  | clear => exact absurd rfl hspares

theorem Spared.has (h : Spared c k y t u) (ht : t.Closed) (hc : t.Holds (.cache c))
    (hhas : (t.cache c).Has k o) : u.Closed ∧ u.Holds (.cache c) ∧ (u.cache c).Has k o := by
  induction h with
  | refl => exact ⟨ht, hc, hhas⟩
  | perform _ op hop _ hspares ih =>
    obtain ⟨hclosed, hheld, hu⟩ := ih
    refine ⟨hclosed.perform hop, ?_, has_perform hu hclosed hheld hop hspares⟩
    exact (perform_frame hclosed hop).holds _ hheld
  | tick _ ih => exact ih

/-! ## Copies with the records of the original -/

theorem IsCopy.centerMap?_eq (h : IsCopy .maps s t p y) (C : Category) :
    t.centerMap? y C = s.centerMap? p C := by
  have hmaps := h.maps C
  have hrenews : Depth.maps.renews p C = false := by cases p <;> cases C <;> rfl
  rw [hrenews] at hmaps
  generalize s.centerMap? p C = m at hmaps ⊢
  generalize t.centerMap? y C = n at hmaps ⊢
  cases hmaps with
  | none => rfl
  | some hrel =>
    have heq := hrel.imp (S := Eq) fun r q hrq => Eq.symm hrq
    rw [heq.eq]

theorem holds_copyCenter (s : Store) (p : CenterRef) (n : Node) :
    (s.copyCenter p .maps).1.Holds n ↔ s.Holds n ∨ n = .center (s.copyCenter p .maps).2.2 := by
  cases p with
  | atom a =>
    simp only [copyCenter, ne_eq, not_true_eq_false, decide_false, copyAtom_shared]
    exact holds_add s (.atom (s.atom a)) n
  | nuclide j =>
    simp only [copyCenter, copyNuclide, addNuclideOn_shared]
    exact holds_add s (.nuclide (s.nuclide j)) n

/-- A center of a later store answers in a category as a center of an earlier one did, where the
arguments are the same. -/
structure AnswersAs (s u : Store) (p y : CenterRef) (C : Category) : Prop where
  map : u.centerMap? y C = s.centerMap? p C
  answers : ∀ q args, (∀ n ∈ Value.nodesAll args, u.item n = s.item n) →
    u.askOn y C q args = s.askOn p C q args

theorem AnswersAs.of_map {C : Category} (h : u.centerMap? y C = s.centerMap? p C) :
    s.AnswersAs u p y C :=
  ⟨h, fun _ _ hargs => askOn_of_map h fun _ => settled_congr hargs⟩

/-- A copy that a cache has just taken of a center: it is new, under the name of the center, and it
has the maps and the atom of the center. -/
structure Entered (s t : Store) (c : CacheRef) (p y : CenterRef) (k : Key) : Prop where
  key : (s.identity p).name.key? = some k
  has : (t.cache c).Has k (t.centerObject y)
  fresh : ¬ s.Holds (.center y)
  kind : y.kind = p.kind
  identity : t.identity y = s.identity p
  maps : ∀ C, t.centerMap? y C = s.centerMap? p C
  atom : ∀ n, p = .nuclide n → t.atomOf y = s.atomOf p
  holds : ∀ n, t.Holds n ↔ s.Holds n ∨ n = .center y
  item : ∀ x, s.Holds (.center x) → t.item (.center x) = s.item (.center x)

theorem exists_entered (hs : s.Closed) (hc : s.Holds (.cache c)) (hp : s.Holds (.center p))
    (caption : String)
    (hok : (s.addToCache c (.object (.center p caption))).2.result = .ok ()) :
    ∃ y k, Entered s (s.addToCache c (.object (.center p caption))).1 c p y k := by
  obtain ⟨f, hf, -⟩ | ⟨name, l, o, -, hname, hkey, hnew, ho, heq⟩ := s.addToCache_cases c
    (.object (.center p caption))
  · rw [hok] at hf
    cases hf
  obtain ⟨-, hext, hcopy⟩ := copyCenter_spec hs hp .maps
  have hcopying : Frame (fun _ => False) (fun _ => True) s (s.copyCenter p .maps).1 :=
    copyCenter_frame hs hp .maps fun _ _ _ => trivial
  cases hname
  cases ho
  change _ = (s.copyCenter p .maps).1.putCache c _ at heq
  rw [heq]
  refine ⟨(s.copyCenter p .maps).2.2, l.key, ?_⟩
  constructor
  case key => exact hkey
  case fresh => exact hcopy.fresh
  case kind => exact hcopy.kind
  case identity => exact hcopy.identity
  case maps => exact hcopy.centerMap?_eq
  case has =>
    rw [cache_putCache (hext _ hc).1]
    constructor
    · simp only [Cache.keep, Table.get?_put, if_true]
      rfl
    · change (Store.cache (s.copyCenter p .maps).1 c).aliases.get? l.key = none
      rw [cache_congr hcopying hc id]
      exact (Table.get?_eq_none_iff _ _).mpr hnew
  case atom =>
    intro n hn
    have hatom := hcopy.atom n hn
    rw [if_neg (by decide)] at hatom
    exact hatom
  case holds =>
    intro n
    exact (holds_put _ (.cache c) (.cache _) n).trans (holds_copyCenter s p n)
  case item =>
    intro x hx
    cases x with
    | atom a => exact (hext _ hx).2
    | nuclide n => exact (hext _ hx).2

/-! ## Later answers -/

theorem Entered.frame (h : Entered s t c p y k) (hs : s.Closed) (ht : t.Closed)
    (hu : Spared c k y t u) : Frame (· ≠ Node.center y) (fun a => Node.center (.atom a) ≠ .center y) t u := by
  refine (hu.later.frame ht ?_).2
  -- a nuclide that is not the copy was there before, and so was its atom
  intro n hn hne heq
  have hold := ((h.holds _).mp hn).resolve_right hne
  have hatom := hs _ hold (.center (.atom (s.nuclide n).atom))
    (Nuclide.mem_nodes.mpr (Or.inr (Or.inl rfl)))
  rw [Item.nuclide.inj (h.item _ hold)] at heq
  apply h.fresh
  rw [← heq]
  exact hatom

/-- A cache that has accepted a center keeps a new object for it, which is found under the name of the
center and under all aliases of the name. Whatever is done without that object, the copy of an atom
answers as the atom did when it was added. So does the copy of a nuclide in the categories of nuclides,
and in the atomic categories it answers as all centers with the atom of the nuclide do. -/
theorem Reachable.addToCache_keeps (hs : s.Reachable) {caption : String}
    (hop : s.Admits (.addToCache c (.object (.center p caption))))
    (hok : (s.perform (.addToCache c (.object (.center p caption)))).2.result = .ok .null) :
    let t := (s.perform (.addToCache c (.object (.center p caption)))).1
    ∃ y k, (s.identity p).name.key? = some k ∧ ¬ s.Holds (.center y) ∧ y ≠ p ∧ y.kind = p.kind ∧
      ∀ u, Spared c k y t u →
        u.identity y = s.identity p ∧
        (∀ v, (u.cache c).Leads k v →
          (u.perform (.fetch c v)).2.result = .ok (.object (u.centerObject y))) ∧
        (∀ a, p = .atom a → ∀ C, s.AnswersAs u p y C) ∧
        ∀ n, p = .nuclide n → (∀ d, s.AnswersAs u p y (.nuclide d)) ∧
          u.atomOf y = s.atomOf p ∧ u.atomOf p = s.atomOf p ∧
          ∀ x, u.atomOf x = s.atomOf p → ∀ d, u.AnswersAs u y x (.atomic d) := by
  intro t
  have hc : s.Holds (.cache c) := hop _ (List.mem_cons_self ..)
  have hp : s.Holds (.center p) := hop _ (List.mem_cons_of_mem _ (List.mem_singleton_self _))
  obtain ⟨_, hadd, -⟩ := Outcome.map_eq_ok hok
  obtain ⟨y, k, h⟩ := exists_entered hs.closed hc hp caption hadd
  change Entered s t c p y k at h
  have ht : t.Closed := hs.closed.perform hop
  have hnew : t.Holds (.center y) := (h.holds _).mpr (Or.inr rfl)
  have hold : t.Holds (.center p) := (h.holds _).mpr (Or.inl hp)
  refine ⟨y, k, h.key, h.fresh, ?_, h.kind, ?_⟩
  · intro heq
    exact h.fresh (heq ▸ hp)
  · intro u hu
    have hframe := h.frame hs.closed ht hu
    have hidentity : u.identity y = t.identity y := hframe.identity y hnew
    have hatom : u.atomOf y = t.atomOf y := hframe.atomOf y hnew
    -- what the copy has of its own is no target of any later operation
    have hhome : ∀ C, t.home y C = .center y → s.AnswersAs u p y C := by
      intro C hC
      refine AnswersAs.of_map ?_
      rw [← h.maps C]
      refine centerMap?_congr hatom ?_
      rw [hC]
      exact hframe.item _ hnew (not_not.mpr rfl)
    refine ⟨hidentity.trans h.identity, ?_, ?_, ?_⟩
    · intro v hv
      obtain ⟨-, -, hhas⟩ := hu.has ht ((h.holds _).mpr (Or.inl hc)) h.has
      have hobject : u.centerObject y = t.centerObject y := by
        simp only [centerObject, hidentity]
      change (Outcome.ofExcept (((u.cache c).get v).map Value.object)).result = _
      rw [hhas.get_eq hv, hobject]
      rfl
    · intro a ha C
      subst ha
      refine hhome C ?_
      cases y with
      | atom b => cases C <;> rfl
      | nuclide n => exact absurd (show "NuclideProperties" = "AtomProperties" from h.kind) (by decide)
    · intro n hn
      have hy : u.atomOf y = s.atomOf p := hatom.trans (h.atom n hn)
      refine ⟨fun d => hhome _ rfl, hy, ?_, ?_⟩
      · exact (hframe.atomOf p hold).trans (center_congr (h.item p hp)).2
      · intro x hx d
        refine AnswersAs.of_map ?_
        simp only [centerMap?, hx, hy]

def cached : Store := (hydrogens.perform .buildCache).1

theorem cached_reachable : cached.Reachable :=
  hydrogens_reachable.perform .buildCache (by with_unfolding_all decide)

def endowed : Store :=
  (aliased.perform (.setOn (.atom ⟨0⟩) (.atomic .photoatomic)
    (.object (.record (.atomic .photoatomic) ⟨0⟩)))).1

/-- What is found under the alias is not the atom, and it has no data. -/
theorem addToCache_keeps_hydrogen :
    let add : Operation := .addToCache ⟨0⟩ (.object (.center (.atom ⟨0⟩) ""))
    cached.Admits add ∧ (cached.perform add).2.result = .ok .null ∧
      (endowed.askOn (.atom ⟨0⟩) (.atomic .photoatomic) .available []).result = .ok (.truth true) ∧
      ∃ y, y ≠ .atom ⟨0⟩ ∧
        (endowed.perform (.fetch ⟨0⟩ (.text "Hydrogen" .shared))).2.result =
          .ok (.object (endowed.centerObject y)) ∧
        (endowed.askOn y (.atomic .photoatomic) .available []).result = .ok (.truth false) := by
  intro add
  have hadd : cached.Admits add := by with_unfolding_all decide
  have hok : (cached.perform add).2.result = .ok .null := by with_unfolding_all rfl
  obtain ⟨y, k, hk, -, hy, -, hkeeps⟩ := Reachable.addToCache_keeps cached_reachable hadd hok
  have hk : k = .text "H" := by
    have hname : (cached.identity (.atom ⟨0⟩)).name.key? = some (.text "H") := by
      with_unfolding_all rfl
    exact Option.some.inj (hk.symm.trans hname)
  subst hk
  have hlinked : Spared ⟨0⟩ (.text "H") y (cached.perform add).1 aliased := by
    refine Spared.refl.perform (.link ⟨0⟩ (.text "Hydrogen" .shared) (.text "H" .shared)) ?_ ?_ trivial
    · with_unfolding_all decide
    · intro hn
      cases List.mem_singleton.mp hn
  have hset : Spared ⟨0⟩ (.text "H") y (cached.perform add).1 endowed := by
    refine hlinked.perform _ ?_ ?_ trivial
    · with_unfolding_all decide
    · intro hn
      rcases List.mem_cons.mp hn with hn | hn
      · exact hy (Node.center.inj hn)
      · cases List.mem_singleton.mp hn
  obtain ⟨-, hfetch, hatom, -⟩ := hkeeps endowed hset
  refine ⟨hadd, hok, ?_, y, hy, ?_, ?_⟩
  · with_unfolding_all rfl
  · refine hfetch _ (Or.inr ⟨.text "Hydrogen", .text "H" .shared, rfl, ?_, rfl⟩)
    with_unfolding_all rfl
  · rw [(hatom _ rfl _).answers .available [] fun n hn => by cases hn]
    with_unfolding_all rfl

end Store

end ScatteringData
