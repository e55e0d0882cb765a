import Mathlib
import ScatteringData.Proofs.Store.Duplicate
import ScatteringData.Proofs.Store.Reach
import ScatteringData.Proofs.RecordMap.Related

/-!
# Cloning a record

A clone is the copy of a record in a duplication of all that the record refers to. Cloning adds
objects and changes none, so whatever is reached from a clone is new.
-/

namespace ScatteringData

namespace Store

variable {s t : Store}

/-! ## Adding objects once more -/

theorem addAgain_eq (s : Store) (n : Node) : s.addAgain n = s.add (s.item n) := by
  rcases n with r | (a | n) | m | c <;> rfl

theorem addAllAgain_spec {ns : List Node} (hns : ∀ n ∈ ns, s.Holds n) :
    s.Extends (s.addAllAgain ns).1 ∧ (s.addAllAgain ns).2.map (·.1) = ns ∧
      ((s.addAllAgain ns).2.map (·.2)).Nodup ∧
      (∀ n, (s.addAllAgain ns).1.Holds n ↔ s.Holds n ∨ n ∈ (s.addAllAgain ns).2.map (·.2)) ∧
      ∀ p ∈ (s.addAllAgain ns).2, ¬ s.Holds p.2 ∧ (s.addAllAgain ns).1.item p.2 = s.item p.1 := by
  induction ns generalizing s with
  | nil => exact ⟨Extends.refl s, rfl, List.nodup_nil, by simp [addAllAgain], by simp [addAllAgain]⟩
  | cons n ns ih =>
    have hext := extends_add s (s.item n)
    have hheld := holds_add s (s.item n)
    have hns' : ∀ k ∈ ns, (s.add (s.item n)).1.Holds k := fun k hk =>
      (hext k (hns k (List.mem_cons_of_mem _ hk))).1
    obtain ⟨hext', hfst, hnodup, hholds, hplaces⟩ := ih hns'
    have hcopy : (s.add (s.item n)).1.Holds (s.add (s.item n)).2 := (hheld _).mpr (Or.inr rfl)
    have hnew : (s.add (s.item n)).1.item (s.add (s.item n)).2 = s.item n := by
      rw [item_add, if_pos rfl]
    unfold addAllAgain
    rw [addAgain_eq]
    dsimp only
    refine ⟨hext.trans hext', ?_, ?_, fun k => ?_, fun p hp => ?_⟩
    · rw [List.map_cons, hfst]
    · rw [List.map_cons, List.nodup_cons]
      refine ⟨fun hmem => ?_, hnodup⟩
      obtain ⟨p, hp, heq⟩ := List.mem_map.mp hmem
      exact (hplaces p hp).1 (heq ▸ hcopy)
    · rw [hholds, hheld, List.map_cons, List.mem_cons, or_assoc]
    · rcases List.mem_cons.mp hp with rfl | hp
      · exact ⟨not_holds_add s _, ((hext' _ hcopy).2).trans hnew⟩
      · obtain ⟨hnot, hitem⟩ := hplaces p hp
        refine ⟨fun h => hnot (hext _ h).1, hitem.trans (hext _ (hns _ ?_)).2⟩
        rw [← hfst]
        exact List.mem_cons_of_mem _ (List.mem_map_of_mem hp)

/-! ## Redirecting references -/

theorem redirect_eq (s : Store) (d : Duplication) (n : Node) :
    s.redirect d n = s.put n (d.item (s.item n)) := by
  rcases n with r | (a | n) | m | c <;> rfl

theorem fits_copy (s : Store) (d : Duplication) (n : Node) : Fits n (d.item (s.item n)) := by
  rcases n with r | (a | n) | m | c <;> trivial

theorem foldl_redirect (d : Duplication) {ps : List (Node × Node)} (hnodup : (ps.map (·.2)).Nodup)
    (hps : ∀ p ∈ ps, t.Holds p.2) (n : Node) :
    ((ps.foldl (fun t p => t.redirect d p.2) t).Holds n ↔ t.Holds n) ∧
      (ps.foldl (fun t p => t.redirect d p.2) t).item n =
        if n ∈ ps.map (·.2) then d.item (t.item n) else t.item n := by
  induction ps generalizing t with
  | nil => exact ⟨Iff.rfl, rfl⟩
  | cons p ps ih =>
    rw [List.map_cons, List.nodup_cons] at hnodup
    have hp := hps p (List.mem_cons_self ..)
    have hitem := item_put hp (fits_copy t d p.2) n
    rw [List.foldl_cons, redirect_eq]
    obtain ⟨hholds, hrest⟩ := @ih (t.put p.2 (d.item (t.item p.2))) hnodup.2 fun q hq =>
      (holds_put t _ _ _).mpr (hps q (List.mem_cons_of_mem _ hq))
    refine ⟨hholds.trans (holds_put t _ _ n), ?_⟩
    rw [hrest, hitem, List.map_cons]
    by_cases heq : n = p.2
    · subst heq
      rw [if_neg hnodup.1, if_pos rfl, if_pos (List.mem_cons_self ..)]
    · rw [if_neg heq]
      by_cases hmem : n ∈ ps.map (·.2)
      · rw [if_pos hmem, if_pos (List.mem_cons_of_mem _ hmem)]
      · rw [if_neg hmem, if_neg fun h => (List.mem_cons.mp h).elim heq hmem]

end Store

/-! ## Duplications -/

/-- A duplication leads from objects of a store to new objects of a later one. Each is a copy in
which references lead to copies, and with an object all that it refers to is copied. -/
structure Duplication.Copies (d : Duplication) (s t : Store) : Prop where
  source : ∀ p ∈ d.places, s.Holds p.1
  fresh : ∀ p ∈ d.places, ¬ s.Holds p.2
  held : ∀ p ∈ d.places, t.Holds p.2
  item : ∀ p ∈ d.places, t.item p.2 = d.item (s.item p.1)
  saturated : s.Saturated (d.places.map (·.1))

namespace Duplication

variable {d : Duplication} {s t u : Store}

theorem exists_lookup {n : Node} (h : n ∈ d.places.map (·.1)) :
    ∃ k, d.places.lookup n = some k ∧ (n, k) ∈ d.places := by
  cases hk : d.places.lookup n with
  | some k => exact ⟨k, rfl, mem_of_lookup hk⟩
  | none =>
    obtain ⟨p, hp, rfl⟩ := List.mem_map.mp h
    have := List.lookup_eq_none_iff.mp hk p hp
    simp at this

theorem Copies.maps (h : d.Copies s t) :
    d.Maps (· ∈ d.places.map (·.1)) (· ∈ d.places.map (·.2)) := by
  constructor
  · intro r hr
    obtain ⟨k, hk, hmem⟩ := exists_lookup hr
    have hitem := h.item _ hmem
    rcases k with q | (b | m) | n | c <;> try cases hitem
    exact List.mem_map.mpr ⟨_, hmem, by rw [Duplication.record, hk]⟩
  · intro a ha
    obtain ⟨k, hk, hmem⟩ := exists_lookup ha
    have hitem := h.item _ hmem
    rcases k with q | (b | m) | n | c <;> try cases hitem
    exact List.mem_map.mpr ⟨_, hmem, by rw [Duplication.atom, hk]⟩
  · intro a ha
    obtain ⟨k, hk, hmem⟩ := exists_lookup ha
    have hitem := h.item _ hmem
    rcases a with a | m <;> rcases k with q | (b | m') | n | c <;> try cases hitem
    · exact List.mem_map.mpr ⟨_, hmem, by rw [Duplication.center, hk]⟩
    · exact List.mem_map.mpr ⟨_, hmem, by rw [Duplication.center, hk]⟩
  · intro m hm
    obtain ⟨k, hk, hmem⟩ := exists_lookup hm
    have hitem := h.item _ hmem
    rcases k with q | (b | m') | n | c <;> try cases hitem
    exact List.mem_map.mpr ⟨_, hmem, by rw [Duplication.map, hk]⟩
  · intro c hc
    obtain ⟨k, hk, hmem⟩ := exists_lookup hc
    have hitem := h.item _ hmem
    rcases k with q | (b | m') | n | c' <;> try cases hitem
    exact List.mem_map.mpr ⟨_, hmem, by rw [Duplication.cache, hk]⟩

theorem Copies.mem_record (h : d.Copies s t) {r : RecordRef}
    (hr : Node.record r ∈ d.places.map (·.1)) :
    (Node.record r, Node.record (d.record r)) ∈ d.places := by
  obtain ⟨k, hk, hmem⟩ := exists_lookup hr
  have hitem := h.item _ hmem
  rcases k with q | (b | m) | n | c <;> try cases hitem
  rw [Duplication.record, hk]
  exact hmem

theorem Copies.record_eq (h : d.Copies s t) {r : RecordRef}
    (hr : Node.record r ∈ d.places.map (·.1)) :
    t.record (d.record r) = d.recordContent (s.record r) := by
  have hitem := h.item _ (h.mem_record hr)
  exact Item.record.inj hitem

theorem Copies.extend (h : d.Copies s t) (htu : t.Extends u) : d.Copies s u :=
  ⟨h.source, h.fresh, fun p hp => (htu _ (h.held p hp)).1,
    fun p hp => (htu _ (h.held p hp)).2.trans (h.item p hp), h.saturated⟩

end Duplication

namespace Store

variable {s t : Store} {r : RecordRef}

/-- Cloning a record adds the copies of a duplication and changes no object. -/
theorem cloneRecord_spec (hs : s.Closed) (hr : s.Holds (.record r)) :
    (s.cloneRecord r).1.Closed ∧ s.Extends (s.cloneRecord r).1 ∧
      ∃ d : Duplication, d.Copies s (s.cloneRecord r).1 ∧
        d.places.map (·.1) = s.reach (.record r) ∧ (s.cloneRecord r).2 = d.record r ∧
        ∀ n, (s.cloneRecord r).1.Holds n → s.Holds n ∨ n ∈ d.places.map (·.2) := by
  obtain ⟨-, hreach, -, hsaturated⟩ := reach_spec hs hr
  obtain ⟨hext, hfst, hnodup, hholds, hplaces⟩ := addAllAgain_spec hreach
  unfold cloneRecord
  generalize s.addAllAgain (s.reach (.record r)) = x at hext hfst hnodup hholds hplaces ⊢
  obtain ⟨t, places⟩ := x
  dsimp only at hext hfst hnodup hholds hplaces ⊢
  have hcopies : ∀ p ∈ places, t.Holds p.2 := fun p hp =>
    (hholds _).mpr (Or.inr (List.mem_map_of_mem hp))
  generalize hd : (⟨s.records.size, places⟩ : Duplication) = d
  have hdplaces : d.places = places := hd ▸ rfl
  have hfold := foldl_redirect d hnodup hcopies
  generalize places.foldl (fun t p => t.redirect d p.2) t = u at hfold ⊢
  have hsource : ∀ p ∈ places, s.Holds p.1 := fun p hp =>
    hreach _ (hfst ▸ List.mem_map_of_mem hp)
  -- only copies are redirected, and no object of the store is among them
  have hsu : s.Extends u := by
    intro n hn
    obtain ⟨hu, hitem⟩ := hfold n
    have hnot : n ∉ places.map (·.2) := by
      intro hmem
      obtain ⟨p, hp, rfl⟩ := List.mem_map.mp hmem
      exact (hplaces p hp).1 hn
    rw [if_neg hnot] at hitem
    exact ⟨hu.mpr (hext n hn).1, hitem.trans (hext n hn).2⟩
  have hitem : ∀ p ∈ places, u.item p.2 = d.item (s.item p.1) := by
    intro p hp
    rw [(hfold p.2).2, if_pos (List.mem_map_of_mem hp), (hplaces p hp).2]
  have hheld : ∀ p ∈ places, u.Holds p.2 := fun p hp => (hfold _).1.mpr (hcopies p hp)
  refine ⟨?_, hsu, d, ⟨?_, ?_, ?_, ?_, ?_⟩, ?_, rfl, ?_⟩
  · -- an old object refers to old ones, and a copy to old ones or to copies
    intro n hn k hk
    rcases (hholds n).mp ((hfold n).1.mp hn) with hold | hcopy
    · rw [(hsu n hold).2] at hk
      exact (hsu k (hs n hold k hk)).1
    · obtain ⟨p, hp, rfl⟩ := List.mem_map.mp hcopy
      rw [hitem p hp] at hk
      refine Duplication.nodes_item (Duplication.maps_self (P := u.Holds) ?_) (fun j hj => ?_) k hk
      · rw [hdplaces]
        exact hheld
      · exact (hsu j (hs p.1 (hsource p hp) j hj)).1
  · rw [hdplaces]
    exact hsource
  · rw [hdplaces]
    exact fun p hp => (hplaces p hp).1
  · rw [hdplaces]
    exact hheld
  · rw [hdplaces]
    exact hitem
  · rw [hdplaces, hfst]
    exact hsaturated
  · rw [hdplaces, hfst]
  · rw [hdplaces]
    exact fun n hn => (hholds n).mp ((hfold n).1.mp hn)

/-- A record is the clone of another one that an earlier store holds. -/
def IsClone (s t : Store) (r q : RecordRef) : Prop :=
  ∃ d : Duplication, d.Copies s t ∧ .record r ∈ d.places.map (·.1) ∧ q = d.record r

theorem cloneRecord_isClone {s₀ : Store} (hs₀ : s₀.Closed) (hext : s₀.Extends s) (hs : s.Closed)
    (hr : s₀.Holds (.record r)) :
    (s.cloneRecord r).1.Closed ∧ s.Extends (s.cloneRecord r).1 ∧
      s₀.IsClone (s.cloneRecord r).1 r (s.cloneRecord r).2 := by
  obtain ⟨hclosed, hst, d, hd, hplaces, hq, -⟩ := cloneRecord_spec hs (hext _ hr).1
  have hneighbours : ∀ n, s₀.Holds n → s.neighbours n = s₀.neighbours n := by
    intro n hn
    rw [neighbours_eq, neighbours_eq, (hext n hn).2]
  have hold : ∀ n ∈ s.reach (.record r), s₀.Holds n := by
    refine reachFrom_subset (fun n hn k hk => ?_) s.size (by simpa using hr)
    rw [hneighbours n hn, neighbours_eq] at hk
    exact hs₀ n hn k hk
  have hsource : ∀ p ∈ d.places, s₀.Holds p.1 := fun p hp =>
    hold _ (hplaces ▸ List.mem_map_of_mem hp)
  refine ⟨hclosed, hst, d, ⟨hsource, fun p hp h => ?_, hd.held, fun p hp => ?_, ?_⟩, ?_, hq⟩
  · exact hd.fresh p hp (hext _ h).1
  · rw [hd.item p hp, (hext _ (hsource p hp)).2]
  · intro n hn k hk
    refine hd.saturated n hn k ?_
    rw [hneighbours n (hold n (hplaces ▸ hn))]
    exact hk
  · rw [hplaces]
    exact (reach_spec hs (hext _ hr).1).2.2.1

theorem IsClone.extend {u : Store} {q : RecordRef} (h : s.IsClone t r q) (htu : t.Extends u) :
    s.IsClone u r q := by
  obtain ⟨d, hd, hr, hq⟩ := h
  exact ⟨d, hd.extend htu, hr, hq⟩

theorem passes_cloneRecord {s₀ : Store} (hs₀ : s₀.Closed) :
    Passes (fun s => s.Closed ∧ s₀.Extends s) Extends cloneRecord (fun r => s₀.Holds (.record r))
      fun t => s₀.IsClone t := by
  refine ⟨fun h hle => h.extend hle, fun {s r} hs hr => ?_⟩
  obtain ⟨hclosed, hst, hclone⟩ := cloneRecord_isClone hs₀ hs.2 hs.1 hr
  exact ⟨⟨hclosed, hs.2.trans hst⟩, hst, hclone⟩

end Store

end ScatteringData
