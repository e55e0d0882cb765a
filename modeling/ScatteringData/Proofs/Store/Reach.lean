import Mathlib
import ScatteringData.Proofs.Store.Item

/-!
# Reaching all that an object refers to

In a closed store the rounds are as many as the objects, and every round but the last finds one, so
what is reached contains all that it refers to.
-/

namespace ScatteringData

theorem nodup_eraseDups {α : Type} [BEq α] [LawfulBEq α] (xs : List α) : xs.eraseDups.Nodup := by
  induction hn : xs.length using Nat.strong_induction_on generalizing xs with
  | _ n ih =>
    cases xs with
    | nil => exact List.nodup_nil
    | cons x xs =>
      rw [List.eraseDups_cons, List.nodup_cons]
      have hlt : (xs.filter fun y => !y == x).length < n := by
        have := List.length_filter_le (fun y => !y == x) xs
        rw [List.length_cons] at hn
        omega
      refine ⟨?_, ih _ hlt _ rfl⟩
      rw [List.mem_eraseDups, List.mem_filter]
      simp

namespace Store

variable {s : Store}

def nodes (s : Store) : List Node :=
  (List.range s.records.size).map (fun i => Node.record ⟨i⟩) ++
    (List.range s.atoms.size).map (fun i => Node.center (.atom ⟨i⟩)) ++
    (List.range s.nuclides.size).map (fun i => Node.center (.nuclide ⟨i⟩)) ++
    (List.range s.maps.size).map (fun i => Node.map ⟨i⟩) ++
    (List.range s.caches.size).map (fun i => Node.cache ⟨i⟩)

theorem length_nodes (s : Store) : s.nodes.length = s.size := by
  simp [nodes, size, Nat.add_assoc]

theorem mem_nodes_of_holds {n : Node} (h : s.Holds n) : n ∈ s.nodes := by
  rcases n with ⟨⟨n⟩⟩ | (⟨⟨n⟩⟩ | ⟨⟨n⟩⟩) | ⟨⟨n⟩⟩ | ⟨⟨n⟩⟩ <;> simpa [nodes, Holds] using h

theorem length_le_size {ns : List Node} (hnodup : ns.Nodup) (hns : ∀ n ∈ ns, s.Holds n) :
    ns.length ≤ s.size := by
  rw [← length_nodes]
  exact (hnodup.subperm fun n hn => mem_nodes_of_holds (hns n hn)).length_le

def Saturated (s : Store) (ns : List Node) : Prop := ∀ n ∈ ns, ∀ k ∈ s.neighbours n, k ∈ ns

theorem reachFrom_spec (hs : s.Closed) (rounds : Nat) {ns : List Node} (hnodup : ns.Nodup)
    (hns : ∀ n ∈ ns, s.Holds n) :
    (s.reachFrom rounds ns).Nodup ∧ (∀ n ∈ s.reachFrom rounds ns, s.Holds n) ∧
      ns ⊆ s.reachFrom rounds ns ∧
      (s.Saturated (s.reachFrom rounds ns) ∨
        ns.length + rounds ≤ (s.reachFrom rounds ns).length) := by
  induction rounds generalizing ns with
  | zero => exact ⟨hnodup, hns, List.Subset.refl _, Or.inr (le_refl _)⟩
  | succ rounds ih =>
    unfold reachFrom
    have hmem : ∀ k, k ∈ ((ns.flatMap s.neighbours).filter fun n => n ∉ ns).eraseDups ↔
        (∃ n ∈ ns, k ∈ s.neighbours n) ∧ k ∉ ns := by
      intro k
      rw [List.mem_eraseDups, List.mem_filter, List.mem_flatMap, decide_eq_true_iff]
    have hnext := nodup_eraseDups ((ns.flatMap s.neighbours).filter fun n => n ∉ ns)
    generalize ((ns.flatMap s.neighbours).filter fun n => n ∉ ns).eraseDups = next at hmem hnext ⊢
    dsimp only
    -- a round that finds nothing leaves a saturated list, and any other one finds an object
    by_cases hempty : next.isEmpty = true
    · rw [if_pos hempty]
      refine ⟨hnodup, hns, List.Subset.refl _, Or.inl fun n hn k hk => ?_⟩
      rw [List.isEmpty_iff] at hempty
      by_contra hnot
      have := (hmem k).mpr ⟨⟨n, hn, hk⟩, hnot⟩
      rw [hempty] at this
      cases this
    · rw [if_neg hempty]
      have hnodup' : (ns ++ next).Nodup := by
        refine List.nodup_append.mpr ⟨hnodup, hnext, fun a ha b hb heq => ?_⟩
        exact ((hmem b).mp hb).2 (heq ▸ ha)
      have hns' : ∀ n ∈ ns ++ next, s.Holds n := by
        intro k hk
        rcases List.mem_append.mp hk with hk | hk
        · exact hns k hk
        · obtain ⟨⟨n, hn, hnk⟩, -⟩ := (hmem k).mp hk
          rw [neighbours_eq] at hnk
          exact hs n (hns n hn) k hnk
      obtain ⟨hnodup'', hholds, hsub, hclosed⟩ := ih hnodup' hns'
      refine ⟨hnodup'', hholds, fun n hn => hsub (List.mem_append_left _ hn), hclosed.imp_right ?_⟩
      intro hlength
      have hpos : 0 < next.length := List.length_pos_iff.mpr fun h => hempty (by rw [h]; rfl)
      rw [List.length_append] at hlength
      omega

/-- What is reached has every property that is passed on by references. -/
theorem reachFrom_subset {P : Node → Prop} (hP : ∀ n, P n → ∀ k ∈ s.neighbours n, P k)
    (rounds : Nat) {ns : List Node} (hns : ∀ n ∈ ns, P n) : ∀ n ∈ s.reachFrom rounds ns, P n := by
  induction rounds generalizing ns with
  | zero => exact hns
  | succ rounds ih =>
    unfold reachFrom
    dsimp only
    split
    · exact hns
    · refine ih fun k hk => ?_
      rcases List.mem_append.mp hk with hk | hk
      · exact hns k hk
      · rw [List.mem_eraseDups, List.mem_filter, List.mem_flatMap] at hk
        obtain ⟨⟨n, hn, hnk⟩, -⟩ := hk
        exact hP n (hns n hn) k hnk

/-- What is reached from a held object are held objects, without repetition, and all that they refer
to. -/
theorem reach_spec (hs : s.Closed) {n : Node} (hn : s.Holds n) :
    (s.reach n).Nodup ∧ (∀ k ∈ s.reach n, s.Holds k) ∧ n ∈ s.reach n ∧ s.Saturated (s.reach n) := by
  obtain ⟨hnodup, hholds, hsub, hclosed⟩ :=
    reachFrom_spec hs s.size (List.nodup_singleton n) (by simpa using hn)
  refine ⟨hnodup, hholds, hsub (List.mem_singleton_self n), hclosed.resolve_right ?_⟩
  intro hlength
  have := length_le_size hnodup hholds
  rw [List.length_singleton] at hlength
  omega

end Store

end ScatteringData
